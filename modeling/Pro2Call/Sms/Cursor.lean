import Pro2Call.Sms.Utf8

namespace Pro2Call.Sms

open Pro2Call.Data

structure Octets where
  bytes : Bytes := []
  bound : bytes.length < 256 := by decide
  deriving DecidableEq, Repr

theorem Octets.bound_nil : ([] : Bytes).length < 256 := by decide

def Octets.len (view : Octets) : UInt8 := UInt8.ofNat view.bytes.length

@[simp] theorem Octets.toNat_len (view : Octets) : view.len.toNat = view.bytes.length := by
  rw [Octets.len, UInt8.toNat_ofNat', Nat.mod_eq_of_lt view.bound]

def u8 : Bytes → Except SmsErr (UInt8 × Bytes)
  | [] => .error .short
  | o :: r => .ok (o, r)

def viewOf (len : UInt8) (r : Bytes) : Except SmsErr (Octets × Bytes) :=
  if r.length < len.toNat then .error .short
  else .ok (⟨r.take len.toNat, by rw [List.length_take]; have := len.toNat_lt; omega⟩,
    r.drop len.toNat)

def put (cap : Nat) (out octets : Bytes) : Except SmsErr Bytes :=
  if cap - out.length < octets.length then .error .overflow else .ok (out ++ octets)

theorem u8_ok (read : u8 r = .ok (o, rest)) : r = o :: rest := by
  cases r with
  | nil => cases read
  | cons first tail =>
    cases read
    rfl

theorem viewOf_append (view : Octets) (rest : Bytes) :
    viewOf view.len (view.bytes ++ rest) = .ok (view, rest) := by
  unfold viewOf
  rw [if_neg (by rw [view.toNat_len, List.length_append]; omega)]
  simp only [view.toNat_len, List.take_left, List.drop_left]

theorem viewOf_ok {len : UInt8} {view : Octets} (read : viewOf len r = .ok (view, rest)) :
    r = view.bytes ++ rest ∧ view.bytes.length = len.toNat := by
  unfold viewOf at read
  split at read
  · contradiction
  next room =>
    cases read
    exact ⟨(List.take_append_drop _ _).symm, List.length_take_of_le (Nat.not_lt.mp room)⟩

theorem put_room {out octets : Bytes}
    (room : out.length + octets.length ≤ cap) : put cap out octets = .ok (out ++ octets) := by
  rw [put, if_neg (by omega)]

theorem put_ok {out octets written : Bytes}
    (done : put cap out octets = .ok written) : written = out ++ octets := by
  unfold put at done
  split at done
  · contradiction
  · cases done
    rfl

def Writes (cap : Nat) (step : Bytes → Except SmsErr Bytes) (octets : Bytes) : Prop :=
  ∀ out, out.length + octets.length ≤ cap → step out = .ok (out ++ octets)

theorem writes_put (cap : Nat) (octets : Bytes) : Writes cap (put cap · octets) octets :=
  fun _ room => put_room room

theorem writes_nothing (cap : Nat) : Writes cap .ok [] := by
  intro out _
  rw [List.append_nil]

theorem Writes.andThen (one : Writes cap first front) (two : Writes cap second back) :
    Writes cap (fun out => first out >>= second) (front ++ back) := by
  intro out room
  rw [List.length_append] at room
  show (first out >>= second) = _
  rw [one out (by omega)]
  show second (out ++ front) = _
  rw [two (out ++ front) (by rw [List.length_append]; omega), List.append_assoc]

theorem Writes.ite {step : Bytes → Except SmsErr Bytes} {octets : Bytes} (has : Bool)
    (wrote : has = true → Writes cap step octets) :
    Writes cap (fun out => if has then step out else .ok out) (if has then octets else []) := by
  cases has with
  | false => exact writes_nothing cap
  | true => exact wrote rfl

end Pro2Call.Sms

import Mathlib.Data.Bool.AllAny
import Mathlib.Data.List.Induction
import Mathlib.Algebra.Order.Ring.Nat

namespace Pro2Call.Data

/-! Byte strings in memory: reading, overwriting and scanning a range, and the
two byte orders of an unsigned integer field. -/

def slice (bytes : List α) (pos len : Nat) : List α := (bytes.drop pos).take len

def splice (bytes : List α) (pos : Nat) (patch : List α) : List α :=
  bytes.take pos ++ patch ++ bytes.drop (pos + patch.length)

variable {pos size : Nat}

theorem length_slice {bytes : List α} {len : Nat}
    (inside : pos + len ≤ bytes.length) : (slice bytes pos len).length = len := by
  simp only [slice, List.length_take, List.length_drop]
  omega

theorem slice_add (bytes : List α) (pos first second : Nat) :
    slice bytes pos (first + second) =
      slice bytes pos first ++ slice bytes (pos + first) second := by
  simp only [slice, List.take_add, List.drop_drop]

theorem slice_append_left {first second : List α} {len : Nat} (inside : pos + len ≤ first.length) :
    slice (first ++ second) pos len = slice first pos len := by
  simp only [slice]
  rw [List.drop_append_of_le_length (by omega), List.take_append_of_le_length (by simp; omega)]

theorem slice_append_right (first second : List α) (pos len : Nat) :
    slice (first ++ second) (first.length + pos) len = slice second pos len := by
  have gone : first.drop (first.length + pos) = [] := List.drop_eq_nil_of_le (by omega)
  simp [slice, List.drop_append, gone]

@[simp] theorem slice_append_length (front part tail : List α) :
    slice (front ++ part ++ tail) front.length part.length = part := by
  simp [slice]

theorem getElem?_of_slice_one {bytes : List α} (read : slice bytes pos 1 = [element]) :
    bytes[pos]? = some element := by
  have first := congrArg (fun part : List α => part[0]?) read
  simpa [slice, List.getElem?_take, List.getElem?_drop] using first

theorem splice_append_length (front tail patch : List α) :
    splice (front ++ tail) front.length patch = front ++ patch ++ tail.drop patch.length := by
  simp [splice, List.drop_append]

theorem splice_field (front tail : List α) {field patch : List α}
    (same : field.length = patch.length) :
    splice (front ++ (field ++ tail)) front.length patch = front ++ (patch ++ tail) := by
  rw [splice_append_length, ← same, List.drop_left, List.append_assoc]

theorem length_splice {bytes patch : List α} (fits : pos + patch.length ≤ bytes.length) :
    (splice bytes pos patch).length = bytes.length := by
  simp only [splice, List.length_append, List.length_take, List.length_drop]
  omega

theorem take_splice {bytes patch : List α} (inside : pos ≤ bytes.length) :
    (splice bytes pos patch).take (pos + patch.length) = bytes.take pos ++ patch := by
  apply List.take_left'
  rw [List.length_append, List.length_take_of_le inside]

theorem take_splice_of_le {bytes : List α} {count : Nat} (before : count ≤ pos)
    (inside : pos ≤ bytes.length) (patch : List α) :
    (splice bytes pos patch).take count = bytes.take count := by
  rw [splice, List.append_assoc,
    List.take_append_of_le_length (by rw [List.length_take_of_le inside]; exact before),
    List.take_take, Nat.min_eq_left before]

/-- The text does not go on with an element of the given class. -/
def Stops (more : α → Bool) (text : List α) : Prop := ∀ c ∈ text.head?, more c = false

@[simp] theorem stops_nil (more : α → Bool) : Stops more [] := by
  intro c member
  simp at member

@[simp] theorem stops_cons (more : α → Bool) (c : α) (rest : List α) :
    Stops more (c :: rest) ↔ more c = false := by
  simp [Stops]

theorem dropWhile_append_of_stops {run rest : List α}
    (all : ∀ c ∈ run, more c = true) (stops : Stops more rest) :
    (run ++ rest).dropWhile more = rest := by
  rw [List.dropWhile_append_of_pos all]
  cases rest with
  | nil => rfl
  | cons c rest =>
    rw [stops_cons] at stops
    simp [stops]

theorem takeWhile_append_of_stops {run rest : List α}
    (all : ∀ c ∈ run, more c = true) (stops : Stops more rest) :
    (run ++ rest).takeWhile more = run := by
  rw [List.takeWhile_append_of_pos all]
  cases rest with
  | nil => simp
  | cons c rest =>
    rw [stops_cons] at stops
    simp [stops]

theorem modify_append_left {front : List α} (inside : index < front.length) (back : List α)
    (change : α → α) :
    (front ++ back).modify index change = front.modify index change ++ back := by
  induction front generalizing index with
  | nil => simp at inside
  | cons first rest ih =>
    cases index with
    | zero => rfl
    | succ index =>
      simp only [List.cons_append, List.modify_succ_cons]
      rw [ih (by simpa using inside)]

theorem modify_append_length {front : List α} (start : front.length = index) (back : List α)
    (change : α → α) :
    (front ++ back).modify index change = front ++ back.modify 0 change := by
  subst start
  induction front with
  | nil => rfl
  | cons first rest ih =>
    simp only [List.cons_append, List.length_cons, List.modify_succ_cons, ih]

def beNat (bytes : List UInt8) : Nat := bytes.foldl (fun value byte => value * 256 + byte.toNat) 0

def beBytes : Nat → Nat → List UInt8
  | 0, _ => []
  | size + 1, value => beBytes size (value / 256) ++ [UInt8.ofNat value]

def leNat (bytes : List UInt8) : Nat := beNat bytes.reverse

def leBytes (size value : Nat) : List UInt8 := (beBytes size value).reverse

theorem forall_octet {holds : UInt8 → Prop}
    (each : ∀ value : Fin 256, holds (UInt8.ofFin value)) (octet : UInt8) :
    holds octet :=
  each octet.toFin

@[simp] theorem length_beBytes (size value : Nat) : (beBytes size value).length = size := by
  induction size generalizing value with
  | zero => rfl
  | succ size ih => simp [beBytes, ih]

@[simp] theorem length_leBytes (size value : Nat) : (leBytes size value).length = size := by
  simp [leBytes]

@[simp] theorem beNat_nil : beNat [] = 0 := rfl

theorem beNat_append_singleton (bytes : List UInt8) (byte : UInt8) :
    beNat (bytes ++ [byte]) = beNat bytes * 256 + byte.toNat := by
  simp [beNat]

theorem beNat_beBytes {value : Nat} (fits : value < 256 ^ size) :
    beNat (beBytes size value) = value := by
  induction size generalizing value with
  | zero =>
    have : value = 0 := by simpa using fits
    subst value
    rfl
  | succ size ih =>
    have quotient : value / 256 < 256 ^ size := by
      rw [Nat.div_lt_iff_lt_mul (by decide), ← Nat.pow_succ]
      exact fits
    rw [beBytes, beNat_append_singleton, ih quotient]
    simp only [UInt8.toNat_ofNat']
    omega

theorem leNat_leBytes {value : Nat} (fits : value < 256 ^ size) :
    leNat (leBytes size value) = value := by
  simp [leNat, leBytes, beNat_beBytes fits]

theorem beNat_lt (bytes : List UInt8) : beNat bytes < 256 ^ bytes.length := by
  induction bytes using List.reverseRecOn with
  | nil => simp
  | append_singleton front byte ih =>
    have octet := byte.toNat_lt
    rw [beNat_append_singleton, List.length_append, List.length_singleton, Nat.pow_succ]
    omega

theorem beNat_append (high low : List UInt8) :
    beNat (high ++ low) = beNat high * 256 ^ low.length + beNat low := by
  induction low using List.reverseRecOn with
  | nil => simp
  | append_singleton front byte ih =>
    rw [← List.append_assoc, beNat_append_singleton, beNat_append_singleton,
      ih, List.length_append, List.length_singleton, Nat.pow_succ,
      Nat.add_mul, Nat.mul_assoc, Nat.add_assoc]

theorem beNat_eq_zero_iff (bytes : List UInt8) : beNat bytes = 0 ↔ ∀ byte ∈ bytes, byte = 0 := by
  induction bytes using List.reverseRecOn with
  | nil => simp
  | append_singleton front byte ih =>
    have octet : byte.toNat = 0 ↔ byte = 0 := by
      rw [← UInt8.toNat_inj]
      rfl
    rw [beNat_append_singleton]
    simp only [List.mem_append, List.mem_singleton, or_imp, forall_and,
      forall_eq, ← ih, Nat.add_eq_zero_iff, Nat.mul_eq_zero, octet,
      OfNat.ofNat_ne_zero, or_false]

theorem beNat_take_drop (bytes : List UInt8) (count : Nat) :
    beNat bytes = beNat (bytes.take (bytes.length - count)) * 256 ^ min count bytes.length +
        beNat (bytes.drop (bytes.length - count)) := by
  have cut := beNat_append (bytes.take (bytes.length - count)) (bytes.drop (bytes.length - count))
  have low : bytes.length - (bytes.length - count) = min count bytes.length := by
    omega
  rwa [List.take_append_drop, List.length_drop, low] at cut

theorem beNat_lt_iff_take (bytes : List UInt8) (count : Nat) :
    beNat bytes < 256 ^ count ↔ beNat (bytes.take (bytes.length - count)) = 0 := by
  have split := beNat_take_drop bytes count
  have below := beNat_lt (bytes.drop (bytes.length - count))
  have low : (bytes.drop (bytes.length - count)).length = min count bytes.length := by
    rw [List.length_drop]
    omega
  rw [low] at below
  constructor
  · intro small
    by_contra nonzero
    have long : count < bytes.length := by
      by_contra short
      have empty : bytes.length - count = 0 := by omega
      exact nonzero (by rw [empty, List.take_zero, beNat_nil])
    rw [Nat.min_eq_left (Nat.le_of_lt long)] at split
    have least : 256 ^ count ≤ beNat (bytes.take (bytes.length - count)) * 256 ^ count :=
      Nat.le_mul_of_pos_left _ (Nat.pos_of_ne_zero nonzero)
    omega
  · intro zero
    rw [zero, Nat.zero_mul, Nat.zero_add] at split
    calc
      beNat bytes < 256 ^ min count bytes.length := by omega
      _ ≤ 256 ^ count := Nat.pow_le_pow_right (by decide) (Nat.min_le_left _ _)

theorem beNat_injective {first second : List UInt8} (sized : first.length = second.length)
    (same : beNat first = beNat second) : first = second := by
  induction first using List.reverseRecOn generalizing second with
  | nil => exact (List.length_eq_zero_iff.mp sized.symm).symm
  | append_singleton front byte ih =>
    obtain rfl | ⟨rest, last, rfl⟩ := second.eq_nil_or_concat
    · simp at sized
    · rw [List.concat_eq_append] at sized same ⊢
      rw [beNat_append_singleton, beNat_append_singleton] at same
      have below := byte.toNat_lt
      have below' := last.toNat_lt
      have lastSame : byte = last := UInt8.toNat_inj.mp (by omega)
      have frontSame : front = rest := by
        apply ih
        · simpa using sized
        · omega
      rw [frontSame, lastSame]

theorem beBytes_beNat {bytes : List UInt8}
    (sized : bytes.length = size) : beBytes size (beNat bytes) = bytes := by
  apply beNat_injective
  · rw [length_beBytes, sized]
  · exact beNat_beBytes (sized ▸ beNat_lt bytes)

@[simp] theorem leNat_nil : leNat [] = 0 := rfl

theorem leNat_cons (byte : UInt8) (rest : List UInt8) :
    leNat (byte :: rest) = leNat rest * 256 + byte.toNat := by
  rw [leNat, List.reverse_cons, beNat_append_singleton]
  rfl

end Pro2Call.Data

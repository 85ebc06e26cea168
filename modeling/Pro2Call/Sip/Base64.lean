import Pro2Call.Data.Base64
import Pro2Call.Data.Utf8
import Pro2Call.Sip.Names

namespace Pro2Call.Sip

open Pro2Call.Data

/-- The value of a letter; `none` where the table holds -1. -/
def b64Map (c : UInt8) : Option Nat := base64Alphabet.idxOf? c

structure B64State where
  acc : UInt32 := 0
  nbits : Nat := 0
  out : Bytes := []
  deriving DecidableEq, Repr

def b64Step (s : B64State) (c : UInt8) : B64State :=
  match b64Map c with
  | none => s
  | some v =>
    let acc := s.acc <<< 6 ||| UInt32.ofNat v
    let nbits := s.nbits + 6
    if 8 ≤ nbits then
      ⟨acc, nbits - 8, s.out ++ [(acc >>> UInt32.ofNat (nbits - 8) &&& 0xFF).toUInt8]⟩
    else ⟨acc, nbits, s.out⟩

def b64decode (s : Bytes) : Bytes := (s.foldl b64Step {}).out

theorem b64Map_letter : ∀ v < 64, b64Map (base64Letter v) = some v := by decide

theorem foldl_b64Step_filter (s : B64State) (text : Bytes) :
    text.foldl b64Step s = (text.filter fun c => (b64Map c).isSome).foldl b64Step s := by
  induction text generalizing s with
  | nil => rfl
  | cons c text ih =>
    cases read : b64Map c with
    | none =>
      have skip : b64Step s c = s := by rw [b64Step, read]
      rw [List.foldl_cons, skip, ih, List.filter_cons_of_neg (by simp [read])]
    | some v => rw [List.foldl_cons, ih, List.filter_cons_of_pos (by simp [read]), List.foldl_cons]

theorem toNat_shift_or (acc : UInt32) (small : v < 64) :
    (acc <<< 6 ||| UInt32.ofNat v).toNat = acc.toNat * 64 % 2 ^ 32 + v := by
  have split : acc.toNat * 2 ^ 6 % 2 ^ 32 = (acc.toNat % 2 ^ 26) * 2 ^ 6 := by omega
  rw [UInt32.toNat_or, UInt32.toNat_shiftLeft, UInt32.toNat_ofNat']
  simp only [UInt32.reduceToNat, Nat.reduceMod, Nat.shiftLeft_eq]
  rw [split, ← Nat.shiftLeft_eq, Nat.mod_eq_of_lt (by omega : v < 2 ^ 32), or_low _ 6 small]
  omega

theorem octet_of_shift (acc : UInt32) (small : n < 32) :
    (acc >>> UInt32.ofNat n &&& 0xFF).toUInt8 = UInt8.ofNat (acc.toNat / 2 ^ n) := by
  have shift : (UInt32.ofNat n).toNat = n := by
    rw [UInt32.toNat_ofNat']
    omega
  have low (v : Nat) : v &&& 0xFF = v % 256 := Nat.and_two_pow_sub_one_eq_mod v 8
  apply UInt8.toNat_inj.mp
  rw [UInt32.toNat_toUInt8, UInt32.toNat_and, UInt32.toNat_shiftRight, shift,
    Nat.mod_eq_of_lt small, Nat.shiftRight_eq_div_pow, UInt8.toNat_ofNat']
  simp only [UInt32.reduceToNat, low, Nat.reducePow, Nat.mod_mod]

theorem b64Step_first (acc : UInt32) (out : Bytes) (small : v < 64) :
    ∃ acc' : UInt32, acc'.toNat = acc.toNat * 64 % 2 ^ 32 + v ∧
      b64Step ⟨acc, 0, out⟩ (base64Letter v) = ⟨acc', 6, out⟩ := by
  refine ⟨acc <<< 6 ||| UInt32.ofNat v, toNat_shift_or acc small, ?_⟩
  rw [b64Step, b64Map_letter _ small]
  rfl

theorem b64Step_octet (acc : UInt32) (out : Bytes) (rest : Nat) (small : v < 64)
    (narrow : rest ≤ 4) :
    ∃ acc' : UInt32, acc'.toNat = acc.toNat * 64 % 2 ^ 32 + v ∧
      b64Step ⟨acc, rest + 2, out⟩ (base64Letter v) =
        ⟨acc', rest, out ++ [UInt8.ofNat (acc'.toNat / 2 ^ rest)]⟩ := by
  refine ⟨acc <<< 6 ||| UInt32.ofNat v, toNat_shift_or acc small, ?_⟩
  rw [b64Step, b64Map_letter _ small]
  dsimp only
  rw [if_pos (by omega), show rest + 2 + 6 - 8 = rest by omega, octet_of_shift _ (by omega)]

theorem ofNat_eq_of_mod {a : UInt8} (same : v % 256 = a.toNat) : UInt8.ofNat v = a :=
  UInt8.toNat_inj.mp (by rw [UInt8.toNat_ofNat', ← same])

theorem b64Step_leading (acc : UInt32) (out : Bytes) (a : UInt8) (small : v < 16) :
    ∃ acc' : UInt32, acc'.toNat % 16 = v ∧
      b64Step (b64Step ⟨acc, 0, out⟩ (base64Letter (a.toNat / 4)))
        (base64Letter (a.toNat % 4 * 16 + v)) = ⟨acc', 4, out ++ [a]⟩ := by
  have octet := a.toNat_lt
  obtain ⟨acc1, value1, step1⟩ := b64Step_first acc out (v := a.toNat / 4) (by omega)
  obtain ⟨acc2, value2, step2⟩ := b64Step_octet acc1 out 4 (v := a.toNat % 4 * 16 + v) (by omega)
    (by decide)
  rw [ofNat_eq_of_mod (a := a) (by omega)] at step2
  exact ⟨acc2, by omega, by rw [step1, step2]⟩

theorem b64Step_middle {acc : UInt32} (out : Bytes) {b : UInt8}
    (top : acc.toNat % 16 = b.toNat / 16) (small : v < 4) :
    ∃ acc' : UInt32, acc'.toNat % 4 = v ∧
      b64Step ⟨acc, 4, out⟩ (base64Letter (b.toNat % 16 * 4 + v)) = ⟨acc', 2, out ++ [b]⟩ := by
  have octet := b.toNat_lt
  obtain ⟨acc1, value, step⟩ := b64Step_octet acc out 2 (v := b.toNat % 16 * 4 + v) (by omega)
    (by decide)
  rw [ofNat_eq_of_mod (a := b) (by omega)] at step
  exact ⟨acc1, by omega, step⟩

theorem foldl_sextets (octets : Bytes) (acc : UInt32) (out : Bytes) :
    (((sextets octets).map base64Letter).foldl b64Step ⟨acc, 0, out⟩).out = out ++ octets := by
  induction octets using sextets.induct generalizing acc out with
  | case1 a b c rest ih =>
    have second := b.toNat_lt
    have third := c.toNat_lt
    obtain ⟨acc1, top, step1⟩ := b64Step_leading acc out a (v := b.toNat / 16) (by omega)
    obtain ⟨acc2, middle, step2⟩ := b64Step_middle (out ++ [a]) top (v := c.toNat / 64) (by omega)
    obtain ⟨acc3, value, step3⟩ := b64Step_octet acc2 (out ++ [a] ++ [b]) 0 (v := c.toNat % 64)
      (by omega) (by decide)
    rw [ofNat_eq_of_mod (a := c) (by omega)] at step3
    rw [sextets]
    simp only [List.map_cons, List.foldl_cons, step1, step2, step3, ih]
    simp
  | case2 a b =>
    have second := b.toNat_lt
    obtain ⟨acc1, top, step1⟩ := b64Step_leading acc out a (v := b.toNat / 16) (by omega)
    obtain ⟨acc2, -, step2⟩ := b64Step_middle (out ++ [a]) top (v := 0) (by decide)
    rw [Nat.add_zero] at step2
    simp only [sextets, List.map_cons, List.foldl_cons, step1, step2]
    simp
  | case3 a =>
    obtain ⟨acc1, -, step1⟩ := b64Step_leading acc out a (v := 0) (by decide)
    rw [Nat.add_zero] at step1
    simp only [sextets, List.map_cons, List.foldl_cons, step1]
    simp
  | case4 => simp [sextets]

theorem filter_spread {octets text : Bytes} (spread : SpreadBase64 octets text) :
    (text.filter fun c => (b64Map c).isSome) = (sextets octets).map base64Letter := by
  have letters : ((sextets octets).map base64Letter).filter (fun c => (b64Map c).isSome) =
      (sextets octets).map base64Letter := by
    refine List.filter_eq_self.mpr fun c member => ?_
    obtain ⟨v, inside, rfl⟩ := List.mem_map.mp member
    rw [b64Map_letter _ (sextets_lt octets v inside)]
    rfl
  have blanks (c : UInt8) (read : (b64Map c).isSome) : (!isBlank c) = true := by
    by_contra blank
    simp only [isBlank, Bool.not_eq_true', Bool.not_eq_false, Bool.or_eq_true,
      decide_eq_true_eq] at blank
    obtain ((rfl | rfl) | rfl) | rfl := blank <;> exact absurd read (by decide)
  have padding : (base64Padding octets).filter (fun c => (b64Map c).isSome) = [] := by
    rw [base64Padding, List.filter_replicate_of_neg (by decide)]
  have skip : (text.filter fun c => (b64Map c).isSome) =
      (text.filter (!isBlank ·)).filter fun c => (b64Map c).isSome := by
    rw [List.filter_filter]
    refine List.filter_congr fun c _ => ?_
    cases read : (b64Map c).isSome with
    | false => rfl
    | true => rw [blanks c read]; rfl
  rw [skip]
  obtain whole | bare := spread
  · rw [whole, base64, List.filter_append, letters, padding, List.append_nil]
  · rw [bare, letters]

/-- Every spread of the encoding of `octets` is decoded to them. -/
theorem b64decode_spread {octets text : Bytes} (spread : SpreadBase64 octets text) :
    b64decode text = octets := by
  rw [b64decode, foldl_b64Step_filter, filter_spread spread]
  exact foldl_sextets octets 0 []

/-- `SIP!` over two lines and without padding. -/
theorem b64decode_spread_lines : b64decode (ascii "U0lQ\r\n\tI Q") = ascii "SIP!" :=
  b64decode_spread (.inr (by decide))

end Pro2Call.Sip

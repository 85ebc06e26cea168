import Pro2Call.Data.Utf8
import Pro2Call.Json.Read

namespace Pro2Call.Json

open Pro2Call.Data

/-! The check that bytes are UTF-8, held to the encoder of the escapes. -/

/-- What the first byte of a sequence of several says: how many bytes follow, its
own bits and the least code point that needs as many. -/
def utf8First (c : UInt8) : Option (Nat × Nat × Nat) :=
  if 0xC2 ≤ c ∧ c ≤ 0xDF then some (1, (c &&& 0x1F).toNat, 0x80)
  else if 0xE0 ≤ c ∧ c ≤ 0xEF then some (2, (c &&& 0x0F).toNat, 0x800)
  else if 0xF0 ≤ c ∧ c ≤ 0xF4 then some (3, (c &&& 0x07).toNat, 0x10000)
  else none

def utf8Rest : Nat → Nat → List UInt8 → Option (Nat × List UInt8)
  | 0, cp, p => some (cp, p)
  | _ + 1, _, [] => none
  | n + 1, cp, c :: p =>
    if c &&& 0xC0 ≠ 0x80 then none
    else utf8Rest n (cp <<< 6 ||| (c &&& 0x3F).toNat) p

def utf8Sequence : List UInt8 → Option (List UInt8)
  | [] => none
  | c :: p =>
    if c < 0x80 then some p
    else
      match utf8First c with
      | none => none
      | some (n, cp, min) =>
        if p.length < n then none
        else
          match utf8Rest n cp p with
          | none => none
          | some (cp, p) =>
            if cp < min ∨ 0x10FFFF < cp then none
            else if 0xD800 ≤ cp ∧ cp ≤ 0xDFFF then none
            else some p

theorem utf8Rest_succ :
    utf8Rest (n + 1) cp p = some (v, rest) ↔ ∃ low < 64, ∃ tail,
      p = UInt8.ofNat (low + 128) :: tail ∧ utf8Rest n (cp * 64 + low) tail = some (v, rest) := by
  have digit : ∀ low < 64, UInt8.ofNat (low + 128) &&& 0xC0 = 0x80 ∧
      (UInt8.ofNat (low + 128) &&& 0x3F).toNat = low := by decide
  constructor
  · intro read
    cases p with
    | nil => cases read
    | cons c tail =>
      rw [utf8Rest] at read
      split at read
      · contradiction
      · rename_i follows
        have small := and_3F_lt c
        rw [or_low cp 6 small] at read
        exact ⟨_, small, tail, congrArg (· :: tail) ((continuation_iff c).mp (not_not.mp follows)),
          read⟩
  · rintro ⟨low, small, tail, rfl, read⟩
    obtain ⟨marked, value⟩ := digit low small
    rw [utf8Rest, if_neg (not_not.mpr marked), value, or_low cp 6 small]
    exact read

theorem utf8First_cases {n lead min : Nat} (first : utf8First c = some (n, lead, min)) :
    (n = 1 ∧ min = 0x80 ∧ lead < 32 ∧ c = UInt8.ofNat (lead + 192)) ∨
      (n = 2 ∧ min = 0x800 ∧ lead < 16 ∧ c = UInt8.ofNat (lead + 224)) ∨
      (n = 3 ∧ min = 0x10000 ∧ lead < 8 ∧ c = UInt8.ofNat (lead + 240)) := by
  have every : ∀ c : UInt8, ∀ found ∈ utf8First c,
      (found.1 = 1 ∧ found.2.2 = 0x80 ∧ found.2.1 < 32 ∧ c = UInt8.ofNat (found.2.1 + 192)) ∨
        (found.1 = 2 ∧ found.2.2 = 0x800 ∧ found.2.1 < 16 ∧ c = UInt8.ofNat (found.2.1 + 224)) ∨
        (found.1 = 3 ∧ found.2.2 = 0x10000 ∧ found.2.1 < 8 ∧ c = UInt8.ofNat (found.2.1 + 240)) :=
    forall_octet (by decide +kernel)
  exact every c _ first

theorem utf8Rest_sound {n lead min v : Nat} (first : utf8First c = some (n, lead, min))
    (read : utf8Rest n lead p = some (v, rest))
    (least : min ≤ v) (valid : v.isValidChar) :
    ∃ char : Char, c :: p = String.utf8EncodeChar char ++ rest := by
  obtain ⟨char, rfl⟩ := exists_toNat_eq valid
  refine ⟨char, ?_⟩
  obtain ⟨rfl, rfl, small, rfl⟩ | ⟨rfl, rfl, small, rfl⟩ | ⟨rfl, rfl, small, rfl⟩ :=
    utf8First_cases first
  · obtain ⟨low, lowSmall, p, rfl, done⟩ := utf8Rest_succ.mp read
    obtain ⟨value, rfl⟩ := Prod.mk.inj (Option.some.inj done)
    rw [utf8EncodeChar_two (by omega) (by omega), show char.toNat / 64 % 32 = lead by omega,
      show char.toNat % 64 = low by omega]
    rfl
  · obtain ⟨middle, middleSmall, p, rfl, next⟩ := utf8Rest_succ.mp read
    obtain ⟨low, lowSmall, p, rfl, done⟩ := utf8Rest_succ.mp next
    obtain ⟨value, rfl⟩ := Prod.mk.inj (Option.some.inj done)
    rw [utf8EncodeChar_three (by omega) (by omega),
      show char.toNat / 4096 % 16 = lead by omega, show char.toNat / 64 % 64 = middle by omega,
      show char.toNat % 64 = low by omega]
    rfl
  · obtain ⟨upper, upperSmall, p, rfl, next⟩ := utf8Rest_succ.mp read
    obtain ⟨middle, middleSmall, p, rfl, last⟩ := utf8Rest_succ.mp next
    obtain ⟨low, lowSmall, p, rfl, done⟩ := utf8Rest_succ.mp last
    obtain ⟨value, rfl⟩ := Prod.mk.inj (Option.some.inj done)
    rw [utf8EncodeChar_four (by omega), show char.toNat / 262144 % 8 = lead by omega,
      show char.toNat / 4096 % 64 = upper by omega, show char.toNat / 64 % 64 = middle by omega,
      show char.toNat % 64 = low by omega]
    rfl

theorem utf8Sequence_sound (read : utf8Sequence s = some rest) :
    ∃ char : Char, s = String.utf8EncodeChar char ++ rest := by
  cases s with
  | nil => cases read
  | cons c p =>
    rw [utf8Sequence] at read
    split at read
    · rename_i ascii
      cases read
      have small : c.toNat < 0x80 := ascii
      obtain ⟨char, value⟩ := exists_toNat_eq (.inl (Nat.lt_trans small (by decide)))
      refine ⟨char, ?_⟩
      rw [utf8EncodeChar_one (value ▸ small), value, UInt8.ofNat_toNat]
      rfl
    · split at read
      · contradiction
      · rename_i n lead min first
        split at read
        · contradiction
        · split at read
          · contradiction
          · rename_i v behind tail
            split at read
            · contradiction
            · split at read
              · contradiction
              · cases read
                refine utf8Rest_sound first tail (by omega) ?_
                unfold Nat.isValidChar
                omega

theorem utf8Sequence_of_rest {n lead min v : Nat} {p rest : List UInt8}
    (several : ¬ c < 0x80) (first : utf8First c = some (n, lead, min))
    (enough : n ≤ p.length) (read : utf8Rest n lead p = some (v, rest))
    (least : min ≤ v) (valid : v.isValidChar) : utf8Sequence (c :: p) = some rest := by
  unfold Nat.isValidChar at valid
  simp only [utf8Sequence, if_neg several, first, if_neg (Nat.not_lt.mpr enough), read]
  rw [if_neg (by omega), if_neg (by omega)]

theorem utf8Sequence_encode (char : Char) (rest : List UInt8) :
    utf8Sequence (String.utf8EncodeChar char ++ rest) = some rest := by
  have valid : char.toNat.isValidChar := char.valid
  have range := valid
  unfold Nat.isValidChar at range
  by_cases one : char.toNat < 0x80
  · rw [utf8EncodeChar_one one]
    refine if_pos ?_
    rw [UInt8.lt_iff_toNat_lt, UInt8.toNat_ofNat', Nat.mod_eq_of_lt (by omega)]
    exact one
  by_cases two : char.toNat < 0x800
  · have first : ∀ lead < 32, 2 ≤ lead → ¬ UInt8.ofNat (lead + 192) < 0x80 ∧
        utf8First (UInt8.ofNat (lead + 192)) = some (1, lead, 0x80) := by decide
    obtain ⟨several, first⟩ := first (char.toNat / 64 % 32) (by omega) (by omega)
    rw [utf8EncodeChar_two (by omega) two]
    refine utf8Sequence_of_rest several first (by simp) ?_ (by omega) valid
    refine utf8Rest_succ.mpr ⟨char.toNat % 64, by omega, _, rfl, ?_⟩
    rw [utf8Rest, show char.toNat / 64 % 32 * 64 + char.toNat % 64 = char.toNat by omega]
    rfl
  by_cases three : char.toNat < 0x10000
  · have first : ∀ lead < 16, ¬ UInt8.ofNat (lead + 224) < 0x80 ∧
        utf8First (UInt8.ofNat (lead + 224)) = some (2, lead, 0x800) := by decide
    obtain ⟨several, first⟩ := first (char.toNat / 4096 % 16) (by omega)
    rw [utf8EncodeChar_three (by omega) three]
    refine utf8Sequence_of_rest several first (by simp) ?_ (by omega) valid
    refine utf8Rest_succ.mpr ⟨char.toNat / 64 % 64, by omega, _, rfl, ?_⟩
    refine utf8Rest_succ.mpr ⟨char.toNat % 64, by omega, _, rfl, ?_⟩
    rw [utf8Rest, show (char.toNat / 4096 % 16 * 64 + char.toNat / 64 % 64) * 64 +
      char.toNat % 64 = char.toNat by omega]
    rfl
  · have first : ∀ lead < 5, ¬ UInt8.ofNat (lead + 240) < 0x80 ∧
        utf8First (UInt8.ofNat (lead + 240)) = some (3, lead, 0x10000) := by decide
    obtain ⟨several, first⟩ := first (char.toNat / 262144 % 8) (by omega)
    rw [utf8EncodeChar_four (by omega)]
    refine utf8Sequence_of_rest several first (by simp) ?_ (by omega) valid
    refine utf8Rest_succ.mpr ⟨char.toNat / 4096 % 64, by omega, _, rfl, ?_⟩
    refine utf8Rest_succ.mpr ⟨char.toNat / 64 % 64, by omega, _, rfl, ?_⟩
    refine utf8Rest_succ.mpr ⟨char.toNat % 64, by omega, _, rfl, ?_⟩
    rw [utf8Rest, show ((char.toNat / 262144 % 8 * 64 + char.toNat / 4096 % 64) * 64 +
      char.toNat / 64 % 64) * 64 + char.toNat % 64 = char.toNat by omega]
    rfl

theorem utf8Sequence_length (read : utf8Sequence s = some rest) : rest.length < s.length := by
  obtain ⟨char, rfl⟩ := utf8Sequence_sound read
  have filled := length_utf8EncodeChar_pos char
  rw [List.length_append]
  omega

def jsonUtf8Valid (s : List UInt8) : Bool :=
  match s with
  | [] => true
  | c :: p =>
    match _ : utf8Sequence (c :: p) with
    | none => false
    | some rest => jsonUtf8Valid rest
termination_by s.length
decreasing_by exact utf8Sequence_length ‹_›

theorem jsonUtf8Valid_step (read : utf8Sequence s = some rest) :
    jsonUtf8Valid s = jsonUtf8Valid rest := by
  cases s with
  | nil => cases read
  | cons c p =>
    rw [jsonUtf8Valid]
    split
    · rename_i unread
      rw [read] at unread
      cases unread
    · rename_i again
      rw [read] at again
      cases again
      rfl

@[simp] theorem jsonUtf8Valid_encode (char : Char) (rest : List UInt8) :
    jsonUtf8Valid (String.utf8EncodeChar char ++ rest) = jsonUtf8Valid rest :=
  jsonUtf8Valid_step (utf8Sequence_encode char rest)

theorem exists_chars (valid : jsonUtf8Valid s = true) :
    ∃ chars : List Char, s = chars.flatMap String.utf8EncodeChar := by
  fun_induction jsonUtf8Valid s with
  | case1 => exact ⟨[], rfl⟩
  | case2 c p refused => contradiction
  | case3 c p rest read ih =>
    obtain ⟨char, same⟩ := utf8Sequence_sound read
    obtain ⟨chars, later⟩ := ih valid
    exact ⟨char :: chars, by rw [same, later, List.flatMap_cons]⟩

theorem utf8Enc_char (char : Char) : utf8Enc char.toNat = String.utf8EncodeChar char :=
  (utf8EncodeChar_bits char).symm

theorem jsonUtf8Valid_utf8Enc {cp : Nat} (scalar : cp.isValidChar) (rest : List UInt8) :
    jsonUtf8Valid (utf8Enc cp ++ rest) = jsonUtf8Valid rest := by
  obtain ⟨char, rfl⟩ := exists_toNat_eq scalar
  rw [utf8Enc_char, jsonUtf8Valid_encode]

theorem jsonUtf8Valid_iff (s : List UInt8) : jsonUtf8Valid s = true ↔
    ∃ cps : List Nat, (∀ cp ∈ cps, cp.isValidChar) ∧ s = cps.flatMap utf8Enc := by
  constructor
  · intro valid
    obtain ⟨chars, rfl⟩ := exists_chars valid
    refine ⟨chars.map Char.toNat, ?_, ?_⟩
    · intro cp member
      obtain ⟨char, -, rfl⟩ := List.mem_map.mp member
      exact char.valid
    · simp only [List.flatMap_map, utf8Enc_char]
  · rintro ⟨cps, scalars, rfl⟩
    induction cps with
    | nil => rw [List.flatMap_nil, jsonUtf8Valid]
    | cons cp cps ih =>
      rw [List.flatMap_cons, jsonUtf8Valid_utf8Enc (scalars cp (by simp))]
      exact ih fun cp member => scalars cp (by simp [member])

end Pro2Call.Json

import Pro2Call.Data.Utf8

namespace Pro2Call.Sms

open Pro2Call.Data

abbrev Bytes := List UInt8

inductive SmsErr where
  | short
  | length
  | overflow
  | inval
  | alphabet
  | mti
  | missing
  deriving DecidableEq, Repr

/-! The UTF-8 helpers of `sms_intl.h`. -/

/-- The first octet of a sequence of several: its payload and how many
continuation octets follow. -/
def utf8Lead (c : UInt8) : Option (Nat × Nat) :=
  if c &&& 0xE0 = 0xC0 then some ((c &&& 0x1F).toNat, 1)
  else if c &&& 0xF0 = 0xE0 then some ((c &&& 0x0F).toNat, 2)
  else if c &&& 0xF8 = 0xF0 then some ((c &&& 0x07).toNat, 3)
  else none

def utf8Tail (s : Bytes) : Nat → Nat → Nat → Option Nat
  | 0, _, v => some v
  | extra + 1, k, v =>
    if s.getD k 0 &&& 0xC0 ≠ 0x80 then none
    else utf8Tail s extra (k + 1) (v <<< 6 ||| (s.getD k 0 &&& 0x3F).toNat)

def smsUtf8Next (s : Bytes) (i : Nat) : Option (Nat × Nat) :=
  if s.length ≤ i then none
  else if s.getD i 0 < 0x80 then some ((s.getD i 0).toNat, i + 1)
  else
    match utf8Lead (s.getD i 0) with
    | none => none
    | some (lead, extra) =>
      if s.length < i + 1 + extra then none
      else
        match utf8Tail s extra (i + 1) lead with
        | none => none
        | some v =>
          -- overlong forms, then values that are no scalar
          if (extra = 1 ∧ v < 0x80) ∨ (extra = 2 ∧ v < 0x800) ∨ (extra = 3 ∧ v < 0x10000) then none
          else if 0x10FFFF < v ∨ (0xD800 ≤ v ∧ v ≤ 0xDFFF) then none
          else some (v, i + 1 + extra)

def smsUtf8Put (cap c : Nat) : Bytes :=
  if c < 0x80 then
    if cap < 1 then [] else [UInt8.ofNat c]
  else if c < 0x800 then
    if cap < 2 then []
    else [UInt8.ofNat (0xC0 ||| c >>> 6), UInt8.ofNat (0x80 ||| c &&& 0x3F)]
  else if c < 0x10000 then
    if cap < 3 then []
    else [UInt8.ofNat (0xE0 ||| c >>> 12), UInt8.ofNat (0x80 ||| c >>> 6 &&& 0x3F),
      UInt8.ofNat (0x80 ||| c &&& 0x3F)]
  else
    if cap < 4 then []
    else [UInt8.ofNat (0xF0 ||| c >>> 18), UInt8.ofNat (0x80 ||| c >>> 12 &&& 0x3F),
      UInt8.ofNat (0x80 ||| c >>> 6 &&& 0x3F), UInt8.ofNat (0x80 ||| c &&& 0x3F)]

def utf8Text (chars : List Char) : Bytes := chars.flatMap String.utf8EncodeChar

@[simp] theorem utf8Text_nil : utf8Text [] = [] := rfl

@[simp] theorem utf8Text_cons (c : Char) (rest : List Char) :
    utf8Text (c :: rest) = String.utf8EncodeChar c ++ utf8Text rest := rfl

variable {c : Char} {s : Bytes}

theorem length_utf8EncodeChar_le (plane : c.toNat < 0x10000) :
    (String.utf8EncodeChar c).length ≤ 3 := by
  by_cases one : c.toNat < 0x80
  · simp [utf8EncodeChar_one one]
  by_cases two : c.toNat < 0x800
  · simp [utf8EncodeChar_two (Nat.not_lt.mp one) two]
  · simp [utf8EncodeChar_three (Nat.not_lt.mp two) plane]

theorem utf8Tail_succ (read : utf8Tail s (extra + 1) k v = some w) :
    ∃ low < 64, s.getD k 0 = UInt8.ofNat (low + 128) ∧
      utf8Tail s extra (k + 1) (v * 64 + low) = some w := by
  rw [utf8Tail] at read
  split at read
  · contradiction
  next follows =>
    have small := and_3F_lt (s.getD k 0)
    refine ⟨_, small, (continuation_iff _).mp (not_not.mp follows), ?_⟩
    rwa [or_low v 6 small] at read

theorem utf8Lead_cases {c : UInt8} {lead extra : Nat} (first : utf8Lead c = some (lead, extra)) :
    (extra = 1 ∧ lead < 32 ∧ c = UInt8.ofNat (lead + 192)) ∨
      (extra = 2 ∧ lead < 16 ∧ c = UInt8.ofNat (lead + 224)) ∨
      (extra = 3 ∧ lead < 8 ∧ c = UInt8.ofNat (lead + 240)) := by
  have every : ∀ c : UInt8, ∀ found ∈ utf8Lead c,
      (found.2 = 1 ∧ found.1 < 32 ∧ c = UInt8.ofNat (found.1 + 192)) ∨
        (found.2 = 2 ∧ found.1 < 16 ∧ c = UInt8.ofNat (found.1 + 224)) ∨
        (found.2 = 3 ∧ found.1 < 8 ∧ c = UInt8.ofNat (found.1 + 240)) :=
    forall_octet (by decide +kernel)
  exact every c _ first

theorem drop_eq_getD_cons (inside : i < s.length) : s.drop i = s.getD i 0 :: s.drop (i + 1) := by
  rw [List.drop_eq_getElem_cons inside, List.getD_eq_getElem _ _ inside]

theorem utf8Tail_sound {i lead extra : Nat} (first : utf8Lead (s.getD i 0) = some (lead, extra))
    (inside : i + 1 + extra ≤ s.length)
    (tail : utf8Tail s extra (i + 1) lead = some c.toNat)
    (shortest : ¬((extra = 1 ∧ c.toNat < 0x80) ∨ (extra = 2 ∧ c.toNat < 0x800) ∨
      (extra = 3 ∧ c.toNat < 0x10000))) :
    (String.utf8EncodeChar c).length = 1 + extra ∧
      s.drop i = String.utf8EncodeChar c ++ s.drop (i + 1 + extra) := by
  obtain ⟨rfl, small, octet⟩ | ⟨rfl, small, octet⟩ | ⟨rfl, small, octet⟩ := utf8Lead_cases first
  · obtain ⟨low, lowSmall, second, done⟩ := utf8Tail_succ tail
    have value : lead * 64 + low = c.toNat := Option.some.inj done
    rw [utf8EncodeChar_two (by omega) (by omega), drop_eq_getD_cons (by omega), octet,
      drop_eq_getD_cons (by omega), second,
      show c.toNat / 64 % 32 = lead by omega, show c.toNat % 64 = low by omega]
    exact ⟨rfl, rfl⟩
  · obtain ⟨middle, middleSmall, second, rest⟩ := utf8Tail_succ tail
    obtain ⟨low, lowSmall, third, done⟩ := utf8Tail_succ rest
    have value : (lead * 64 + middle) * 64 + low = c.toNat := Option.some.inj done
    rw [utf8EncodeChar_three (by omega) (by omega), drop_eq_getD_cons (by omega),
      octet, drop_eq_getD_cons (by omega), second, drop_eq_getD_cons (by omega), third,
      show c.toNat / 4096 % 16 = lead by omega,
      show c.toNat / 64 % 64 = middle by omega, show c.toNat % 64 = low by omega]
    exact ⟨rfl, rfl⟩
  · obtain ⟨upper, upperSmall, second, rest⟩ := utf8Tail_succ tail
    obtain ⟨middle, middleSmall, third, rest⟩ := utf8Tail_succ rest
    obtain ⟨low, lowSmall, fourth, done⟩ := utf8Tail_succ rest
    have value : ((lead * 64 + upper) * 64 + middle) * 64 + low = c.toNat := Option.some.inj done
    rw [utf8EncodeChar_four (by omega), drop_eq_getD_cons (by omega), octet,
      drop_eq_getD_cons (by omega), second, drop_eq_getD_cons (by omega), third,
      drop_eq_getD_cons (by omega), fourth,
      show c.toNat / 262144 % 8 = lead by omega,
      show c.toNat / 4096 % 64 = upper by omega,
      show c.toNat / 64 % 64 = middle by omega, show c.toNat % 64 = low by omega]
    exact ⟨rfl, rfl⟩

theorem smsUtf8Next_sound (read : smsUtf8Next s i = some (v, j)) :
    ∃ c : Char, v = c.toNat ∧ j = i + (String.utf8EncodeChar c).length ∧
      j ≤ s.length ∧ s.drop i = String.utf8EncodeChar c ++ s.drop j := by
  unfold smsUtf8Next at read
  split at read
  · contradiction
  next inside =>
  split at read
  next ascii =>
    cases read
    have small : (s.getD i 0).toNat < 0x80 := ascii
    obtain ⟨c, value⟩ := exists_toNat_eq (.inl (Nat.lt_trans small (by decide)))
    rw [← value] at small ⊢
    refine ⟨c, rfl, ?_, by omega, ?_⟩
    · rw [utf8EncodeChar_one small]
      rfl
    · rw [drop_eq_getD_cons (by omega), utf8EncodeChar_one small, value, UInt8.ofNat_toNat]
      rfl
  next =>
  split at read
  · contradiction
  next lead extra first =>
  split at read
  · contradiction
  next whole =>
  split at read
  · contradiction
  next tail =>
  split at read
  · contradiction
  next shortest =>
  split at read
  · contradiction
  next scalar =>
    cases read
    have valid : v.isValidChar := by
      unfold Nat.isValidChar
      omega
    obtain ⟨c, rfl⟩ := exists_toNat_eq valid
    obtain ⟨size, text⟩ := utf8Tail_sound first (Nat.not_lt.mp whole) tail shortest
    exact ⟨c, rfl, by omega, Nat.not_lt.mp whole, text⟩

theorem smsUtf8Next_lt (read : smsUtf8Next s i = some (v, j)) : i < j ∧ j ≤ s.length := by
  obtain ⟨c, -, behind, inside, -⟩ := smsUtf8Next_sound read
  have size := List.length_pos_iff.mpr (String.utf8EncodeChar_ne_nil (c := c))
  omega

theorem smsUtf8Put_char (c : Char) {cap : Nat} (fits : (String.utf8EncodeChar c).length ≤ cap) :
    smsUtf8Put cap c.toNat = String.utf8EncodeChar c := by
  rw [utf8EncodeChar_bits] at fits ⊢
  unfold smsUtf8Put
  split_ifs at fits ⊢
  all_goals
    simp only [List.length_cons, List.length_nil] at fits
    first | omega | rfl

/-- `if (k + 1 >= cap) … w = sms_utf8_put(out + k, cap - 1 - k, c); if (w == 0) …`,
the tail of both decoders; `out` is the text so far. -/
def putChar (cap : Nat) (out : Bytes) (c : Nat) : Except SmsErr Bytes :=
  if cap ≤ out.length + 1 then .error .overflow
  else
    let written := smsUtf8Put (cap - 1 - out.length) c
    if written.length = 0 then .error .overflow else .ok (out ++ written)

theorem putChar_char {cap : Nat} {out : Bytes}
    (fits : (out ++ String.utf8EncodeChar c).length < cap) :
    putChar cap out c.toNat = .ok (out ++ String.utf8EncodeChar c) := by
  have filled := length_utf8EncodeChar_pos c
  rw [List.length_append] at fits
  rw [putChar, if_neg (by omega), smsUtf8Put_char c (by omega)]
  exact if_neg (by omega)

/-! Decoders that put one character after the other: `decode cap units out` reads
`units` and appends to `out`. -/

section Spelling

variable {decode : Nat → Bytes → Bytes → Except SmsErr Bytes}

/-- `unit` stands for the character `c`, whatever follows. -/
structure Spells (decode : Nat → Bytes → Bytes → Except SmsErr Bytes) (unit : Bytes)
    (c : Char) : Prop where
  size : (String.utf8EncodeChar c).length ≤ 3 * unit.length
  reads : ∀ cap rest out, decode cap (unit ++ rest) out =
    putChar cap out c.toNat >>= decode cap rest

structure SpellsText (decode : Nat → Bytes → Bytes → Except SmsErr Bytes)
    (units : Bytes) (chars : List Char) : Prop where
  size : (utf8Text chars).length ≤ 3 * units.length
  reads : ∀ cap out, (out ++ utf8Text chars).length < cap →
    decode cap units out = .ok (out ++ utf8Text chars)

theorem SpellsText.nil (stops : ∀ cap out, decode cap [] out = .ok out) :
    SpellsText decode [] [] := by
  refine ⟨Nat.zero_le _, ?_⟩
  intro cap out fits
  rw [stops, utf8Text_nil, List.append_nil]

theorem SpellsText.cons {unit units : Bytes} {chars : List Char}
    (first : Spells decode unit c) (rest : SpellsText decode units chars) :
    SpellsText decode (unit ++ units) (c :: chars) := by
  constructor
  · have head := first.size
    have tail := rest.size
    rw [utf8Text_cons, List.length_append, List.length_append]
    omega
  · intro cap out fits
    rw [utf8Text_cons, ← List.append_assoc] at fits ⊢
    rw [first.reads, putChar_char]
    · exact rest.reads cap _ fits
    · rw [List.length_append] at fits
      omega

end Spelling

def eachChar (s : Bytes) (body : σ → Nat → Except SmsErr σ) (i : Nat) (state : σ) :
    Except SmsErr σ :=
  if i < s.length then
    match _next : smsUtf8Next s i with
    | none => .error .inval
    | some (c, j) =>
      match body state c with
      | .error e => .error e
      | .ok state => eachChar s body j state
  else .ok state
termination_by s.length - i
decreasing_by
  have behind := smsUtf8Next_lt _next
  omega

theorem eachChar_sound {body : σ → Nat → Except SmsErr σ} {state final : σ} (inside : i ≤ s.length)
    (walk : eachChar s body i state = .ok final) :
    ∃ chars : List Char, s.drop i = utf8Text chars ∧
      chars.foldlM (fun state c => body state c.toNat) state = .ok final := by
  fun_induction eachChar s body i state with
  | case1 i state more next => contradiction
  | case2 i state more c j next e failed => contradiction
  | case3 i state more c j next state' stepped ih =>
    obtain ⟨c, rfl, -, last, text⟩ := smsUtf8Next_sound next
    obtain ⟨chars, rest, fold⟩ := ih last walk
    refine ⟨c :: chars, ?_, ?_⟩
    · rw [text, rest, utf8Text_cons]
    · rw [List.foldlM_cons, stepped]
      exact fold
  | case4 i state done =>
    cases walk
    refine ⟨[], ?_, rfl⟩
    exact List.drop_eq_nil_of_le (Nat.not_lt.mp done)

section Spells

variable {decode : Nat → Bytes → Bytes → Except SmsErr Bytes} {body : σ → Nat → Except SmsErr σ}
variable {state final : σ} (view : σ → Bytes) (kept : σ → Prop)
variable (stops : ∀ cap out, decode cap [] out = .ok out)
variable (appends : ∀ state c next, kept state → body state (Char.toNat c) = .ok next →
  kept next ∧ ∃ unit, view next = view state ++ unit ∧ Spells decode unit c)
variable (initial : kept state)
include stops appends initial

theorem foldlM_spells {chars : List Char}
    (fold : chars.foldlM (fun state c => body state c.toNat) state = .ok final) :
    kept final ∧ ∃ units, view final = view state ++ units ∧ SpellsText decode units chars := by
  induction chars generalizing state with
  | nil =>
    cases fold
    exact ⟨initial, [], (List.append_nil _).symm, .nil stops⟩
  | cons c chars ih =>
    rw [List.foldlM_cons] at fold
    cases step : body state c.toNat with
    | error e =>
      rw [step] at fold
      contradiction
    | ok next =>
      rw [step] at fold
      obtain ⟨keeps, unit, wrote, spells⟩ := appends state c next initial step
      obtain ⟨ends, units, more, rest⟩ := ih keeps fold
      refine ⟨ends, unit ++ units, ?_, .cons spells rest⟩
      rw [more, wrote, List.append_assoc]

/-- An encoder whose every round appends what spells the character appends what
spells the text. `view` are the units written, `kept` is what its rounds keep. -/
theorem eachChar_spells (walk : eachChar s body 0 state = .ok final) :
    kept final ∧ ∃ chars units, s = utf8Text chars ∧ view final = view state ++ units ∧
      SpellsText decode units chars := by
  obtain ⟨chars, text, fold⟩ := eachChar_sound (Nat.zero_le _) walk
  rw [List.drop_zero] at text
  obtain ⟨ends, units, wrote, spells⟩ := foldlM_spells view kept stops appends initial fold
  exact ⟨ends, chars, units, text, wrote, spells⟩

end Spells

end Pro2Call.Sms

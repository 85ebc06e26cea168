import Pro2Call.Json.Describe
import Pro2Call.Json.Utf8

namespace Pro2Call.Json

open Pro2Call.Data

/-! String bodies: the text one stands for, its expansion and the comparison that
makes no copy. -/

def bodyEqLoop (s p : List UInt8) (i : Nat) : Bool :=
  match p with
  | [] => i == s.length
  | c :: tail =>
    match _ : jsonNextChr (c :: tail) with
    | none => false
    | some (chr, rest) =>
      if i + chr.length > s.length ∨ slice s i chr.length ≠ chr then false
      else bodyEqLoop s rest (i + chr.length)
termination_by p.length
decreasing_by exact jsonNextChr_length ‹_›

def jsonBodyEq (body : List UInt8) (esc : Bool) (s : List UInt8) : Bool :=
  if !esc then body == s
  else if body.length < s.length then false
  else bodyEqLoop s body 0

def hexValue (a b c d : UInt8) : Nat := ((hex4 [a, b, c, d]).map Prod.fst).getD 0

/-- The code point of an escape that is no half of a pair: a surrogate alone is
U+FFFD. -/
def loneUnit (unit : Nat) : Nat :=
  if 0xD800 ≤ unit ∧ unit ≤ 0xDFFF then 0xFFFD else unit

/-- The text of a body (RFC 8259, section 7), two escapes that are a surrogate pair
being one character. -/
def JsonBody.text : JsonBody → List UInt8
  | [] => []
  | .plain byte _ :: rest => byte :: JsonBody.text rest
  | .short letter _ :: rest => (shortValue letter).toList ++ JsonBody.text rest
  | .unicode a b c d _ :: .unicode e f g h low :: rest =>
    if (0xD800 ≤ hexValue a b c d ∧ hexValue a b c d ≤ 0xDBFF) ∧
        0xDC00 ≤ hexValue e f g h ∧ hexValue e f g h ≤ 0xDFFF then
      utf8Enc (0x10000 + (hexValue a b c d - 0xD800) * 2 ^ 10 + (hexValue e f g h - 0xDC00)) ++
        JsonBody.text rest
    else utf8Enc (loneUnit (hexValue a b c d)) ++ JsonBody.text (.unicode e f g h low :: rest)
  | .unicode a b c d _ :: rest => utf8Enc (loneUnit (hexValue a b c d)) ++ JsonBody.text rest

/-- The first character of a body: `taken` of its bytes read as `chr`. -/
structure Front (body later : JsonBody) (taken chr : List UInt8) : Prop where
  print : body.print = taken ++ later.print
  text : body.text = chr ++ later.text
  next : jsonNextChr body.print = some (chr, later.print)
  shrinks : chr.length ≤ taken.length
  shorter : later.length < body.length
  kind : (∃ byte, taken = [byte] ∧ chr = [byte]) ∨
    (∀ c ∈ taken, c < 0x80) ∧ ∃ cp, cp.isValidChar ∧ chr = utf8Enc cp

theorem hex4_digits {a b c d : UInt8}
    (hex : ∀ digit ∈ [a, b, c, d], (jsonHex digit).isSome = true) (rest : List UInt8) :
    hex4 (a :: b :: c :: d :: rest) = some (hexValue a b c d, rest) := by
  obtain ⟨i, first⟩ := Option.isSome_iff_exists.mp (hex a (by simp))
  obtain ⟨j, second⟩ := Option.isSome_iff_exists.mp (hex b (by simp))
  obtain ⟨k, third⟩ := Option.isSome_iff_exists.mp (hex c (by simp))
  obtain ⟨l, fourth⟩ := Option.isSome_iff_exists.mp (hex d (by simp))
  simp [hexValue, hex4, first, second, third, fourth]

theorem jsonHex_lt : ∀ c : UInt8, ∀ value ∈ jsonHex c, value < 16 ∧ c < 0x80 :=
  forall_octet (by decide +kernel)

theorem hexValue_lt {a b c d : UInt8}
    (hex : ∀ digit ∈ [a, b, c, d], (jsonHex digit).isSome = true) :
    hexValue a b c d < 0x10000 := by
  have small : ∀ digit ∈ [a, b, c, d], ∃ value < 16, jsonHex digit = some value := by
    intro digit member
    obtain ⟨value, found⟩ := Option.isSome_iff_exists.mp (hex digit member)
    exact ⟨value, (jsonHex_lt digit value found).1, found⟩
  obtain ⟨i, _, first⟩ := small a (by simp)
  obtain ⟨j, _, second⟩ := small b (by simp)
  obtain ⟨k, _, third⟩ := small c (by simp)
  obtain ⟨l, _, fourth⟩ := small d (by simp)
  have value : hexValue a b c d = ((i <<< 4 ||| j) <<< 4 ||| k) <<< 4 ||| l := by
    simp [hexValue, hex4, first, second, third, fourth]
  rw [value, or_low _ 4 (by omega), or_low _ 4 (by omega), or_low _ 4 (by omega)]
  omega

theorem loneUnit_valid (small : unit < 0x10000) : (loneUnit unit).isValidChar := by
  unfold loneUnit Nat.isValidChar
  split <;> omega

theorem jsonNextChr_unicode {a b c d : UInt8}
    (hex : ∀ digit ∈ [a, b, c, d], (jsonHex digit).isSome = true) (rest : List UInt8) :
    jsonNextChr (backslash :: 0x75 :: a :: b :: c :: d :: rest) =
      some (utf8Enc (codePoint (hexValue a b c d) rest).1,
        (codePoint (hexValue a b c d) rest).2) := by
  have notShort : shortValue 0x75 = none := by decide
  simp [jsonNextChr, notShort, hex4_digits hex]

theorem print_unicode_low {a b c d : UInt8}
    (hex : ∀ digit ∈ [a, b, c, d], (jsonHex digit).isSome = true) :
    ∀ byte ∈ (JsonChar.unicode a b c d hex).print, byte < 0x80 := by
  intro byte member
  simp only [JsonChar.print, List.mem_cons, List.not_mem_nil, or_false] at member
  have low : ∀ digit ∈ [a, b, c, d], digit < 0x80 := by
    intro digit member
    obtain ⟨value, found⟩ := Option.isSome_iff_exists.mp (hex digit member)
    exact (jsonHex_lt digit value found).2
  rcases member with rfl | rfl | member
  · decide
  · decide
  · exact low byte (by simpa using member)

theorem front_lone {a b c d : UInt8}
    (hex : ∀ digit ∈ [a, b, c, d], (jsonHex digit).isSome = true) {rest : JsonBody}
    (alone : codePoint (hexValue a b c d) rest.print = (loneUnit (hexValue a b c d), rest.print))
    (text : JsonBody.text (.unicode a b c d hex :: rest) =
      utf8Enc (loneUnit (hexValue a b c d)) ++ rest.text) :
    Front (.unicode a b c d hex :: rest) rest (JsonChar.unicode a b c d hex).print
      (utf8Enc (loneUnit (hexValue a b c d))) where
  print := JsonBody.print_cons _ _
  text := text
  next := by
    refine (jsonNextChr_unicode hex rest.print).trans ?_
    rw [alone]
  shrinks := by
    simp only [JsonChar.print, utf8Enc]
    split_ifs <;> simp
  shorter := Nat.lt_succ_self _
  kind := .inr ⟨print_unicode_low hex, _, loneUnit_valid (hexValue_lt hex), rfl⟩

theorem codePoint_high (lone : lowSurrogate rest = none) :
    codePoint cp rest = (loneUnit cp, rest) := by
  simp only [codePoint, loneUnit, lone]
  split_ifs <;> first | rfl | omega

theorem lowSurrogate_unicode (hex : ∀ digit ∈ [e, f, g, h], (jsonHex digit).isSome = true)
    (rest : JsonBody) :
    lowSurrogate (JsonBody.print (.unicode e f g h hex :: rest)) =
      if 0xDC00 ≤ hexValue e f g h ∧ hexValue e f g h ≤ 0xDFFF then
        some (hexValue e f g h, rest.print) else none := by
  have digits := hex4_digits hex rest.print
  simp only [JsonBody.print_cons, JsonChar.print, List.cons_append, List.nil_append, lowSurrogate,
    and_self, if_true, digits]
  rfl

theorem front_unicode {a b c d : UInt8}
    (hex : ∀ digit ∈ [a, b, c, d], (jsonHex digit).isSome = true) (rest : JsonBody) :
    ∃ later taken chr, Front (.unicode a b c d hex :: rest) later taken chr := by
  match rest with
  | [] => exact ⟨_, _, _, front_lone hex (codePoint_high rfl) rfl⟩
  | .plain byte ordinary :: rest =>
    refine ⟨_, _, _, front_lone hex (codePoint_high ?_) rfl⟩
    have other : byte ≠ backslash := by
      rintro rfl
      contradiction
    rw [JsonBody.print_cons, JsonChar.print]
    cases JsonBody.print rest with
    | nil => rfl
    | cons c text => exact if_neg fun both => other both.1
  | .short letter known :: rest =>
    refine ⟨_, _, _, front_lone hex (codePoint_high (if_neg ?_)) rfl⟩
    rintro ⟨-, rfl⟩
    contradiction
  | .unicode e f g h low :: rest =>
    have behind := lowSurrogate_unicode low rest
    by_cases pair : (0xD800 ≤ hexValue a b c d ∧ hexValue a b c d ≤ 0xDBFF) ∧
        0xDC00 ≤ hexValue e f g h ∧ hexValue e f g h ≤ 0xDFFF
    · rw [if_pos pair.2] at behind
      refine ⟨rest, _, utf8Enc (0x10000 + (hexValue a b c d - 0xD800) * 2 ^ 10 +
        (hexValue e f g h - 0xDC00)), (List.append_assoc _ _ _).symm, ?_, ?_, ?_, ?_, ?_⟩
      · rw [JsonBody.text, if_pos pair]
      · refine (jsonNextChr_unicode hex (JsonBody.print (.unicode e f g h low :: rest))).trans ?_
        simp only [codePoint, if_pos pair.1, behind, Nat.shiftLeft_eq]
      · simp only [JsonChar.print, utf8Enc]
        split_ifs <;> simp
      · exact Nat.lt_succ_of_lt (Nat.lt_succ_self _)
      · refine .inr ⟨?_, _, ?_, rfl⟩
        · intro c member
          rcases List.mem_append.mp member with member | member
          · exact print_unicode_low hex c member
          · exact print_unicode_low low c member
        · unfold Nat.isValidChar
          omega
    · refine ⟨_, _, _, front_lone hex ?_ (by rw [JsonBody.text, if_neg pair])⟩
      by_cases second : 0xDC00 ≤ hexValue e f g h ∧ hexValue e f g h ≤ 0xDFFF
      · rw [codePoint, if_neg fun first => pair ⟨first, second⟩, loneUnit]
        split_ifs <;> first | rfl | omega
      · rw [if_neg second] at behind
        exact codePoint_high behind

theorem exists_front (char : JsonChar) (rest : JsonBody) :
    ∃ later taken chr, Front (char :: rest) later taken chr := by
  cases char with
  | plain byte ordinary =>
    have other : byte ≠ backslash := by
      rintro rfl
      contradiction
    exact ⟨rest, [byte], [byte], rfl, rfl, if_neg other, Nat.le_refl _, Nat.lt_succ_self _,
      .inl ⟨byte, rfl, rfl⟩⟩
  | short letter known =>
    have value : ∀ letter : UInt8, isShortEscape letter = true → letter < 0x80 ∧
        ∃ cp : Fin 128, shortValue letter = some (UInt8.ofNat cp) :=
      forall_octet (by decide +kernel)
    obtain ⟨low, cp, value⟩ := value letter known
    have encoded : utf8Enc cp = [UInt8.ofNat cp] := if_pos cp.isLt
    refine ⟨rest, [backslash, letter], [UInt8.ofNat cp], rfl, ?_, ?_, by simp, by simp,
      .inr ⟨?_, cp, .inl (by omega), encoded.symm⟩⟩
    · rw [JsonBody.text, value]
      rfl
    · simp [JsonChar.print, jsonNextChr, value]
    · simp only [List.mem_cons, List.not_mem_nil, or_false]
      rintro c (rfl | rfl)
      · decide
      · exact low
  | unicode a b c d hex => exact front_unicode hex rest

/-- Induction along the characters of a body, a surrogate pair being one. -/
theorem JsonBody.front_induction {holds : JsonBody → Prop} (nil : holds [])
    (front : ∀ body later taken chr, Front body later taken chr → holds later → holds body)
    (body : JsonBody) : holds body := by
  induction size : body.length using Nat.strongRecOn generalizing body with
  | ind size ih =>
    cases body with
    | nil => exact nil
    | cons char rest =>
      obtain ⟨later, taken, chr, first⟩ := exists_front char rest
      exact front _ _ _ _ first (ih _ (size ▸ first.shorter) later rfl)

theorem JsonBody.length_text_le (body : JsonBody) : body.text.length ≤ body.print.length := by
  induction body using JsonBody.front_induction with
  | nil => exact Nat.le_refl _
  | front body later taken chr first ih =>
    have shrinks := first.shrinks
    rw [first.text, first.print, List.length_append, List.length_append]
    omega

theorem JsonBody.text_plain {body : JsonBody} (plain : body.escaped = false) :
    body.text = body.print := by
  induction body with
  | nil => rfl
  | cons char rest ih =>
    cases char with
    | plain byte ordinary => exact congrArg (byte :: ·) (ih plain)
    | short letter known => cases plain
    | unicode a b c d hex => cases plain

theorem expandLoop_text (body : JsonBody) {out : List UInt8}
    (room : out.length + body.text.length ≤ cap) :
    expandLoop cap body.print out = .ok (out ++ body.text) := by
  induction body using JsonBody.front_induction generalizing out with
  | nil => rw [JsonBody.print_nil, expandLoop, JsonBody.text, List.append_nil]
  | front body later taken chr first ih =>
    rw [first.text, List.length_append] at room
    rw [expandLoop_step first.next (by omega), ih (by rw [List.length_append]; omega),
      first.text, List.append_assoc]

theorem bodyEqLoop_step (read : jsonNextChr p = some (chr, rest)) : bodyEqLoop s p i =
      if i + chr.length > s.length ∨ slice s i chr.length ≠ chr then false
      else bodyEqLoop s rest (i + chr.length) := by
  cases p with
  | nil => cases read
  | cons c tail =>
    rw [bodyEqLoop]
    split
    · rename_i unread
      rw [read] at unread
      cases unread
    · rename_i again
      rw [read] at again
      cases again
      rfl

theorem bodyEqLoop_iff (s : List UInt8) (body : JsonBody) (inside : i ≤ s.length) :
    bodyEqLoop s body.print i = true ↔ body.text = s.drop i := by
  induction body using JsonBody.front_induction generalizing i with
  | nil =>
    rw [JsonBody.print_nil, bodyEqLoop, beq_iff_eq, JsonBody.text, eq_comm (a := []),
      List.drop_eq_nil_iff]
    omega
  | front body later taken chr first ih =>
    rw [bodyEqLoop_step first.next, first.text]
    have parts : slice s i chr.length ++ s.drop (i + chr.length) = s.drop i := by
      rw [slice, ← List.drop_drop, List.take_append_drop]
    split
    · rename_i differs
      refine iff_of_false Bool.false_ne_true ?_
      intro same
      have length := congrArg List.length same
      rw [List.length_append, List.length_drop] at length
      rcases differs with long | differs
      · omega
      · rw [slice, ← same, List.take_left] at differs
        exact differs rfl
    · rename_i agrees
      obtain ⟨fits, same⟩ := not_or.mp agrees
      rw [ih (Nat.not_lt.mp fits), ← parts, not_not.mp same, List.append_cancel_left_eq]

theorem JsonBody.text_run {run rest : List UInt8} (high : ∀ c ∈ run, 0x80 ≤ c) {body : JsonBody}
    (print : body.print = run ++ rest) :
    ∃ later : JsonBody, rest = later.print ∧ body.text = run ++ later.text ∧
      later.length + run.length = body.length := by
  induction run generalizing body with
  | nil => exact ⟨body, print.symm, rfl, rfl⟩
  | cons byte run ih =>
    have head := high byte (by simp)
    cases body with
    | nil => cases print
    | cons char body =>
      cases char with
      | plain own ordinary =>
        obtain ⟨rfl, tail⟩ := List.cons.inj print
        obtain ⟨later, same, text, size⟩ := ih (fun c member => high c (by simp [member])) tail
        refine ⟨later, same, ?_, ?_⟩
        · rw [JsonBody.text, text]
          rfl
        · simp only [List.length_cons]
          omega
      | short letter known =>
        cases (List.cons.inj print).1
        contradiction
      | unicode a b c d hex =>
        cases (List.cons.inj print).1
        contradiction

theorem utf8EncodeChar_high {char : Char} (high : 0x80 ≤ char.toNat) :
    ∀ c ∈ String.utf8EncodeChar char, 0x80 ≤ c := by
  have octet : ∀ digit marker, 128 ≤ marker → digit + marker < 256 →
      0x80 ≤ UInt8.ofNat (digit + marker) := by
    intro digit marker least small
    rw [UInt8.le_iff_toNat_le, UInt8.toNat_ofNat', Nat.mod_eq_of_lt small]
    exact Nat.le_trans least (Nat.le_add_left _ _)
  by_cases two : char.toNat < 0x800
  · rw [utf8EncodeChar_two high two]
    simp only [List.mem_cons, List.not_mem_nil, or_false]
    rintro c (rfl | rfl) <;> exact octet _ _ (by decide) (by omega)
  by_cases three : char.toNat < 0x10000
  · rw [utf8EncodeChar_three (by omega) three]
    simp only [List.mem_cons, List.not_mem_nil, or_false]
    rintro c (rfl | rfl | rfl) <;> exact octet _ _ (by decide) (by omega)
  · rw [utf8EncodeChar_four (by omega)]
    simp only [List.mem_cons, List.not_mem_nil, or_false]
    rintro c (rfl | rfl | rfl | rfl) <;> exact octet _ _ (by decide) (by omega)

theorem jsonUtf8Valid_ascii {run : List UInt8} (low : ∀ c ∈ run, c < 0x80) (rest : List UInt8) :
    jsonUtf8Valid (run ++ rest) = jsonUtf8Valid rest := by
  induction run with
  | nil => rfl
  | cons c run ih =>
    have one : utf8Sequence (c :: (run ++ rest)) = some (run ++ rest) := if_pos (low c (by simp))
    rw [List.cons_append, jsonUtf8Valid_step one]
    exact ih fun c member => low c (by simp [member])

theorem JsonBody.text_valid (body : JsonBody) (valid : jsonUtf8Valid body.print = true) :
    jsonUtf8Valid body.text = true := by
  induction size : body.length using Nat.strongRecOn generalizing body with
  | ind size ih =>
    cases body with
    | nil => exact valid
    | cons char rest =>
      obtain ⟨later, taken, chr, first⟩ := exists_front char rest
      rcases first.kind with ⟨byte, rfl, rfl⟩ | ⟨low, cp, scalar, rfl⟩
      · -- the byte may begin a sequence of several: take all of them
        obtain ⟨chars, printed⟩ := exists_chars valid
        cases chars with
        | nil =>
          rw [first.print] at printed
          cases printed
        | cons own chars =>
          rw [List.flatMap_cons] at printed
          rw [printed, jsonUtf8Valid_encode] at valid
          by_cases ascii : own.toNat < 0x80
          · rw [utf8EncodeChar_one ascii, first.print] at printed
            obtain ⟨rfl, tail⟩ := List.cons.inj printed
            have same : later.print = chars.flatMap String.utf8EncodeChar := tail
            rw [first.text, ← utf8EncodeChar_one ascii, jsonUtf8Valid_encode]
            exact ih _ (size ▸ first.shorter) later (by rw [same]; exact valid) rfl
          · obtain ⟨behind, same, text, shorter⟩ :=
              JsonBody.text_run (utf8EncodeChar_high (Nat.not_lt.mp ascii)) printed
            have filled := length_utf8EncodeChar_pos own
            rw [text, jsonUtf8Valid_encode]
            exact ih _ (by omega) behind (by rw [← same]; exact valid) rfl
      · rw [first.print, jsonUtf8Valid_ascii low] at valid
        rw [first.text, jsonUtf8Valid_utf8Enc scalar]
        exact ih _ (size ▸ first.shorter) later valid rfl

/-- What the escape layer makes of a body whose text is `text`. -/
structure BodyReads (body : List UInt8) (esc : Bool) (text : List UInt8) : Prop where
  expand : ∀ cap, text.length ≤ cap → jsonBodyExpand body esc cap = .ok text
  length_le : text.length ≤ body.length
  utf8 : jsonUtf8Valid body = true → jsonUtf8Valid text = true
  eq_iff : ∀ s, jsonBodyEq body esc s = true ↔ text = s

theorem JsonBody.reads (body : JsonBody) : BodyReads body.print body.escaped body.text := by
  have shrinks := body.length_text_le
  refine ⟨?_, shrinks, body.text_valid, ?_⟩
  · intro cap room
    rw [jsonBodyExpand]
    cases escaped : body.escaped with
    | true => exact expandLoop_text body (by simpa using room)
    | false =>
      rw [JsonBody.text_plain escaped] at room ⊢
      exact if_neg (Nat.not_lt.mpr room)
  · intro s
    rw [jsonBodyEq]
    cases escaped : body.escaped with
    | true =>
      simp only [Bool.not_true, Bool.false_eq_true, if_false]
      split
      · rename_i short
        refine iff_of_false Bool.false_ne_true ?_
        rintro rfl
        omega
      · exact bodyEqLoop_iff s body (Nat.zero_le _)
    | false =>
      rw [JsonBody.text_plain escaped]
      exact beq_iff_eq

section

variable {d : JsonDoc}

theorem Slot.NamedBy.exists_body {slot : Slot obj} {node : JsonNode} (named : slot.NamedBy d node) :
    ∃ body : JsonBody, d.bytes node.key = body.print ∧ node.kesc = body.escaped := by
  cases slot with
  | element gap => exact ⟨[], by rw [named.1]; simp [JsonDoc.bytes, slice], named.2⟩
  | member before key after gap => exact ⟨key, named⟩

theorem Describes.string {value : JsonValue} {node : JsonNode}
    (described : Describes d value idx) (found : d.nodes[idx]? = some node)
    (string : node.type = .str) :
    ∃ body : JsonBody, d.bytes node.raw = body.print ∧ node.esc = body.escaped := by
  obtain ⟨leaf, type, _, esc, text⟩ := described.leaf found (by simp [string]) (by simp [string])
  cases leaf with
  | str body =>
    rw [Json.nodeText, if_pos string] at text
    exact ⟨body, List.append_cancel_right (List.cons.inj text).2, esc⟩
  | _ => exact absurd (type.symm.trans string) (by simp [JsonScalar.type])

mutual

theorem Describes.key : (value : JsonValue) → {idx i : Nat} → Describes d value idx →
    i + 1 < value.size → ∃ node, d.nodes[idx + (i + 1)]? = some node ∧
      ∃ body : JsonBody, d.bytes node.key = body.print ∧ node.kesc = body.escaped
  | .scalar _, _, _, _, inside => absurd inside (by simp [JsonValue.size])
  | .empty _ _, _, _, _, inside => absurd inside (by simp [JsonValue.size])
  | .container _ children, idx, i, described, inside => by
    obtain ⟨_, _, _, _, _, _, below⟩ := described
    have found := DescribesChildren.key children below (Nat.lt_of_succ_lt_succ inside)
    rwa [Nat.add_assoc, Nat.add_comm 1 i] at found

theorem DescribesChildren.key : {obj : Bool} → (children : JsonChildren obj) → {idx i : Nat} →
    DescribesChildren d children idx → i < children.size →
    ∃ node, d.nodes[idx + i]? = some node ∧
      ∃ body : JsonBody, d.bytes node.key = body.print ∧ node.kesc = body.escaped
  | _, .last slot value _, _, 0, described, _ => by
    obtain ⟨_, node, found, named, _⟩ := described
    exact ⟨node, found, named.exists_body⟩
  | _, .last _ value _, _, i + 1, described, inside => Describes.key value described.1 inside
  | _, .more slot value _ rest, idx, i, described, inside => by
    obtain ⟨⟨own, node, found, named, _⟩, later⟩ := described
    by_cases mine : i < value.size
    · cases i with
      | zero => exact ⟨node, found, named.exists_body⟩
      | succ i => exact Describes.key value own mine
    · have found := DescribesChildren.key rest (i := i - value.size) later
        (by simp only [JsonChildren.size] at inside; omega)
      rwa [Nat.add_assoc, Nat.add_sub_cancel' (Nat.not_lt.mp mine)] at found

end

end

/-- Every string of an accepted document, the member names included. -/
theorem jsonParse_bodies (d : JsonDoc) (buf : List UInt8) (after : JsonDoc)
    (accepted : jsonParse d buf = some (after, none)) (node : JsonNode)
    (member : node ∈ after.nodes) :
    (node.type = .str → ∃ text, BodyReads (after.bytes node.raw) node.esc text) ∧
      ∃ text, BodyReads (after.bytes node.key) node.kesc text := by
  obtain ⟨value, -, -, -, ⟨off, nodes⟩, root⟩ := jsonParse_layout accepted
  obtain ⟨idx, inside, found⟩ := exists_idx_of_mem nodes member
  constructor
  · intro string
    obtain ⟨inner, -, described⟩ := root.inner inside
    obtain ⟨body, raw, esc⟩ := described.string found string
    rw [raw, esc]
    exact ⟨_, body.reads⟩
  · have key : ∃ body : JsonBody, after.bytes node.key = body.print ∧ node.kesc = body.escaped := by
      cases idx with
      | zero =>
        obtain ⟨below, shape⟩ := value.nodes_eq {} off 0
        rw [nodes, shape] at found
        cases found
        exact ⟨[], by simp [JsonNode.linked, JsonDoc.bytes, slice], rfl⟩
      | succ idx =>
        obtain ⟨_, same, body⟩ := Describes.key value root inside
        rw [Nat.zero_add] at same
        cases found.symm.trans same
        exact body
    obtain ⟨body, bytes, kesc⟩ := key
    rw [bytes, kesc]
    exact ⟨_, body.reads⟩

/-- A member whose name and value are one escape each, of a code unit and of a line
feed. -/
def escapedText : List UInt8 :=
  [0x7B, 0x22, 0x5C, 0x75, 0x30, 0x30, 0x36, 0x31, 0x22, 0x3A, 0x22, 0x5C, 0x6E, 0x22, 0x7D]

theorem jsonParse_bodies_escaped : ∃ after node, node ∈ after.nodes ∧ node.type = .str ∧
    node.esc = true ∧ node.kesc = true ∧
      jsonParse (jsonDocInit 8) escapedText = some (after, none) ∧
        (∃ text, BodyReads (after.bytes node.raw) true text) ∧
          ∃ text, BodyReads (after.bytes node.key) true text := by
  have facts : (jsonParse (jsonDocInit 8) escapedText).map (fun result =>
      (result.2, result.1.nodes.any fun node => node.type = .str ∧ node.esc ∧ node.kesc)) =
        some (none, true) := by
    decide
  obtain ⟨⟨after, rc⟩, parsed, same⟩ := Option.map_eq_some_iff.mp facts
  obtain ⟨rfl, found⟩ := Prod.mk.inj same
  obtain ⟨node, member, escaped⟩ := List.any_eq_true.mp found
  obtain ⟨string, esc, kesc⟩ := of_decide_eq_true escaped
  obtain ⟨raw, key⟩ := jsonParse_bodies (jsonDocInit 8) escapedText after parsed node member
  exact ⟨after, node, member, string, esc, kesc, parsed, esc ▸ raw string, kesc ▸ key⟩

end Pro2Call.Json

import Pro2Call.Sip.Uri

namespace Pro2Call.Sip

open Pro2Call.Data

def equals : UInt8 := 0x3D

def quote : UInt8 := 0x22

def backslash : UInt8 := 0x5C

def isSkipped (c : UInt8) : Bool := c = semi || sipIsWs c

def notSemi (c : UInt8) : Bool := c ≠ semi

theorem length_dropWhile_lt :
    (((c :: rest).dropWhile isSkipped).dropWhile notSemi).length < (c :: rest).length := by
  have shorter := (List.dropWhile_suffix (l := rest) isSkipped).length_le
  by_cases skipped : isSkipped c = true
  · rw [List.dropWhile_cons_of_pos skipped, List.length_cons]
    have later := (List.dropWhile_suffix (l := rest.dropWhile isSkipped) notSemi).length_le
    omega
  · have kept : notSemi c = true := by
      rw [isSkipped, Bool.or_eq_true, not_or] at skipped
      simpa [notSemi] using skipped.1
    rw [List.dropWhile_cons_of_neg skipped, List.dropWhile_cons_of_pos kept, List.length_cons]
    have later := (List.dropWhile_suffix (l := rest) notSemi).length_le
    omega

def splitParam (piece : Bytes) : Bytes × Bytes :=
  match breakAt equals piece with
  | none => (piece.rdropWhile sipIsWs, [])
  | some (before, value) =>
    (before.rdropWhile sipIsWs, (value.dropWhile sipIsWs).rdropWhile sipIsWs)

def sipParam (params name : Bytes) : Option Bytes :=
  match params with
  | [] => none
  | c :: rest =>
    let p := (c :: rest).dropWhile isSkipped
    let (found, value) := splitParam (p.takeWhile notSemi)
    if sipIeq2 found name then some value else sipParam (p.dropWhile notSemi) name
termination_by params.length
decreasing_by exact length_dropWhile_lt

/-! Parameters as the grammar has them. -/

def isToken (c : UInt8) : Bool := isAlphanum c || (ascii "-.!%*_+\x60'~").contains c

inductive QuotedChar where
  | plain (c : UInt8)
  | pair (c : UInt8)
  deriving DecidableEq, Repr

def QuotedChar.text : QuotedChar → Bytes
  | .plain c => [c]
  | .pair c => [backslash, c]

def QuotedChar.Grammar : QuotedChar → Prop
  | .plain c => c ≠ quote ∧ c ≠ backslash
  | .pair _ => True

instance : (char : QuotedChar) → Decidable char.Grammar
  | .plain _ => inferInstanceAs (Decidable (_ ∧ _))
  | .pair _ => inferInstanceAs (Decidable True)

def quotedText (chars : List QuotedChar) : Bytes := chars.flatMap QuotedChar.text

inductive GenValue where
  | plain (text : Bytes)
  | quoted (chars : List QuotedChar)
  deriving DecidableEq, Repr

def GenValue.text : GenValue → Bytes
  | .plain text => text
  | .quoted chars => quote :: quotedText chars ++ [quote]

def GenValue.Grammar : GenValue → Prop
  | .plain text => text ≠ [] ∧ ∀ c ∈ text, isToken c || (ascii "[]:").contains c
  | .quoted chars => ∀ char ∈ chars, char.Grammar

instance : (v : GenValue) → Decidable v.Grammar
  | .plain _ => inferInstanceAs (Decidable (_ ∧ _))
  | .quoted chars => inferInstanceAs (Decidable (∀ char ∈ chars, _))

def isGap (c : UInt8) : Bool := sipIsWs c || isCrLf c

/-- A parameter with the white space around it; `value` is the white space on
both sides of the sign and the value. -/
structure GenericParam where
  lead : Bytes := []
  name : Bytes
  value : Option (Bytes × Bytes × GenValue) := none
  trail : Bytes := []
  deriving DecidableEq, Repr

def GenericParam.body (p : GenericParam) : Bytes :=
  p.name ++ (p.value.elim [] (fun (left, right, v) => left ++ equals :: (right ++ v.text)) ++
    p.trail)

def GenericParam.text (p : GenericParam) : Bytes := p.lead ++ p.body

def GenericParam.valueText (p : GenericParam) : Bytes := p.value.elim [] fun (_, _, v) => v.text

structure GenericParam.Grammar (p : GenericParam) : Prop where
  name : p.name ≠ [] ∧ ∀ c ∈ p.name, isToken c
  value : ∀ value ∈ p.value, value.2.2.Grammar
  gaps : ∀ gap ∈ p.lead :: p.trail :: p.value.elim [] (fun (left, right, _) => [left, right]),
    ∀ c ∈ gap, isGap c

/-- No semicolon in a quoted string, and no folded line. -/
structure GenericParam.Plain (p : GenericParam) : Prop where
  value : ∀ value ∈ p.value, semi ∉ value.2.2.text
  gaps : ∀ gap ∈ p.lead :: p.trail :: p.value.elim [] (fun (left, right, _) => [left, right]),
    ∀ c ∈ gap, sipIsWs c = true

def paramsText : List GenericParam → Bytes
  | [] => []
  | [p] => p.text
  | p :: rest => p.text ++ semi :: paramsText rest

def GenericParam.Named (p : GenericParam) (name : Bytes) : Prop := p.name.map lower = name.map lower

instance (p : GenericParam) (name : Bytes) : Decidable (p.Named name) :=
  inferInstanceAs (Decidable (_ = _))

def paramValue (params : List GenericParam) (name : Bytes) : Option Bytes :=
  (params.find? (·.Named name)).map GenericParam.valueText

/-- A piece of the text between semicolons, quoted ones or not, has what `sip_ieq2` takes
for the name in front of its equals sign. -/
def Mentions (name text : Bytes) : Prop :=
  ∃ piece ∈ text.splitOn semi,
    sipIeq2 (((piece.dropWhile sipIsWs).takeWhile (· ≠ equals)).rdropWhile sipIsWs) name

instance (name text : Bytes) : Decidable (Mentions name text) :=
  inferInstanceAs (Decidable (∃ piece ∈ text.splitOn semi, _))

def Clear (name : Bytes) : List GenericParam → Prop
  | [] => True
  | p :: rest => if p.Named name then p.Plain else ¬Mentions name p.text ∧ Clear name rest

theorem sipIeq2_token (first : ∀ c ∈ a, isToken c) (second : ∀ c ∈ b, isToken c) :
    sipIeq2 a b = decide (a.map lower = b.map lower) := by
  have folds : ∀ c : UInt8, isToken c → sipLc c = (if lower c = 0x5F then 0x7F else lower c) ∧
      lower c = (if sipLc c = 0x7F then 0x5F else sipLc c) := forall_octet (by decide +kernel)
  have folded (text : Bytes) (token : ∀ c ∈ text, isToken c) :
      text.map sipLc = (text.map lower).map (fun c => if c = 0x5F then 0x7F else c) ∧
        text.map lower = (text.map sipLc).map (fun c => if c = 0x7F then 0x5F else c) := by
    rw [List.map_map, List.map_map]
    exact ⟨List.map_congr_left fun c member => (folds c (token c member)).1,
      List.map_congr_left fun c member => (folds c (token c member)).2⟩
  rw [sipIeq2]
  congr 1
  apply propext
  constructor
  · intro same
    rw [(folded a first).2, same, ← (folded b second).2]
  · intro same
    rw [(folded a first).1, same, ← (folded b second).1]

theorem token_plain (c : UInt8) (token : isToken c || (ascii "[]:").contains c) :
    isSkipped c = false ∧ notSemi c ∧ c ≠ equals ∧ sipIsWs c = false := by
  have apart : outside (ascii ";= \t") c :=
    outside_of_class (p := fun c => isToken c || (ascii "[]:").contains c) (by decide) token
  simp [outside, ascii] at apart
  simp [isSkipped, notSemi, sipIsWs, semi, equals, apart]

theorem blank_plain (c : UInt8) (blank : sipIsWs c) : isSkipped c ∧ notSemi c ∧ c ≠ equals := by
  obtain rfl | rfl := sipIsWs_iff.mp blank <;> decide

theorem GenValue.Grammar.ends {v : GenValue} (grammar : v.Grammar) (rest : Bytes) :
    Stops sipIsWs (v.text ++ rest) ∧ ∀ c ∈ v.text.getLast?, sipIsWs c = false := by
  cases v with
  | plain text =>
    obtain ⟨present, token⟩ := grammar
    obtain ⟨c, text, rfl⟩ := List.exists_cons_of_ne_nil present
    refine ⟨?_, fun d last => (token_plain d (token d (List.mem_of_getLast? last))).2.2.2⟩
    simpa [GenValue.text] using (token_plain c (token c List.mem_cons_self)).2.2.2
  | quoted chars =>
    refine ⟨by simp [GenValue.text, sipIsWs, quote], fun c last => ?_⟩
    rw [GenValue.text, List.getLast?_concat] at last
    cases last
    decide

namespace GenericParam

variable {p : GenericParam} (grammar : p.Grammar) (plain : p.Plain)
include grammar plain

theorem Grammar.splitParam : Sip.splitParam p.body = (p.name, p.valueText) := by
  have token : ∀ c ∈ p.name, c ≠ equals ∧ sipIsWs c = false := fun c member =>
    (token_plain c (Bool.or_eq_true_iff.mpr (.inl (grammar.name.2 c member)))).2.2
  have last : ∀ c ∈ p.name.getLast?, sipIsWs c = false := fun c member =>
    (token c (List.mem_of_getLast? member)).2
  have trail := plain.gaps p.trail (by simp)
  rw [Sip.splitParam, body, valueText]
  cases value : p.value with
  | none =>
    have clean : equals ∉ p.name ++ p.trail := by
      rw [List.mem_append, not_or]
      exact ⟨fun member => (token _ member).1 rfl,
        fun member => (blank_plain _ (trail _ member)).2.2 rfl⟩
    simp only [Option.elim_none, List.nil_append]
    rw [breakAt_eq_none clean]
    dsimp only
    rw [rdropWhile_append_of_last last trail]
  | some parts =>
    obtain ⟨left, right, v⟩ := parts
    have leftBlank := plain.gaps left (by simp [value])
    have rightBlank := plain.gaps right (by simp [value])
    have clean : equals ∉ p.name ++ left := by
      rw [List.mem_append, not_or]
      exact ⟨fun member => (token _ member).1 rfl,
        fun member => (blank_plain _ (leftBlank _ member)).2.2 rfl⟩
    obtain ⟨first, ends⟩ := (grammar.value _ value).ends p.trail
    have shape : p.name ++ (left ++ equals :: (right ++ v.text) ++ p.trail) =
        (p.name ++ left) ++ equals :: (right ++ (v.text ++ p.trail)) := by simp
    simp only [Option.elim_some]
    rw [shape, breakAt_append clean]
    dsimp only
    rw [rdropWhile_append_of_last last leftBlank, dropWhile_append_of_stops rightBlank first,
      rdropWhile_append_of_last ends trail]

theorem Grammar.notSemi_body : ∀ c ∈ p.body, notSemi c = true := by
  have blank (gap : Bytes) (member : gap ∈ p.lead :: p.trail ::
      p.value.elim [] (fun (left, right, _) => [left, right])) : ∀ c ∈ gap, notSemi c = true :=
    fun c inside => (blank_plain c (plain.gaps gap member c inside)).2.1
  have name : ∀ c ∈ p.name, notSemi c = true := fun c member =>
    (token_plain c (Bool.or_eq_true_iff.mpr (.inl (grammar.name.2 c member)))).2.1
  have trail := blank p.trail (by simp)
  rw [body]
  cases value : p.value with
  | none =>
    simp only [Option.elim_none, List.nil_append]
    exact List.forall_mem_append.mpr ⟨name, trail⟩
  | some parts =>
    obtain ⟨left, right, v⟩ := parts
    have inside : ∀ c ∈ v.text, notSemi c = true := by
      intro c member
      have other : c ≠ semi := fun same => plain.value _ value (same ▸ member)
      simpa [notSemi] using other
    simp only [Option.elim_some, List.forall_mem_append, List.forall_mem_cons]
    exact ⟨name, ⟨blank left (by simp [value]), by decide, blank right (by simp [value]), inside⟩,
      trail⟩

theorem Grammar.sipParam_named {name rest : Bytes} (named : p.Named name)
    (token : ∀ c ∈ name, isToken c) (ends : Stops notSemi rest) :
    sipParam (p.text ++ rest) name = some p.valueText := by
  have same : sipIeq2 p.name name := by
    rw [sipIeq2_token grammar.name.2 token]
    exact decide_eq_true named
  obtain ⟨first, others, split⟩ := List.exists_cons_of_ne_nil grammar.name.1
  have lead : ∀ c ∈ p.lead, isSkipped c = true := fun c member =>
    (blank_plain c (plain.gaps p.lead (by simp) c member)).1
  have stops : Stops isSkipped (p.body ++ rest) := by
    have token := grammar.name.2 first (by simp [split])
    simpa [body, split] using (token_plain first (Bool.or_eq_true_iff.mpr (.inl token))).1
  have skipped : (p.text ++ rest).dropWhile isSkipped = p.body ++ rest := by
    rw [text, List.append_assoc]
    exact dropWhile_append_of_stops lead stops
  have body := grammar.notSemi_body plain
  obtain ⟨c, more, whole⟩ : ∃ c more, p.text ++ rest = c :: more := by
    refine List.exists_cons_of_ne_nil fun empty => ?_
    rw [empty] at skipped
    simp [GenericParam.body, split] at skipped
  rw [whole] at skipped ⊢
  rw [sipParam]
  dsimp only
  rw [skipped, takeWhile_append_of_stops body ends, grammar.splitParam plain]
  exact if_pos same

end GenericParam

section Pieces

variable {name : Bytes} (present : name ≠ [])
include present

theorem sipParam_skip (skips : ∀ c ∈ sep, isSkipped c = true) (rest : Bytes) :
    sipParam (sep ++ rest) name = sipParam rest name := by
  cases sep with
  | nil => rfl
  | cons c sep =>
    cases rest with
    | nil =>
      have empty : sipParam [] name = none := by rw [sipParam]
      have gone : (c :: sep).dropWhile isSkipped = [] := List.dropWhile_eq_nil_iff.mpr skips
      have other : sipIeq2 [] name = false := by
        simpa [sipIeq2] using present.symm
      rw [List.append_nil, empty, sipParam]
      simp [gone, splitParam, breakAt, other, empty]
    | cons d rest =>
      have same : (c :: sep ++ d :: rest).dropWhile isSkipped =
          (d :: rest).dropWhile isSkipped := List.dropWhile_append_of_pos skips
      rw [List.cons_append] at same ⊢
      rw [sipParam, sipParam, same]

theorem sipParam_semi (rest : Bytes) : sipParam (semi :: rest) name = sipParam rest name :=
  sipParam_skip present (List.forall_mem_singleton.mpr (by simp [isSkipped])) rest

/-- A piece without semicolon is passed over unless its name is the one asked for. -/
theorem sipParam_piece {piece behind : Bytes} (whole : semi ∉ piece)
    (ends : Stops notSemi behind) (other : sipIeq2 (((piece.dropWhile sipIsWs).takeWhile
      (· ≠ equals)).rdropWhile sipIsWs) name = false) :
    sipParam (piece ++ behind) name = sipParam behind name := by
  have blank : ∀ c ∈ piece.takeWhile sipIsWs, isSkipped c = true := fun c member =>
    (blank_plain c (List.mem_takeWhile_imp member)).1
  have body : ∀ c ∈ piece.dropWhile sipIsWs, notSemi c = true := by
    intro c member
    have other : c ≠ semi := fun same => whole (same ▸ (List.dropWhile_suffix _).mem member)
    simpa [notSemi] using other
  have named (text : Bytes) :
      (splitParam text).1 = (text.takeWhile (· ≠ equals)).rdropWhile sipIsWs := by
    obtain ⟨clean, whole⟩ | ⟨before, after, rfl, clean, broken⟩ := breakAt_cases equals text
    · rw [splitParam, whole, List.takeWhile_eq_self_iff.mpr]
      exact fun c member => decide_eq_true fun same => clean (same ▸ member)
    · rw [splitParam, broken, takeWhile_append_of_stops _ (by simp)]
      exact fun c member => decide_eq_true fun same => clean (same ▸ member)
  rw [← named] at other
  rw [← List.takeWhile_append_dropWhile (p := sipIsWs) (l := piece), List.append_assoc,
    sipParam_skip present blank]
  have first := List.head?_dropWhile_not sipIsWs piece
  cases rest : piece.dropWhile sipIsWs with
  | nil => rfl
  | cons c text =>
    rw [rest] at first body other
    have kept : isSkipped c = false := by
      simpa [isSkipped, notSemi, show sipIsWs c = false from first] using body c List.mem_cons_self
    have stays : (c :: (text ++ behind)).dropWhile isSkipped = c :: text ++ behind :=
      List.dropWhile_cons_of_neg (by simp [kept])
    rw [List.cons_append, sipParam, stays, takeWhile_append_of_stops body ends,
      dropWhile_append_of_stops body ends]
    exact if_neg (ne_true_of_eq_false other)

theorem sipParam_unmentioned {behind : Bytes} (ends : Stops notSemi behind) {text : Bytes}
    (unmentioned : ¬Mentions name text) :
    sipParam (text ++ behind) name = sipParam behind name := by
  have other : ∀ piece ∈ text.splitOn semi, sipIeq2 (((piece.dropWhile sipIsWs).takeWhile
      (· ≠ equals)).rdropWhile sipIsWs) name = false := fun piece member =>
    Bool.not_eq_true _ ▸ fun read => unmentioned ⟨piece, member, read⟩
  have alone {piece : Bytes} (whole : semi ∉ piece) : piece.splitOn semi = [piece] :=
    List.splitOnP_eq_singleton fun c member => by
      simpa using fun same : c = semi => whole (same ▸ member)
  clear unmentioned
  induction size : text.length using Nat.strong_induction_on generalizing text with
  | _ n ih =>
    obtain ⟨whole, _⟩ | ⟨piece, rest, rfl, whole, _⟩ := breakAt_cases semi text
    · exact sipParam_piece present whole ends (other text (by simp [alone whole]))
    · rw [List.splitOn_append_cons_self, alone whole, List.forall_mem_append] at other
      rw [List.append_assoc, List.cons_append, sipParam_piece present whole (by simp [notSemi])
        (other.1 piece (by simp)), sipParam_semi present]
      refine ih rest.length ?_ other.2 rfl
      rw [← size, List.length_append, List.length_cons]
      omega

end Pieces

theorem sipParam_paramsText {name : Bytes} (token : ∀ c ∈ name, isToken c) (present : name ≠ [])
    (grammar : ∀ p ∈ params, p.Grammar) (clear : Clear name params) :
    sipParam (paramsText params) name = paramValue params name := by
  induction params with
  | nil => simp [paramsText, sipParam, paramValue]
  | cons p rest ih =>
    obtain ⟨first, others⟩ := List.forall_mem_cons.mp grammar
    have step {behind : Bytes} (ends : Stops notSemi behind)
        (later : Clear name rest → sipParam behind name = paramValue rest name) :
        sipParam (p.text ++ behind) name = paramValue (p :: rest) name := by
      rw [Clear] at clear
      rw [paramValue, List.find?_cons]
      split at clear
      next named => rw [first.sipParam_named clear named token ends, decide_eq_true named]; rfl
      next other =>
        rw [sipParam_unmentioned present ends clear.1, decide_eq_false other, later clear.2]
        rfl
    cases rest with
    | nil => simpa [paramsText] using step (stops_nil notSemi) (ih others)
    | cons q rest =>
      refine step (by simp [notSemi]) fun clear => ?_
      rw [sipParam_semi present, ih others clear]

end Pro2Call.Sip

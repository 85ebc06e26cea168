import Pro2Call.Data.Keyed
import Mathlib.Data.List.Basic
import Mathlib.Data.List.Induction

namespace Pro2Call.Gtp

open Pro2Call.Data

/-! The generator of the typed message layers: a description of a protocol is
resolved into the model that the templates render from. -/

inductive Protocol where
  | gtp1
  | gtp2
  deriving DecidableEq, Repr

inductive Presence where
  | m
  | c
  | o
  deriving DecidableEq, Repr

/-- One entry of the element registry. A positive `fixedLen` marks a TV
element with that value length. -/
structure IE where
  name : String
  cName : String
  type : UInt16
  fixedLen : Int
  deriving DecidableEq, Repr

structure Row where
  ie : String
  field : String
  presence : Presence
  inst : Int
  deriving DecidableEq, Repr

structure Message where
  name : String
  type : UInt16
  noTeid : Bool
  rows : List Row
  deriving DecidableEq, Repr

structure Spec where
  protocol : Protocol
  ies : List IE
  messages : List Message
  deriving DecidableEq, Repr

def isSpace (c : Char) : Bool :=
  c ∈ ['\t', '\n', '\x0b', '\x0c', '\r', ' ', '\x85', '\xa0', '\u1680', '\u2028',
    '\u2029', '\u202f', '\u205f', '\u3000'] || ('\u2000' ≤ c && c ≤ '\u200a')

def trimSpace (text : List Char) : List Char :=
  ((text.dropWhile isSpace).reverse.dropWhile isSpace).reverse

def cStem (name : List Char) : String :=
  let words := (name.filter (· ≠ '-')).splitOnP (!·.isAlphanum)
  let stem := "_".intercalate
    ((words.filter (· ≠ [])).map fun word => String.ofList (word.map Char.toUpper))
  match stem.toList with
  | c :: _ => if c.isDigit then "_" ++ stem else stem
  | [] => stem

def dropTrailingParen (name : List Char) : List Char :=
  let name := trimSpace name
  if name.getLast? = some ')' then
    let behind := name.length - 1 - name.reverse.idxOf '('
    if '(' ∈ name ∧ 0 < behind then trimSpace (name.take behind) else name
  else name

def deriveCName (name : String) : String := cStem (dropTrailingParen name.toList)

/-- The C reference of an element type: an enumerator of the generated header,
or the raw value. -/
inductive IeRef where
  | enumerator (name : String)
  | raw (value : Nat)
  deriving DecidableEq, Repr

structure Fld where
  ie : IE
  field : String
  ieEnum : IeRef
  m : Bool
  inst : Int
  tv : Bool
  fixedLen : Int
  deriving DecidableEq, Repr

/-- The fields of a message that share one element type: the body of one case
label in the decoder's switch. -/
structure DecCase where
  ieEnum : IeRef
  flds : List Fld
  occVar : String
  deriving DecidableEq, Repr

structure Msg where
  message : Message
  flds : List Fld
  cases : List DecCase
  deriving DecidableEq, Repr

structure TVEntry where
  type : UInt16
  len : Int
  cName : String
  deriving DecidableEq, Repr

structure Model where
  messages : List Msg
  ies : List IE
  tvLen : List TVEntry
  deriving DecidableEq, Repr

def ieEnum (protocol : Protocol) (ie : IE) : IeRef :=
  match protocol with
  | .gtp1 => .enumerator ("GTP1_IE_" ++ ie.cName)
  | .gtp2 => .raw ie.type.toNat

def buildFld (protocol : Protocol) (ies : List IE) (r : Row) : Except String Fld :=
  -- the registry is a map by name: the last entry of a name is the one found
  match ies.reverse.find? fun ie => ie.name = r.ie with
  | none => .error ("field " ++ r.field ++ ": unknown ie " ++ r.ie.quote)
  | some ie => .ok {
      ie := ie
      field := r.field
      ieEnum := ieEnum protocol ie
      m := r.presence = .m
      inst := r.inst
      tv := 0 < ie.fixedLen
      fixedLen := ie.fixedLen }

def addToCase (cases : List DecCase) (f : Fld) : List DecCase :=
  if cases.any fun c => c.ieEnum = f.ieEnum then
    cases.map fun c =>
      if c.ieEnum = f.ieEnum then { c with flds := c.flds ++ [f] } else c
  else cases ++ [{ ieEnum := f.ieEnum, flds := [f], occVar := "" }]

def nameOccVar (c : DecCase) : DecCase :=
  match c.flds with
  | first :: _ :: _ => { c with occVar := "occ_" ++ first.field }
  | _ => c

def buildCases (flds : List Fld) (ordered : Bool) : List DecCase :=
  let cases := flds.foldl addToCase []
  if ordered then cases.map nameOccVar else cases

def buildMsg (protocol : Protocol) (ies : List IE) (im : Message) : Except String Msg :=
  match im.rows.mapM (buildFld protocol ies) with
  | .error text => .error ("message " ++ im.name ++ ": " ++ text)
  | .ok flds => .ok {
      message := im
      flds := flds
      cases := buildCases flds (protocol = .gtp1) }

def withCName (ie : IE) : IE :=
  if ie.cName = "" then { ie with cName := deriveCName ie.name } else ie

def tvEntries (ies : List IE) : List TVEntry :=
  (ies.filter fun ie => 0 < ie.fixedLen && ie.type < 128).map fun ie =>
    ⟨ie.type, ie.fixedLen, ie.cName⟩

def build (spec : Spec) : Except String Model := do
  let registry := spec.ies.map withCName
  let messages ← spec.messages.mapM (buildMsg spec.protocol registry)
  let ies :=
    if spec.protocol = .gtp1 then registry.mergeSort fun a b => a.type ≤ b.type
    else []
  return { messages := messages, ies := ies, tvLen := tvEntries ies }

def missing (flds : List Fld) (present : String → Bool) : Bool :=
  flds.any fun f => f.m && !present f.field

def DecCase.label (c : DecCase) : Option Nat := c.flds.head?.map fun f => f.ie.type.toNat

/-- The case that a switch over an element type enters; `none` is the default
label. -/
def switch (cases : List DecCase) (type : Nat) : Option DecCase :=
  cases.find? fun c => c.label = some type

structure Groups (flds : List Fld) (cases : List DecCase) : Prop where
  distinct : Keyed.Distinct DecCase.ieEnum cases
  flds_eq : ∀ c ∈ cases, c.flds = flds.filter fun f => f.ieEnum = c.ieEnum
  covers : ∀ f ∈ flds, ∃ c ∈ cases, c.ieEnum = f.ieEnum
  occupied : ∀ c ∈ cases, ∃ f ∈ flds, f.ieEnum = c.ieEnum

theorem groups_nil : Groups [] [] := ⟨Keyed.distinct_nil, nofun, nofun, nofun⟩

variable {cases : List DecCase} {flds : List Fld}

theorem addToCase_opens {f : Fld} (fresh : ∀ c ∈ cases, c.ieEnum ≠ f.ieEnum) :
    addToCase cases f = cases ++ [{ ieEnum := f.ieEnum, flds := [f], occVar := "" }] := by
  rw [addToCase, if_neg]
  simpa using fresh

theorem addToCase_joins {f : Fld} (opened : ∃ c ∈ cases, c.ieEnum = f.ieEnum) :
    addToCase cases f = cases.map fun c =>
      if c.ieEnum = f.ieEnum then { c with flds := c.flds ++ [f] } else c := by
  rw [addToCase, if_pos]
  simpa using opened

theorem Groups.addToCase (groups : Groups flds cases) (f : Fld) :
    Groups (flds ++ [f]) (addToCase cases f) := by
  by_cases opened : ∃ c ∈ cases, c.ieEnum = f.ieEnum
  · rw [addToCase_joins opened]
    refine ⟨?_, ?_, ?_, ?_⟩
    · have same : (cases.map fun c => if c.ieEnum = f.ieEnum then
          { c with flds := c.flds ++ [f] } else c).map DecCase.ieEnum =
            cases.map DecCase.ieEnum := by
        rw [List.map_map]
        apply List.map_congr_left
        intro c _
        simp only [Function.comp]
        split <;> rfl
      rw [Keyed.Distinct, same]
      exact groups.distinct
    · intro c member
      obtain ⟨before, beforeMember, rfl⟩ := List.mem_map.mp member
      have grouped := groups.flds_eq before beforeMember
      by_cases joined : before.ieEnum = f.ieEnum
      · simp [joined, grouped]
      · simp [joined, grouped, Ne.symm joined]
    · intro g member
      have known : ∃ c ∈ cases, c.ieEnum = g.ieEnum := by
        rcases List.mem_append.mp member with old | new
        · exact groups.covers g old
        · obtain rfl := List.mem_singleton.mp new
          exact opened
      obtain ⟨c, caseMember, same⟩ := known
      refine ⟨_, List.mem_map_of_mem caseMember, ?_⟩
      split <;> exact same
    · intro c member
      obtain ⟨before, beforeMember, rfl⟩ := List.mem_map.mp member
      obtain ⟨g, old, same⟩ := groups.occupied before beforeMember
      refine ⟨g, List.mem_append_left _ old, ?_⟩
      split <;> exact same
  · have fresh : ∀ c ∈ cases, c.ieEnum ≠ f.ieEnum := by
      intro c member same
      exact opened ⟨c, member, same⟩
    rw [addToCase_opens fresh]
    refine ⟨groups.distinct.append fresh, ?_, ?_, ?_⟩
    · intro c member
      rcases List.mem_append.mp member with old | new
      · have apart := Ne.symm (fresh c old)
        simp [groups.flds_eq c old, apart]
      · obtain rfl := List.mem_singleton.mp new
        have none : flds.filter (fun g => g.ieEnum = f.ieEnum) = [] := by
          rw [List.filter_eq_nil_iff]
          intro g known
          obtain ⟨c, caseMember, same⟩ := groups.covers g known
          simpa [← same] using fresh c caseMember
        simp [none]
    · intro g member
      rcases List.mem_append.mp member with old | new
      · obtain ⟨c, caseMember, same⟩ := groups.covers g old
        exact ⟨c, List.mem_append_left _ caseMember, same⟩
      · obtain rfl := List.mem_singleton.mp new
        exact ⟨_, List.mem_append_right _ (List.mem_singleton.mpr rfl), rfl⟩
    · intro c member
      rcases List.mem_append.mp member with old | new
      · obtain ⟨g, known, same⟩ := groups.occupied c old
        exact ⟨g, List.mem_append_left _ known, same⟩
      · obtain rfl := List.mem_singleton.mp new
        exact ⟨f, List.mem_append_right _ (List.mem_singleton.mpr rfl), rfl⟩

theorem groups_foldl (flds : List Fld) : Groups flds (flds.foldl addToCase []) := by
  induction flds using List.reverseRecOn with
  | nil => exact groups_nil
  | append_singleton flds f ih =>
    rw [List.foldl_append]
    exact ih.addToCase f

@[simp] theorem nameOccVar_ieEnum (c : DecCase) : (nameOccVar c).ieEnum = c.ieEnum := by
  unfold nameOccVar
  split <;> rfl

@[simp] theorem nameOccVar_flds (c : DecCase) : (nameOccVar c).flds = c.flds := by
  unfold nameOccVar
  split <;> rfl

theorem Groups.map_nameOccVar
    (groups : Groups flds cases) : Groups flds (cases.map nameOccVar) := by
  refine ⟨?_, ?_, ?_, ?_⟩
  · rw [Keyed.Distinct, List.map_map]
    have same : DecCase.ieEnum ∘ nameOccVar = DecCase.ieEnum := funext nameOccVar_ieEnum
    rw [same]
    exact groups.distinct
  · intro c member
    obtain ⟨before, beforeMember, rfl⟩ := List.mem_map.mp member
    simpa using groups.flds_eq before beforeMember
  · intro f member
    obtain ⟨c, caseMember, same⟩ := groups.covers f member
    exact ⟨nameOccVar c, List.mem_map_of_mem caseMember, by simpa using same⟩
  · intro c member
    obtain ⟨before, beforeMember, rfl⟩ := List.mem_map.mp member
    simpa using groups.occupied before beforeMember

theorem groups_buildCases (flds : List Fld) (ordered : Bool) :
    Groups flds (buildCases flds ordered) := by
  cases ordered with
  | false => exact groups_foldl flds
  | true => exact (groups_foldl flds).map_nameOccVar

def ofType (flds : List Fld) (type : Nat) : List Fld := flds.filter fun f => f.ie.type.toNat = type

def FaithfulRefs (flds : List Fld) : Prop :=
  ∀ f ∈ flds, ∀ g ∈ flds, f.ieEnum = g.ieEnum ↔ f.ie.type = g.ie.type

theorem Groups.label (groups : Groups flds cases) (faithful : FaithfulRefs flds) {c : DecCase}
    (member : c ∈ cases) {f : Fld} (known : f ∈ flds)
    (same : f.ieEnum = c.ieEnum) :
    c.label = some f.ie.type.toNat ∧ c.flds = ofType flds f.ie.type.toNat := by
  have grouped := groups.flds_eq c member
  have all : ∀ g ∈ flds, g.ieEnum = c.ieEnum ↔ g.ie.type = f.ie.type := by
    intro g gKnown
    rw [← same]
    exact faithful g gKnown f known
  have flds_eq : c.flds = ofType flds f.ie.type.toNat := by
    rw [grouped, ofType]
    apply List.filter_congr
    intro g gKnown
    simp only [all g gKnown, UInt16.toNat_inj]
  refine ⟨?_, flds_eq⟩
  rw [DecCase.label, flds_eq]
  have inside : f ∈ ofType flds f.ie.type.toNat := by simp [ofType, known]
  cases shape : ofType flds f.ie.type.toNat with
  | nil => simp [shape] at inside
  | cons g rest =>
    have first : g ∈ ofType flds f.ie.type.toNat := by simp [shape]
    simpa [ofType] using (List.mem_filter.mp first).2

theorem Groups.switch_some (groups : Groups flds cases) (faithful : FaithfulRefs flds) {type : Nat}
    (entered : switch cases type = some c) :
    c ∈ cases ∧ c.flds = ofType flds type ∧ c.flds ≠ [] := by
  have member : c ∈ cases := List.mem_of_find?_eq_some entered
  have labelled : c.label = some type := by
    simpa using List.find?_some entered
  obtain ⟨f, known, same⟩ := groups.occupied c member
  obtain ⟨label, flds_eq⟩ := groups.label faithful member known same
  obtain rfl : f.ie.type.toNat = type := by simpa [label] using labelled
  refine ⟨member, flds_eq, ?_⟩
  rw [flds_eq]
  exact List.ne_nil_of_mem (by simp [ofType, known] : f ∈ ofType flds _)

theorem Groups.switch_none (groups : Groups flds cases) (faithful : FaithfulRefs flds) {type : Nat}
    (skipped : switch cases type = none) : ofType flds type = [] := by
  rw [ofType, List.filter_eq_nil_iff]
  intro f known
  obtain ⟨c, member, same⟩ := groups.covers f known
  obtain ⟨label, _⟩ := groups.label faithful member known same.symm
  have other := List.find?_eq_none.mp skipped c member
  simpa [label] using other

theorem mapM_ok {f : α → Except ε β} {inputs : List α}
    (mapped : inputs.mapM f = .ok outputs) (member : output ∈ outputs) :
    ∃ input ∈ inputs, f input = .ok output := by
  induction inputs generalizing outputs with
  | nil =>
    simp only [List.mapM_nil, pure, Except.pure, Except.ok.injEq] at mapped
    subst mapped
    cases member
  | cons input inputs ih =>
    simp only [List.mapM_cons, bind, Except.bind] at mapped
    cases head : f input with
    | error text => simp [head] at mapped
    | ok first =>
      cases tail : inputs.mapM f with
      | error text => simp [head, tail] at mapped
      | ok rest =>
        simp only [head, tail, pure, Except.pure, Except.ok.injEq] at mapped
        subst mapped
        rcases List.mem_cons.mp member with rfl | later
        · exact ⟨input, List.mem_cons_self .., head⟩
        · obtain ⟨source, known, made⟩ := ih tail later
          exact ⟨source, List.mem_cons_of_mem _ known, made⟩

structure Generated (spec : Spec) (model : Model) (msg : Msg) : Prop where
  built : build spec = .ok model
  member : msg ∈ model.messages

theorem buildFld_ok {protocol : Protocol} (made : buildFld protocol ies r = .ok f) :
    f.ie ∈ ies ∧ f.ieEnum = ieEnum protocol f.ie ∧
      f.tv = decide (0 < f.ie.fixedLen) ∧ f.fixedLen = f.ie.fixedLen := by
  unfold buildFld at made
  split at made
  · cases made
  · rename_i ie found
    cases made
    refine ⟨?_, rfl, rfl, rfl⟩
    simpa using List.mem_of_find?_eq_some found

theorem build_ok {spec : Spec} {model : Model} (built : build spec = .ok model) :
    spec.messages.mapM (buildMsg spec.protocol (spec.ies.map withCName)) = .ok model.messages ∧
      model.ies = (if spec.protocol = .gtp1 then
        (spec.ies.map withCName).mergeSort fun a b => a.type ≤ b.type
        else []) ∧
      model.tvLen = tvEntries model.ies := by
  simp only [build, bind, Except.bind] at built
  split at built
  · cases built
  · rename_i messages mapped
    cases built
    exact ⟨mapped, rfl, rfl⟩

namespace Generated

variable {spec : Spec} {model : Model} {msg : Msg}

theorem buildMsg (generated : Generated spec model msg) :
    ∃ im ∈ spec.messages, buildMsg spec.protocol (spec.ies.map withCName) im = .ok msg :=
  mapM_ok (build_ok generated.built).1 generated.member

theorem fld (generated : Generated spec model msg) {f : Fld} (member : f ∈ msg.flds) :
    f.ie ∈ spec.ies.map withCName ∧ f.ieEnum = ieEnum spec.protocol f.ie ∧
      f.tv = decide (0 < f.ie.fixedLen) ∧ f.fixedLen = f.ie.fixedLen := by
  obtain ⟨im, _, made⟩ := generated.buildMsg
  unfold Gtp.buildMsg at made
  split at made
  · cases made
  · rename_i flds mapped
    cases made
    obtain ⟨r, _, field⟩ := mapM_ok mapped member
    exact buildFld_ok field

theorem cases_eq (generated : Generated spec model msg) :
    msg.cases = buildCases msg.flds (spec.protocol = .gtp1) := by
  obtain ⟨im, _, made⟩ := generated.buildMsg
  unfold Gtp.buildMsg at made
  split at made
  · cases made
  · cases made
    rfl

theorem groups (generated : Generated spec model msg) : Groups msg.flds msg.cases := by
  rw [generated.cases_eq]
  exact groups_buildCases msg.flds _

end Generated

end Pro2Call.Gtp

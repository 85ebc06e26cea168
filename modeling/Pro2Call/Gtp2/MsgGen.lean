import Pro2Call.Data.Writes
import Pro2Call.Gtp.Gen
import Pro2Call.Gtp2.Wire

namespace Pro2Call.Gtp2

open Pro2Call.Data
open Pro2Call.Task
open Pro2Call.Gtp

/-! The typed message layer that the generator writes for GTPv2: the decoder of
one message, over the fields and cases of the resolved model. -/

structure Gtp2View where
  data : Nat
  len : Nat
  deriving DecidableEq, Repr

/-- A message structure: a field without a view has `data == NULL`. -/
structure MsgStruct where
  teid : UInt32
  sequence : UInt32
  views : String → Option Gtp2View

def viewSet (ie : Gtp2IeView) : Gtp2View := ⟨ie.value, ie.len⟩

def msgHdrParse (buf : Bytes) (messageType : UInt8) (wantTeid : Bool) :
    Except Int (Gtp2Hdr × Nat) :=
  match gtp2HdrDecode buf with
  | .error rc => .error rc
  | .ok (h, hlen) =>
    if h.messageType ≠ messageType then .error gtp2EInval
    else if h.hasTeid ≠ wantTeid then .error gtp2EInval
    else .ok (h, hlen)

/-- The field a case body sets: the only one, or the first of the received
instance. -/
def caseBody (flds : List Fld) (ie : Gtp2IeView) : Option Fld :=
  match flds with
  | [f] => some f
  | flds => flds.find? fun f => (ie.inst.toNat : Int) = f.inst

def decTarget (cases : List DecCase) (ie : Gtp2IeView) : Option String :=
  match switch cases ie.type.toNat with
  | some c => (caseBody c.flds ie).map Fld.field
  | none => none

def decViews (cases : List DecCase) (ies : List Gtp2IeView) : String → Option Gtp2View :=
  ies.foldl (writeTo (decTarget cases) viewSet) fun _ => none

def msgDecode (msg : Msg) (buf : Bytes) (out : MsgStruct) : MsgStruct × Int :=
  match msgHdrParse buf (.ofNat msg.message.type.toNat) (!msg.message.noTeid) with
  | .error rc => (out, rc)
  | .ok (h, hlen) =>
    let views := decViews msg.cases (gtp2Ies buf hlen (h.length.toNat + 4 - hlen))
    let out : MsgStruct := {
      teid := if msg.message.noTeid then 0 else h.teid
      sequence := h.sequence
      views := views }
    if missing msg.flds fun field => (views field).isSome then
      (out, gtp2EMissing)
    else (out, h.length.toNat + 4)

theorem gtp2Ies_value_ge (mem : Bytes) (pos len : Nat) :
    ∀ v ∈ gtp2Ies mem pos len, pos + 4 ≤ v.value := by
  induction len using Nat.strong_induction_on generalizing pos with
  | _ len ih =>
    intro v member
    rw [gtp2Ies] at member
    split at member
    · cases member
    · rename_i first next read
      have value := gtp2IeIterNext_some read
      have shorter := (gtp2IeIterNext_advance read).2
      rcases List.mem_cons.mp member with rfl | later
      · omega
      · have behind := ih _ shorter _ v later
        omega

theorem gtp2Ies_distinct (mem : Bytes) (pos len : Nat) :
    Keyed.Distinct Gtp2IeView.value (gtp2Ies mem pos len) := by
  induction len using Nat.strong_induction_on generalizing pos with
  | _ len ih =>
    rw [gtp2Ies]
    split
    · exact Keyed.distinct_nil
    · rename_i first next read
      have value := gtp2IeIterNext_some read
      have shorter := (gtp2IeIterNext_advance read).2
      rw [Keyed.Distinct, List.map_cons, List.nodup_cons]
      refine ⟨?_, ih _ shorter _⟩
      intro repeated
      obtain ⟨v, later, same⟩ := List.mem_map.mp repeated
      have behind := gtp2Ies_value_ge _ _ _ v later
      omega

def Owns (f : Fld) (ie : Gtp2IeView) : Prop :=
  f.ie.type.toNat = ie.type.toNat ∧ f.inst = ie.inst.toNat

instance (f : Fld) (ie : Gtp2IeView) : Decidable (Owns f ie) := inferInstanceAs (Decidable (_ ∧ _))

def Alone (flds : List Fld) (f : Fld) : Prop := ofType flds f.ie.type.toNat = [f]

instance (flds : List Fld) (f : Fld) : Decidable (Alone flds f) :=
  inferInstanceAs (Decidable (_ = _))

def received (msg : Msg) (buf : Bytes) : List Gtp2IeView :=
  match msgHdrParse buf (.ofNat msg.message.type.toNat) (!msg.message.noTeid) with
  | .error _ => []
  | .ok (h, hlen) => gtp2Ies buf hlen (h.length.toNat + 4 - hlen)

def lastOfType (ies : List Gtp2IeView) (f : Fld) : Option Gtp2IeView :=
  (ies.filter fun ie => ie.type.toNat = f.ie.type.toNat).getLast?

/-- Only elements of its own type and instance fill a field, only they satisfy
the check on a mandatory one, and without the others the decoded message is the
same. -/
structure FillsOwn (msg : Msg) (buf : Bytes) (out : MsgStruct) : Prop where
  filled : ∀ f ∈ msg.flds, ∀ v, (msgDecode msg buf out).1.views f.field = some v →
      ∃ ie ∈ received msg buf, Owns f ie ∧ v = viewSet ie
  mandatory : 0 ≤ (msgDecode msg buf out).2 → ∀ f ∈ msg.flds, f.m = true →
    ∃ ie ∈ received msg buf, Owns f ie
  unchanged : (msgDecode msg buf out).1.views = decViews msg.cases
    ((received msg buf).filter fun ie => ∃ f ∈ msg.flds, Owns f ie)

theorem faithfulRefs_gtp2 {spec : Spec} {msg : Msg}
    (gtp2 : spec.protocol = .gtp2) (generated : Generated spec model msg) :
    FaithfulRefs msg.flds := by
  intro f fMember g gMember
  rw [(generated.fld fMember).2.1, (generated.fld gMember).2.1, gtp2]
  simp [ieEnum, UInt16.toNat_inj]

section Target

variable {msg : Msg}

theorem decTarget_eq (groups : Groups msg.flds msg.cases)
    (faithful : FaithfulRefs msg.flds) (ie : Gtp2IeView) :
    decTarget msg.cases ie = (caseBody (ofType msg.flds ie.type.toNat) ie).map Fld.field := by
  unfold decTarget
  cases entered : switch msg.cases ie.type.toNat with
  | none =>
    rw [groups.switch_none faithful entered]
    rfl
  | some c =>
    rw [← (groups.switch_some faithful entered).2.1]

theorem caseBody_cases {flds : List Fld} (set : caseBody flds ie = some f) :
    flds = [f] ∨ f ∈ flds ∧ f.inst = ie.inst.toNat := by
  unfold caseBody at set
  split at set
  · cases set
    exact .inl rfl
  · have tested : (ie.inst.toNat : Int) = f.inst := by
      simpa using List.find?_some set
    exact .inr ⟨List.mem_of_find?_eq_some set, tested.symm⟩

theorem caseBody_mem {flds : List Fld} (set : caseBody flds ie = some f) : f ∈ flds := by
  rcases caseBody_cases set with only | ⟨inside, _⟩
  · simp [only]
  · exact inside

theorem mem_ofType {flds : List Fld} {type : Nat} :
    f ∈ ofType flds type ↔ f ∈ flds ∧ f.ie.type.toNat = type := by
  simp [ofType]

variable (groups : Groups msg.flds msg.cases) (faithful : FaithfulRefs msg.flds)
  (members : Keyed.Distinct Fld.field msg.flds)

include groups faithful members

theorem decTarget_field (member : f ∈ msg.flds) (hit : decTarget msg.cases ie = some f.field) :
    ie.type.toNat = f.ie.type.toNat ∧ (Alone msg.flds f ∨ Owns f ie) := by
  rw [decTarget_eq groups faithful, Option.map_eq_some_iff] at hit
  obtain ⟨g, set, name⟩ := hit
  obtain ⟨gMember, typed⟩ := mem_ofType.mp (caseBody_mem set)
  obtain rfl := members.eq_of_key gMember member name
  refine ⟨typed.symm, ?_⟩
  rcases caseBody_cases set with only | ⟨_, inst⟩
  · left
    rw [Alone, typed]
    exact only
  · exact .inr ⟨typed, inst⟩

theorem decTarget_alone (alone : Alone msg.flds f) (ie : Gtp2IeView) :
    decTarget msg.cases ie = some f.field ↔ ie.type.toNat = f.ie.type.toNat := by
  have member : f ∈ msg.flds := (mem_ofType.mp (by rw [alone]; simp : f ∈ ofType msg.flds _)).1
  constructor
  · intro hit
    exact (decTarget_field groups faithful members member hit).1
  · intro typed
    rw [decTarget_eq groups faithful, typed, alone]
    rfl

theorem decViews_alone (alone : Alone msg.flds f) (ies : List Gtp2IeView) :
    decViews msg.cases ies f.field = (lastOfType ies f).map viewSet := by
  rw [decViews, foldl_writeTo, lastOfType]
  simp only [decTarget_alone groups faithful members alone]

theorem decViews_some (member : f ∈ msg.flds) (filled : decViews msg.cases ies f.field = some v) :
    ∃ ie ∈ ies, v = viewSet ie ∧ (Owns f ie ∨ Alone msg.flds f ∧ lastOfType ies f = some ie) := by
  by_cases alone : Alone msg.flds f
  · rw [decViews_alone groups faithful members alone, Option.map_eq_some_iff] at filled
    obtain ⟨ie, last, rfl⟩ := filled
    have known := List.mem_of_getLast? last
    exact ⟨ie, (List.mem_filter.mp known).1, rfl, .inr ⟨alone, last⟩⟩
  · rw [decViews, foldl_writeTo, Option.map_eq_some_iff] at filled
    obtain ⟨ie, last, rfl⟩ := filled
    obtain ⟨known, hit⟩ := List.mem_filter.mp (List.mem_of_getLast? last)
    refine ⟨ie, known, rfl, .inl ?_⟩
    have target := decTarget_field groups faithful members member (by simpa using hit)
    exact target.2.resolve_left alone

theorem decViews_filter_owned (own : ∀ f ∈ msg.flds, Alone msg.flds f → ∀ ie,
      lastOfType ies f = some ie → f.inst = ie.inst.toNat) :
    decViews msg.cases ies = decViews msg.cases
      (ies.filter fun ie => ∃ f ∈ msg.flds, Owns f ie) := by
  funext name
  rw [decViews, decViews, foldl_writeTo, foldl_writeTo, List.filter_filter]
  congr 1
  symm
  apply getLast?_filter_and
  intro ie last
  have hit := (List.mem_filter.mp (List.mem_of_getLast? last)).2
  simp only [decide_eq_true_eq] at hit ⊢
  have aimed := hit
  rw [decTarget_eq groups faithful, Option.map_eq_some_iff] at aimed
  obtain ⟨f, set, rfl⟩ := aimed
  have member := (mem_ofType.mp (caseBody_mem set)).1
  refine ⟨f, member, ?_⟩
  obtain ⟨typed, alone | owned⟩ := decTarget_field groups faithful members member hit
  · refine ⟨typed.symm, own f member alone ie ?_⟩
    rw [lastOfType, ← last]
    simp only [decTarget_alone groups faithful members alone]
  · exact owned

end Target

theorem received_of_parsed {msg : Msg} (parsed : msgHdrParse buf (.ofNat msg.message.type.toNat)
      (!msg.message.noTeid) = .ok (h, hlen)) :
    received msg buf = gtp2Ies buf hlen (h.length.toNat + 4 - hlen) := by
  rw [received, parsed]

theorem msgDecode_of_parsed {msg : Msg} (parsed : msgHdrParse buf (.ofNat msg.message.type.toNat)
      (!msg.message.noTeid) = .ok (h, hlen)) (out : MsgStruct) :
    (msgDecode msg buf out).1.views = decViews msg.cases (received msg buf) ∧
      (0 ≤ (msgDecode msg buf out).2 ↔ ∀ f ∈ msg.flds, f.m = true →
          ∃ v, decViews msg.cases (received msg buf) f.field = some v) := by
  rw [received_of_parsed parsed, msgDecode, parsed]
  simp only
  split
  · rename_i lacks
    refine ⟨rfl, by simp [gtp2EMissing], ?_⟩
    intro complete
    simp only [missing, List.any_eq_true, Bool.and_eq_true, Bool.not_eq_true',
      Option.isSome_eq_false_iff, Option.isNone_iff_eq_none] at lacks
    obtain ⟨f, member, mandatory, absent⟩ := lacks
    obtain ⟨v, present⟩ := complete f member mandatory
    simp [absent] at present
  · rename_i complete
    refine ⟨rfl, fun _ f member mandatory => ?_, fun _ => ?_⟩
    · simp only [missing, List.any_eq_true, Bool.and_eq_true,
        Bool.not_eq_true', not_exists, not_and, Bool.not_eq_false] at complete
      exact Option.isSome_iff_exists.mp (complete f member mandatory)
    · simp only
      omega

theorem msgDecode_fillsOwn_iff {spec : Spec} {model : Model} {msg : Msg}
    (gtp2 : spec.protocol = .gtp2) (generated : Generated spec model msg)
    (members : Keyed.Distinct Fld.field msg.flds) {buf : Bytes} {h : Gtp2Hdr}
    {hlen : Nat}
    (parsed : msgHdrParse buf (.ofNat msg.message.type.toNat)
      (!msg.message.noTeid) = .ok (h, hlen)) (out : MsgStruct) :
    FillsOwn msg buf out ↔ ∀ f ∈ msg.flds, Alone msg.flds f → ∀ ie,
        lastOfType (received msg buf) f = some ie → f.inst = ie.inst.toNat := by
  have groups := generated.groups
  have faithful := faithfulRefs_gtp2 gtp2 generated
  obtain ⟨views, accepted⟩ := msgDecode_of_parsed parsed out
  constructor
  · intro fills f member alone ie last
    have filled : (msgDecode msg buf out).1.views f.field = some (viewSet ie) := by
      rw [views, decViews_alone groups faithful members alone, last]
      rfl
    obtain ⟨owned, known, owns, same⟩ := fills.filled f member _ filled
    have lastKnown := (List.mem_filter.mp (List.mem_of_getLast? last)).1
    have distinct : Keyed.Distinct Gtp2IeView.value (received msg buf) := by
      rw [received_of_parsed parsed]
      exact gtp2Ies_distinct _ _ _
    have position : ie.value = owned.value := congrArg Gtp2View.data same
    obtain rfl := distinct.eq_of_key lastKnown known position
    exact owns.2
  · intro own
    have filled : ∀ f ∈ msg.flds, ∀ v, decViews msg.cases (received msg buf) f.field = some v →
          ∃ ie ∈ received msg buf, Owns f ie ∧ v = viewSet ie := by
      intro f member v found
      obtain ⟨ie, known, rfl, owns | ⟨alone, last⟩⟩ :=
        decViews_some groups faithful members member found
      · exact ⟨ie, known, owns, rfl⟩
      · have typed := (List.mem_filter.mp (List.mem_of_getLast? last)).2
        simp only [decide_eq_true_eq] at typed
        exact ⟨ie, known, ⟨typed.symm, own f member alone ie last⟩, rfl⟩
    refine ⟨?_, ?_, ?_⟩
    · rw [views]
      exact filled
    · intro ok f member mandatory
      obtain ⟨v, found⟩ := accepted.mp ok f member mandatory
      obtain ⟨ie, known, owns, _⟩ := filled f member v found
      exact ⟨ie, known, owns⟩
    · rw [views]
      exact decViews_filter_owned groups faithful members own

def echoSpec : Spec where
  protocol := .gtp2
  ies := [⟨"Recovery (Restart Counter)", "RECOVERY", 3, 0⟩]
  messages := [⟨"Echo Request", 1, true, [⟨"Recovery (Restart Counter)", "recovery", .m, 0⟩]⟩]

def echoMsg : Msg where
  message := ⟨"Echo Request", 1, true, [⟨"Recovery (Restart Counter)", "recovery", .m, 0⟩]⟩
  flds := [⟨⟨"Recovery (Restart Counter)", "RECOVERY", 3, 0⟩, "recovery",
    .raw 3, true, 0, false, 0⟩]
  cases := [⟨.raw 3, [⟨⟨"Recovery (Restart Counter)", "RECOVERY", 3, 0⟩,
    "recovery", .raw 3, true, 0, false, 0⟩], ""⟩]

theorem generated_echoMsg : Generated echoSpec ⟨[echoMsg], [], []⟩ echoMsg := ⟨by decide, by decide⟩

def echoRequest (inst : UInt8) : Bytes := [0x40, 1, 0, 9, 0, 0, 1, 0, 3, 0, 1, inst, 7]

def noViews : MsgStruct := ⟨0, 0, fun _ => none⟩

def featuresRows : List Row :=
  [⟨"Recovery", "recovery", .m, 0⟩, ⟨"Sending Node Features", "features", .c, 0⟩]

def featuresSpec : Spec where
  protocol := .gtp2
  ies := [⟨"Recovery", "RECOVERY", 3, 0⟩, ⟨"Sending Node Features", "FEATURES", 152, 0⟩]
  messages := [⟨"Echo Request", 1, true, featuresRows⟩]

def featuresMsg : Msg where
  message := ⟨"Echo Request", 1, true, featuresRows⟩
  flds := [⟨⟨"Recovery", "RECOVERY", 3, 0⟩, "recovery", .raw 3, true, 0, false, 0⟩,
    ⟨⟨"Sending Node Features", "FEATURES", 152, 0⟩, "features", .raw 152, false, 0, false, 0⟩]
  cases := [⟨.raw 3, [⟨⟨"Recovery", "RECOVERY", 3, 0⟩, "recovery", .raw 3, true, 0, false, 0⟩], ""⟩,
    ⟨.raw 152, [⟨⟨"Sending Node Features", "FEATURES", 152, 0⟩, "features", .raw 152, false, 0,
      false, 0⟩], ""⟩]

def featuresRequest : Bytes :=
  [0x40, 1, 0, 19, 0, 0, 1, 0, 3, 0, 1, 5, 9, 3, 0, 1, 0, 7, 152, 0, 1, 0, 2]

theorem msgDecode_fillsOwn_features :
    (msgDecode featuresMsg featuresRequest noViews).1.views "recovery" = some ⟨17, 1⟩ ∧
      FillsOwn featuresMsg featuresRequest noViews := by
  have walk : received featuresMsg featuresRequest =
      [⟨3, 5, 1, 12⟩, ⟨3, 0, 1, 17⟩, ⟨152, 0, 1, 22⟩] := by
    decide +kernel
  have generated : Generated featuresSpec ⟨[featuresMsg], [], []⟩ featuresMsg :=
    ⟨by decide, by decide⟩
  have parsed : msgHdrParse featuresRequest (.ofNat featuresMsg.message.type.toNat)
      (!featuresMsg.message.noTeid) = .ok (⟨2, false, false, false, 1, 19, 0, 1, 0⟩, 8) := by
    decide
  refine ⟨by decide +kernel, (msgDecode_fillsOwn_iff rfl generated
    (by simp [Keyed.Distinct, featuresMsg]) parsed noViews).mpr ?_⟩
  intro f member _ ie last
  rw [walk] at last
  rcases List.mem_cons.mp member with rfl | member
  · cases last
    rfl
  · obtain rfl := List.mem_singleton.mp member
    cases last
    rfl

/-- A Recovery of instance 5 satisfies the check on the mandatory Recovery of
instance 0. -/
theorem msgDecode_echo_other_instance :
    Generated echoSpec ⟨[echoMsg], [], []⟩ echoMsg ∧
      (msgDecode echoMsg (echoRequest 5) noViews).2 = 13 ∧
      (msgDecode echoMsg (echoRequest 5) noViews).1.views "recovery" = some ⟨12, 1⟩ ∧
      (received echoMsg (echoRequest 5)).map (fun ie => (ie.type, ie.inst)) = [(3, 5)] ∧
      ¬ FillsOwn echoMsg (echoRequest 5) noViews := by
  have walk : received echoMsg (echoRequest 5) = [⟨3, 5, 1, 12⟩] := by
    decide +kernel
  refine ⟨generated_echoMsg, by decide +kernel, by decide +kernel, by rw [walk]; rfl, ?_⟩
  intro fills
  obtain ⟨ie, known, owns⟩ := fills.mandatory (by decide +kernel)
    ⟨⟨"Recovery (Restart Counter)", "RECOVERY", 3, 0⟩, "recovery",
      .raw 3, true, 0, false, 0⟩ (by decide) rfl
  rw [walk] at known
  obtain rfl := List.mem_singleton.mp known
  exact absurd owns (by decide)

end Pro2Call.Gtp2

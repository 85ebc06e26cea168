import Pro2Call.Data.Run
import Pro2Call.Sip.Parse

namespace Pro2Call.Sip

open Pro2Call.Data

/-! Which field names are taken for a known header, and which field the length of
the body comes from. -/

def lower (c : UInt8) : UInt8 := if 0x41 ≤ c ∧ c ≤ 0x5A then c + 0x20 else c

def compactForm : SipHdr → Option Bytes
  | .allowEvents => some (ascii "u")
  | .callId => some (ascii "i")
  | .contact => some (ascii "m")
  | .contentEncoding => some (ascii "e")
  | .contentLength => some (ascii "l")
  | .contentType => some (ascii "c")
  | .event => some (ascii "o")
  | .from_ => some (ascii "f")
  | .referTo => some (ascii "r")
  | .referredBy => some (ascii "b")
  | .sessionExpires => some (ascii "x")
  | .subject => some (ascii "s")
  | .supported => some (ascii "k")
  | .to => some (ascii "t")
  | .via => some (ascii "v")
  | _ => none

def Named (name : Bytes) (id : SipHdr) : Prop :=
  id ≠ .other ∧
    (name.map lower = (sipHdrName id).map lower ∨ compactForm id = some (name.map lower))

instance (name : Bytes) (id : SipHdr) : Decidable (Named name id) :=
  inferInstanceAs (Decidable (_ ∧ _))

/-- A carriage return has the bits of the dash but for the one that is set to
fold letters. -/
def undash (c : UInt8) : UInt8 := if c = cr then 0x2D else c

def dashed (name : Bytes) : Bytes := name.map undash

theorem sipHdrFrom_congr {a b : Bytes} (same : a.map sipLc = b.map sipLc) :
    sipHdrFrom a = sipHdrFrom b := by
  have length : a.length = b.length := by simpa using congrArg List.length same
  have head : sipLc (a.headD 0) = sipLc (b.headD 0) := by
    cases a <;> cases b <;> simp_all
  unfold sipHdrFrom sipIeq2
  rw [head, length, same]

def isNameChar (c : UInt8) : Bool := isLetter c || c = 0x2D

theorem sipLc_of_lower : ∀ c : UInt8, isNameChar (lower c) → sipLc c = lower c :=
  forall_octet (by decide +kernel)

theorem sipLc_nameChar {id : SipHdr} (member : r ∈ sipHdrName id) :
    isNameChar (lower r) ∧ sipLc r = lower r := by
  have every : (hdrIds.all fun id => (sipHdrName id).all fun r => isNameChar (lower r)) = true := by
    decide
  have name := List.all_eq_true.mp every id (mem_hdrIds id)
  have nameChar := List.all_eq_true.mp name r member
  exact ⟨nameChar, sipLc_of_lower r nameChar⟩

theorem sipLc_eq_iff (c : UInt8) (plain : isNameChar r) : sipLc c = r ↔ lower (undash c) = r := by
  have folded : ∀ c : UInt8, isNameChar (sipLc c) → lower (undash c) = sipLc c :=
    forall_octet (by decide +kernel)
  have lowered : ∀ c : UInt8, isNameChar (lower (undash c)) → sipLc c = lower (undash c) :=
    forall_octet (by decide +kernel)
  constructor
  · rintro rfl
    exact folded c plain
  · rintro rfl
    exact lowered c plain

theorem map_sipLc_iff {ref : Bytes}
    (plain : ∀ r ∈ ref, isNameChar (lower r) ∧ sipLc r = lower r) (name : Bytes) :
    name.map sipLc = ref.map sipLc ↔ (dashed name).map lower = ref.map lower := by
  induction ref generalizing name with
  | nil => simp [dashed]
  | cons r ref ih =>
    obtain ⟨⟨nameChar, same⟩, others⟩ := List.forall_mem_cons.mp plain
    cases name with
    | nil => simp [dashed]
    | cons c name =>
      have rest := ih others name
      rw [dashed] at rest ⊢
      simp only [List.map_cons, List.cons.injEq, same, sipLc_eq_iff c nameChar, rest]

theorem compactForm_some {id : SipHdr} {text : Bytes} (compact : compactForm id = some text) :
    ∃ c, text = [c] ∧ isLetter c ∧ kHdrCompact c = id := by
  have every : ∀ id ∈ hdrIds, ∀ text ∈ compactForm id,
      text = [text.headD 0] ∧ isLetter (text.headD 0) ∧ kHdrCompact (text.headD 0) = id := by
    decide
  exact ⟨_, every id (mem_hdrIds id) text compact⟩

theorem sipHdrFrom_compact (c : UInt8) {id : SipHdr} (known : id ≠ .other) :
    sipHdrFrom [c] = id ↔ compactForm id = some ((dashed [c]).map lower) := by
  have listed : ∀ c : UInt8, kHdrCompact c ≠ .other → isLetter c ∧
      compactForm (kHdrCompact c) = some [c] := forall_octet (by decide +kernel)
  have step : sipHdrFrom [c] = if isLetter (sipLc c) then kHdrCompact (sipLc c) else .other := rfl
  rw [step]
  constructor
  · intro found
    split at found
    next letter =>
      subst found
      have plain : isNameChar (sipLc c) := Bool.or_eq_true_iff.mpr (.inl letter)
      rw [dashed, List.map_singleton, List.map_singleton, (sipLc_eq_iff c plain).mp rfl]
      exact (listed _ known).2
    next => exact absurd found.symm known
  · intro compact
    obtain ⟨x, text, letter, form⟩ := compactForm_some compact
    have plain : isNameChar x := Bool.or_eq_true_iff.mpr (.inl letter)
    rw [(sipLc_eq_iff c plain).mpr (List.singleton_inj.mp text), if_pos letter, form]

theorem sipIeq2_of_sipHdrFrom {name : Bytes} {id : SipHdr} (known : id ≠ .other)
    (long : name.length ≠ 1) (found : sipHdrFrom name = id) :
    name.map sipLc = (sipHdrName id).map sipLc := by
  unfold sipHdrFrom at found
  dsimp only at found
  rw [if_neg long] at found
  split_ifs at found
  · exact absurd found.symm known
  · exact absurd found.symm known
  · cases search : (hdrBucket (sipLc (name.headD 0))).find? fun id =>
        (sipHdrName id).length = name.length && sipIeq2 name (sipHdrName id) with
    | none =>
      rw [search] at found
      exact absurd found.symm known
    | some hit =>
      rw [search] at found
      cases found
      have same := List.find?_some search
      rw [Bool.and_eq_true] at same
      simpa [sipIeq2] using same.2

theorem sipHdrFrom_iff {id : SipHdr} (known : id ≠ .other) (name : Bytes) :
    sipHdrFrom name = id ↔ Named (dashed name) id := by
  have plain : ∀ r ∈ sipHdrName id, isNameChar (lower r) ∧ sipLc r = lower r := fun _ =>
    sipLc_nameChar
  have full := map_sipLc_iff plain name
  constructor
  · intro found
    by_cases single : name.length = 1
    · obtain ⟨c, rfl⟩ := List.length_eq_one_iff.mp single
      exact ⟨known, .inr ((sipHdrFrom_compact c known).mp found)⟩
    · exact ⟨known, .inl (full.mp (sipIeq2_of_sipHdrFrom known single found))⟩
  · intro named
    obtain ⟨-, whole | compact⟩ := named
    · rw [sipHdrFrom_congr (full.mpr whole), sipHdrFrom_name]
    · obtain ⟨x, text, -⟩ := compactForm_some compact
      have single : name.length = 1 := by simpa [dashed] using congrArg List.length text
      obtain ⟨c, rfl⟩ := List.length_eq_one_iff.mp single
      exact (sipHdrFrom_compact c known).mpr compact

theorem Named.cr_not_mem {name : Bytes} {id : SipHdr} (named : Named name id) : cr ∉ name := by
  intro member
  have folded : cr ∈ name.map lower := List.mem_map.mpr ⟨cr, member, rfl⟩
  obtain ⟨-, whole | compact⟩ := named
  · obtain ⟨r, member, same⟩ := List.mem_map.mp (whole ▸ folded)
    have nameChar := (sipLc_nameChar member).1
    rw [same] at nameChar
    exact absurd nameChar (by decide)
  · obtain ⟨x, text, letter, -⟩ := compactForm_some compact
    rw [text, List.mem_singleton] at folded
    rw [← folded] at letter
    exact absurd letter (by decide)

theorem dashed_eq {name : Bytes} (clear : cr ∉ name) : dashed name = name := by
  have same : ∀ c ∈ name, undash c = c := fun c member =>
    if_neg fun (isCr : c = cr) => clear (isCr ▸ member)
  rw [dashed, List.map_congr_left same, List.map_id']

theorem named_iff_of_dashed {name : Bytes} {id : SipHdr} :
    (Named (dashed name) id → Named name id) ↔ (cr ∈ name → ¬Named (dashed name) id) := by
  constructor
  · intro right member named
    exact (right named).cr_not_mem member
  · intro apart named
    by_cases member : cr ∈ name
    · exact absurd named (apart member)
    · rwa [dashed_eq member] at named

def lengthOf (hdrs : List SipHdrView) : Option Nat :=
  (hdrs.reverse.find? fun h => h.id = .contentLength).bind fun h => sipParseU32 h.value

def LineAt (b text : Bytes) : Prop := ∃ front, b = front ++ lf :: text

/-- A line of the message begins with the name, and what is between it and the first
colon is blank. -/
def Heads (b name : Bytes) : Prop :=
  ∃ gap rest, LineAt b (name ++ (gap ++ colon :: rest)) ∧ colon ∉ name ++ gap ∧
    ∀ c ∈ gap, sipIsWs c = true

theorem LineAt.behind {b text mark rest : Bytes} (line : LineAt b (text ++ (mark ++ rest)))
    (ends : mark = [cr, lf] ∨ mark = [lf]) : LineAt b rest := by
  obtain ⟨front, rfl⟩ := line
  rcases ends with rfl | rfl
  · exact ⟨front ++ lf :: (text ++ [cr]), by simp⟩
  · exact ⟨front ++ lf :: text, by simp⟩

theorem splitLine_mark {p line mark rest : Bytes} (split : splitLine p = some (line, mark, rest)) :
    p = line ++ (mark ++ rest) ∧ (mark = [cr, lf] ∨ mark = [lf]) := by
  obtain ⟨same, -, crlf | ⟨bare, -⟩⟩ := splitLine_some split
  · exact ⟨same, .inl crlf⟩
  · exact ⟨same, .inr bare⟩

theorem foldLines_mark {field mark rest whole after : Bytes}
    (folded : foldLines field mark rest = some (whole, after))
    (ends : mark = [cr, lf] ∨ mark = [lf]) :
    ∃ mark', field ++ (mark ++ rest) = whole ++ (mark' ++ after) ∧
      (mark' = [cr, lf] ∨ mark' = [lf]) := by
  fun_induction foldLines field mark rest with
  | case1 => cases folded
  | case2 field mark rest _ line mark' rest' more ih =>
    obtain ⟨rfl, ends'⟩ := splitLine_mark more
    obtain ⟨last, same, finished⟩ := ih folded ends'
    exact ⟨last, by simpa using same, finished⟩
  | case3 field mark rest _ =>
    cases folded
    exact ⟨mark, rfl, ends⟩

theorem heads_of_breakAt {b field before after behind : Bytes} (line : LineAt b (field ++ behind))
    (split : breakAt colon field = some (before, after)) :
    Heads b (before.rdropWhile sipIsWs) := by
  obtain ⟨rfl, clean⟩ := breakAt_some split
  have whole : before.rdropWhile sipIsWs ++ before.rtakeWhile sipIsWs = before :=
    List.rdropWhile_append_rtakeWhile
  refine ⟨before.rtakeWhile sipIsWs, after ++ behind, ?_, by rwa [whole],
    fun c => List.mem_rtakeWhile_imp⟩
  rw [← List.append_assoc, whole]
  simpa using line

structure Lengths (b : Bytes) (m : SipMsg) : Prop where
  heads : ∀ h ∈ m.hdrs, Heads b h.name
  ids : ∀ h ∈ m.hdrs, h.id = sipHdrFrom h.name
  length : (if m.hasClen then some m.clen else none) = lengthOf m.hdrs

variable {b : Bytes} {m m' : SipMsg}

theorem Lengths.push {name value : Bytes} (lengths : Lengths b m) (head : Heads b name)
    (pushed : pushHdr m name value = .ok m') : Lengths b m' := by
  have heads : ∀ h ∈ m.hdrs ++ [⟨sipHdrFrom name, name, value⟩], Heads b h.name := by
    intro h member
    obtain earlier | rfl := List.mem_append.mp member |>.imp_right List.mem_singleton.mp
    · exact lengths.heads h earlier
    · exact head
  have ids : ∀ h ∈ m.hdrs ++ [⟨sipHdrFrom name, name, value⟩], h.id = sipHdrFrom h.name := by
    intro h member
    obtain earlier | rfl := List.mem_append.mp member |>.imp_right List.mem_singleton.mp
    · exact lengths.ids h earlier
    · rfl
  unfold pushHdr at pushed
  dsimp only at pushed
  split at pushed
  next counts =>
    split at pushed
    · contradiction
    next clen number =>
      cases pushed
      refine ⟨heads, ids, ?_⟩
      simp [lengthOf, counts, number]
  next other =>
    cases pushed
    refine ⟨heads, ids, ?_⟩
    simpa [lengthOf, other] using lengths.length

theorem Lengths.headers (lengths : Lengths b m) (line : LineAt b p)
    (parsed : parseHeaders m p = .ok (m', rest)) : Lengths b m' := by
  fun_induction parseHeaders m p with
  | case1 => cases parsed
  | case2 =>
    cases parsed
    exact lengths
  | case3 => cases parsed
  | case4 => cases parsed
  | case5 m p line mark front split present field after folded next stored ih =>
    obtain ⟨rfl, ends⟩ := splitLine_mark split
    obtain ⟨mark', same, ends'⟩ := foldLines_mark folded ends
    rw [same] at line
    refine ih ?_ (line.behind ends') parsed
    unfold parseField at stored
    split at stored
    · contradiction
    next before after found =>
      dsimp only at stored
      split_ifs at stored
      exact lengths.push (heads_of_breakAt line found) stored

theorem parseStartLine_empty {line : Bytes} (parsed : parseStartLine {} line = .ok m) :
    Lengths b m := by
  have fields : m.hdrs = [] ∧ m.hasClen = false := by
    unfold parseStartLine parseStatus parseRequest at parsed
    dsimp only at parsed
    split at parsed
    · split at parsed
      · contradiction
      split at parsed
      · contradiction
      split at parsed
      · cases parsed
        exact ⟨rfl, rfl⟩
      · split at parsed
        · contradiction
        · cases parsed
          exact ⟨rfl, rfl⟩
    · split at parsed
      · contradiction
      split at parsed
      · contradiction
      split at parsed
      · contradiction
      split at parsed
      · contradiction
      split at parsed
      · contradiction
      · cases parsed
        exact ⟨rfl, rfl⟩
  refine ⟨by simp [fields.1], by simp [fields.1], ?_⟩
  rw [fields.1, fields.2]
  rfl

theorem sipMsgParse_lengths (parsed : sipMsgParse b = .ok (m, n)) : Lengths b m := by
  unfold sipMsgParse at parsed
  split at parsed
  · contradiction
  split at parsed
  · contradiction
  next line mark behind split =>
  obtain ⟨same, ends⟩ := splitLine_mark split
  have lines : LineAt b behind := by
    rw [← List.takeWhile_append_dropWhile (p := isCrLf) (l := b), same]
    rcases ends with rfl | rfl
    · exact ⟨b.takeWhile isCrLf ++ (line ++ [cr]), by simp⟩
    · exact ⟨b.takeWhile isCrLf ++ line, by simp⟩
  obtain ⟨start, first, parsed⟩ := exists_of_bind_ok parsed
  obtain ⟨⟨head, rest⟩, fields, parsed⟩ := exists_of_bind_ok parsed
  have lengths := Lengths.headers (parseStartLine_empty first) lines fields
  dsimp only [takeBody] at parsed
  split_ifs at parsed
  · cases parsed
    exact { lengths with }
  · cases parsed
    exact { lengths with }

/-- A name without a carriage return is taken for a known header exactly when it
is one, and the length of a body comes from such fields alone. -/
theorem sipHdrFrom_named_iff (name : Bytes) :
    ((∀ id, id ≠ .other → (sipHdrFrom name = id ↔ Named name id)) ↔
      ∀ id, cr ∈ name → ¬Named (dashed name) id) ∧
    ∀ b m n, sipMsgParse b = .ok (m, n) → (∀ h ∈ m.hdrs, Heads b h.name) ∧
        (if m.hasClen then some m.clen else none) = lengthOf m.hdrs ∧
        ((∀ h ∈ m.hdrs, h.id = .contentLength → Named h.name .contentLength) ↔
          ∀ h ∈ m.hdrs, cr ∈ h.name → ¬Named (dashed h.name) .contentLength) := by
  constructor
  · constructor
    · intro right id
      refine named_iff_of_dashed.mp fun named => ?_
      exact (right id named.1).mp ((sipHdrFrom_iff named.1 name).mpr named)
    · intro apart id known
      rw [sipHdrFrom_iff known name]
      refine ⟨named_iff_of_dashed.mpr (apart id), fun named => ?_⟩
      rwa [dashed_eq named.cr_not_mem]
  · intro b m n parsed
    have lengths := sipMsgParse_lengths parsed
    refine ⟨lengths.heads, lengths.length, forall₂_congr fun h member => ?_⟩
    rw [lengths.ids h member, sipHdrFrom_iff (by decide), named_iff_of_dashed]

def compactText : Bytes := ascii "OPTIONS sip:a SIP/2.0\r\nL: 1\r\n\r\nd"

theorem sipHdrFrom_named_compact : ∃ m, sipMsgParse compactText = .ok (m, compactText.length) ∧
    ∀ h ∈ m.hdrs, h.id = .contentLength → Named h.name .contentLength := by
  have parsed : sipMsgParse compactText = .ok ({
      isRequest := true
      method := .options
      methodName := ascii "OPTIONS"
      ruri := ascii "sip:a"
      hasClen := true
      clen := 1
      hdrs := [⟨.contentLength, ascii "L", ascii "1"⟩]
      body := ascii "d" }, compactText.length) := by decide +kernel
  exact ⟨_, parsed, ((sipHdrFrom_named_iff (ascii "L")).2 compactText _ _ parsed).2.2.mpr
    (by decide)⟩

/-- The length is taken from a field whose name is not Content-Length. -/
theorem sipMsgParse_length_cr :
    ¬Named (ascii "Content\rLength") .contentLength ∧
      sipMsgParse (ascii "OPTIONS sip:a SIP/2.0\r\nContent\rLength: 1\r\n\r\ndef") = .ok ({
        isRequest := true
        method := .options
        methodName := ascii "OPTIONS"
        ruri := ascii "sip:a"
        hasClen := true
        clen := 1
        hdrs := [⟨.contentLength, ascii "Content\rLength", ascii "1"⟩]
        body := ascii "d" }, 45) := by
  decide +kernel

end Pro2Call.Sip

import Pro2Call.Data.Run
import Pro2Call.Sip.Parse

/-! Messages in a stream: what the parser says about the start of a message, and
about a message with more behind it. -/

namespace Pro2Call.Sip

open Pro2Call.Data

variable {m m' : SipMsg} {p line mark rest field whole after : Bytes}

@[simp] theorem continues_nil : continues [] = false := rfl

theorem continues_append (present : p ≠ []) (more : Bytes) :
    continues (p ++ more) = continues p := by
  cases p with
  | nil => contradiction
  | cons c p => rfl

theorem continues_mark (ends : EndsLine line mark) (rest : Bytes) :
    continues (mark ++ rest) = false := by
  obtain ⟨_, rfl | ⟨rfl, _⟩⟩ := ends <;> rfl

theorem continues_line (split : splitLine p = some (line, mark, rest)) :
    continues line = continues p := by
  obtain ⟨rfl, ends⟩ := splitLine_some split
  cases line with
  | nil => exact (continues_mark ends rest).symm
  | cons c line => rfl

theorem foldLines_stop (stops : continues rest = false) :
    foldLines field mark rest = some (field, rest) := by
  rw [foldLines, if_neg (by rw [stops]; exact Bool.false_ne_true)]

theorem foldLines_open (more : continues rest = true) (split : splitLine rest = none) :
    foldLines field mark rest = none := by
  rw [foldLines, if_pos more]
  split
  · rfl
  next found => cases split.symm.trans found

theorem foldLines_more (more : continues rest = true)
    (split : splitLine rest = some (line, mark', rest')) :
    foldLines field mark rest = foldLines (field ++ mark ++ line) mark' rest' := by
  rw [foldLines, if_pos more]
  split
  next found => cases split.symm.trans found
  next found =>
    cases split.symm.trans found
    rfl

theorem foldLines_spec (folded : foldLines field mark rest = some (whole, after)) :
    ∃ front, rest = front ++ after ∧ continues after = false ∧ ∀ tail, continues tail = false →
        foldLines field mark (front ++ tail) = some (whole, tail) := by
  fun_induction foldLines field mark rest with
  | case1 => cases folded
  | case2 field mark rest more line mark' rest' split ih =>
    obtain ⟨front, rfl, stops, again⟩ := ih folded
    obtain ⟨rfl, ends⟩ := splitLine_some split
    refine ⟨line ++ (mark' ++ front), by simp, stops, ?_⟩
    intro tail quiet
    have present : line ≠ [] := by
      rintro rfl
      rw [List.nil_append, continues_mark ends] at more
      contradiction
    have still : continues (line ++ (mark' ++ front) ++ tail) = true := by
      rw [List.append_assoc, continues_append present]
      rwa [continues_append present] at more
    have again' : splitLine (line ++ (mark' ++ front) ++ tail) =
        some (line, mark', front ++ tail) := by
      simpa using splitLine_append ends (front ++ tail)
    rw [foldLines_more still again']
    exact again tail quiet
  | case3 field mark rest stops =>
    cases folded
    refine ⟨[], rfl, by simpa using stops, ?_⟩
    intro tail quiet
    exact foldLines_stop quiet

theorem foldLines_append (folded : foldLines field mark rest = some (whole, after))
    (present : after ≠ []) (more : Bytes) :
    foldLines field mark (rest ++ more) = some (whole, after ++ more) := by
  obtain ⟨front, rfl, stops, again⟩ := foldLines_spec folded
  rw [List.append_assoc]
  exact again _ (by rwa [continues_append present])

theorem foldLines_front (folded : foldLines field mark rest = some (whole, after)) :
    ∃ tail, whole = field ++ tail := by
  fun_induction foldLines field mark rest with
  | case1 => cases folded
  | case2 field mark rest _ line mark' rest' _ ih =>
    obtain ⟨tail, rfl⟩ := ih folded
    exact ⟨mark ++ line ++ tail, by simp⟩
  | case3 =>
    cases folded
    exact ⟨[], by simp⟩

theorem foldLines_folded (folded : foldLines field mark rest = some (whole, after))
    (more : continues rest = true) : ∃ tail, whole = field ++ (mark ++ tail) := by
  cases split : splitLine rest with
  | none =>
    rw [foldLines_open more split] at folded
    cases folded
  | some parts =>
    obtain ⟨line, mark', rest'⟩ := parts
    rw [foldLines_more more split] at folded
    obtain ⟨tail, rfl⟩ := foldLines_front folded
    exact ⟨line ++ tail, by simp⟩

/-- Where the text is cut short, a field is incomplete, or complete as before,
or it ends with a line that should have been continued. -/
theorem foldLines_cut {more : Bytes}
    (folded : foldLines field mark (rest ++ more) = some (whole, after)) :
    foldLines field mark rest = none ∨
      (∃ after', foldLines field mark rest = some (whole, after') ∧ after = after' ++ more) ∨
      (continues (rest ++ more) = true ∧
        ∃ tail, foldLines field mark rest = some (field ++ tail, [])) := by
  fun_induction foldLines field mark rest with
  | case1 => exact .inl rfl
  | case2 field mark rest goesOn line mark' rest' split ih =>
    have present : rest ≠ [] := by
      rintro rfl
      contradiction
    have still : continues (rest ++ more) = true := by
      rwa [continues_append present]
    rw [foldLines_more still (splitLine_extend split more)] at folded
    rcases ih folded with unfolded | done | ⟨_, tail, ended⟩
    · exact .inl unfolded
    · exact .inr (.inl done)
    · exact .inr (.inr ⟨still, mark ++ line ++ tail, by rw [ended]; simp⟩)
  | case3 field mark rest stops =>
    rw [Bool.not_eq_true] at stops
    by_cases goesOn : continues (rest ++ more) = true
    · have empty : rest = [] := by
        by_contra present
        rw [continues_append present, stops] at goesOn
        contradiction
      exact .inr (.inr ⟨goesOn, [], by simp [empty]⟩)
    · rw [foldLines_stop (by simpa using goesOn)] at folded
      cases folded
      exact .inr (.inl ⟨rest, rfl, rfl⟩)

variable {more : UInt8 → Bool} {text : Bytes}

theorem mem_dropWhile (member : c ∈ text) (other : more c = false) : c ∈ text.dropWhile more := by
  rw [← List.takeWhile_append_dropWhile (p := more) (l := text), List.mem_append] at member
  rcases member with skipped | kept
  · rw [List.mem_takeWhile_imp skipped] at other
    contradiction
  · exact kept

theorem mem_rdropWhile (member : c ∈ text) (other : more c = false) : c ∈ text.rdropWhile more := by
  rw [List.rdropWhile, List.mem_reverse]
  exact mem_dropWhile (List.mem_reverse.mpr member) other

theorem sipParseU32_some {n : Nat} (parsed : sipParseU32 text = some n) :
    text.all isDigit = true := by
  unfold sipParseU32 at parsed
  split at parsed
  · cases parsed
  split at parsed
  · cases parsed
  next digits => simpa using digits

theorem pushHdr_folded {name value : Bytes} (pushed : pushHdr m name value = .ok m')
    (folded : lf ∈ value) : sipHdrFrom name ≠ .contentLength := by
  intro same
  simp only [pushHdr, if_pos same] at pushed
  split at pushed
  · cases pushed
  next parsed =>
    have digits := List.all_eq_true.mp (sipParseU32_some parsed) lf folded
    revert digits
    decide

theorem parseField_cut {tail : Bytes} (first : colon ∈ line) (folded : lf ∈ tail)
    (parsed : parseField m (line ++ tail) = .ok m') (other : Bytes) :
    ∃ m'', parseField m (line ++ other) = .ok m'' := by
  obtain ⟨before, after, rfl, clean⟩ := List.eq_append_cons_of_mem first
  have split (text : Bytes) :
      breakAt colon (before ++ colon :: after ++ text) = some (before, after ++ text) := by
    rw [List.append_assoc]
    exact breakAt_append clean _
  unfold parseField at *
  rw [split] at *
  dsimp only at *
  split at parsed
  · cases parsed
  next named =>
  split at parsed
  · cases parsed
  next room =>
  rw [if_neg named, if_neg room]
  have inside : lf ∈ ((after ++ tail).dropWhile sipIsWs).rdropWhile sipIsWs :=
    mem_rdropWhile (mem_dropWhile (List.mem_append_right _ folded) (by decide)) (by decide)
  simp only [pushHdr, if_neg (pushHdr_folded parsed inside)]
  exact ⟨_, rfl⟩

theorem parseHeaders_short (split : splitLine p = none) : parseHeaders m p = .error .short := by
  rw [parseHeaders]
  split
  · rfl
  next found => cases split.symm.trans found

@[simp] theorem parseHeaders_nil : parseHeaders m [] = .error .short := parseHeaders_short rfl

theorem parseHeaders_empty (split : splitLine p = some ([], mark, rest)) :
    parseHeaders m p = .ok (m, rest) := by
  rw [parseHeaders]
  split
  next found => cases split.symm.trans found
  next found =>
    cases split.symm.trans found
    rfl

theorem parseHeaders_open (split : splitLine p = some (line, mark, rest))
    (present : line ≠ []) (folded : foldLines line mark rest = none) :
    parseHeaders m p = .error .short := by
  rw [parseHeaders]
  split
  next found => cases split.symm.trans found
  next found =>
    cases split.symm.trans found
    rw [if_neg present]
    split
    · rfl
    next complete => cases folded.symm.trans complete

theorem parseHeaders_field (split : splitLine p = some (line, mark, rest))
    (present : line ≠ []) (folded : foldLines line mark rest = some (field, after)) :
    parseHeaders m p = parseField m field >>= fun m => parseHeaders m after := by
  rw [parseHeaders]
  split
  next found => cases split.symm.trans found
  next found =>
    cases split.symm.trans found
    rw [if_neg present]
    split
    next missing => cases folded.symm.trans missing
    next complete =>
      cases folded.symm.trans complete
      cases parseField m field <;> rfl

theorem parseHeaders_append (parsed : parseHeaders m p = .ok (m', rest)) (more : Bytes) :
    parseHeaders m (p ++ more) = .ok (m', rest ++ more) := by
  fun_induction parseHeaders m p with
  | case1 => cases parsed
  | case2 m p mark rest split =>
    cases parsed
    exact parseHeaders_empty (splitLine_extend split more)
  | case3 => cases parsed
  | case4 => cases parsed
  | case5 m p line mark front split present field after folded next stored ih =>
    have goesOn : after ≠ [] := by
      rintro rfl
      rw [parseHeaders_nil] at parsed
      cases parsed
    rw [parseHeaders_field (splitLine_extend split more) present
      (foldLines_append folded goesOn more), stored]
    exact ih parsed

theorem parseHeaders_length (parsed : parseHeaders m p = .ok (m', rest)) :
    rest.length < p.length := by
  fun_induction parseHeaders m p with
  | case1 => cases parsed
  | case2 m p mark rest split =>
    cases parsed
    exact splitLine_length split
  | case3 => cases parsed
  | case4 => cases parsed
  | case5 m p line mark front split present field after folded next stored ih =>
    have shorter := ih parsed
    have folds := foldLines_length folded
    have first := splitLine_length split
    omega

def textLines (text : Bytes) : List Bytes :=
  match _split : splitLine text with
  | none => []
  | some (line, _, rest) => line :: textLines rest
termination_by text.length
decreasing_by exact splitLine_length _split

/-- Up to the empty line, a line that is continued and does not itself continue
another has a colon. -/
def foldsAfterColon : List Bytes → Bool
  | [] => true
  | line :: rest =>
    line = [] || ((!rest.head?.any continues || colon ∈ line) &&
        foldsAfterColon (rest.dropWhile continues))
termination_by lines => lines.length
decreasing_by
  have shorter := (List.dropWhile_suffix (l := rest) continues).length_le
  simp only [List.length_cons]
  omega

def FoldsAfterColon (b : Bytes) : Prop :=
  foldsAfterColon (textLines (b.dropWhile isCrLf)).tail = true

instance (b : Bytes) : Decidable (FoldsAfterColon b) := inferInstanceAs (Decidable (_ = true))

theorem textLines_none (split : splitLine p = none) : textLines p = [] := by
  rw [textLines]
  split
  · rfl
  next found => cases split.symm.trans found

theorem textLines_some (split : splitLine p = some (line, mark, rest)) :
    textLines p = line :: textLines rest := by
  rw [textLines]
  split
  next found => cases split.symm.trans found
  next found =>
    cases split.symm.trans found
    rfl

theorem head_textLines (stops : continues p = false) :
    (textLines p).head?.any continues = false := by
  cases split : splitLine p with
  | none => rw [textLines_none split]; rfl
  | some parts =>
    obtain ⟨line, mark, rest⟩ := parts
    rw [textLines_some split]
    exact (continues_line split).trans stops

theorem textLines_fold (folded : foldLines field mark rest = some (whole, after)) :
    (textLines rest).dropWhile continues = textLines after := by
  fun_induction foldLines field mark rest with
  | case1 => cases folded
  | case2 field mark rest more line mark' rest' split ih =>
    have first : continues line = true := (continues_line split).trans more
    rw [textLines_some split, List.dropWhile_cons_of_pos first, ih folded]
  | case3 field mark rest stops =>
    cases folded
    rw [Bool.not_eq_true] at stops
    have first := head_textLines stops
    cases lines : textLines after with
    | nil => rfl
    | cons line others =>
      rw [lines] at first
      exact List.dropWhile_cons_of_neg (by rw [show continues line = false from first]; simp)

theorem head_textLines_fold (folded : foldLines field mark rest = some (whole, after)) :
    (textLines rest).head?.any continues = continues rest := by
  cases more : continues rest with
  | false => exact head_textLines more
  | true =>
    cases split : splitLine rest with
    | none =>
      rw [foldLines_open more split] at folded
      cases folded
    | some parts =>
      obtain ⟨line, mark', rest'⟩ := parts
      rw [textLines_some split]
      exact (continues_line split).trans more

theorem foldsAfterColon_field (split : splitLine p = some (line, mark, rest))
    (present : line ≠ []) (folded : foldLines line mark rest = some (field, after)) :
    foldsAfterColon (textLines p) = true ↔
      (continues rest = true → colon ∈ line) ∧ foldsAfterColon (textLines after) = true := by
  rw [textLines_some split, foldsAfterColon, head_textLines_fold folded, textLines_fold folded]
  cases continues rest <;> simp [present]

theorem parseHeaders_cut {more : Bytes} (parsed : parseHeaders m (p ++ more) = .ok (m', rest))
    (folds : foldsAfterColon (textLines (p ++ more)) = true) :
    parseHeaders m p = .error .short ∨
      ∃ rest', parseHeaders m p = .ok (m', rest') ∧ rest = rest' ++ more := by
  induction size : p.length using Nat.strong_induction_on generalizing m p with
  | _ size ih =>
  cases split : splitLine p with
  | none => exact .inl (parseHeaders_short split)
  | some parts =>
  obtain ⟨line, mark, front⟩ := parts
  have longer := splitLine_extend split more
  by_cases present : line = []
  · subst present
    rw [parseHeaders_empty longer] at parsed
    cases parsed
    exact .inr ⟨front, parseHeaders_empty split, rfl⟩
  cases complete : foldLines line mark (front ++ more) with
  | none =>
    rw [parseHeaders_open longer present complete] at parsed
    cases parsed
  | some parts =>
  obtain ⟨field, after⟩ := parts
  rw [parseHeaders_field longer present complete] at parsed
  obtain ⟨next, stored, parsed⟩ := exists_of_bind_ok parsed
  obtain ⟨first, folds⟩ := (foldsAfterColon_field longer present complete).mp folds
  rcases foldLines_cut complete with opened | ⟨after', folded, rfl⟩ | ⟨goesOn, tail, folded⟩
  · exact .inl (parseHeaders_open split present opened)
  · have shorter := (foldLines_length folded).trans_lt (splitLine_length split)
    rw [parseHeaders_field split present folded, stored]
    exact ih after'.length (size ▸ shorter) parsed folds rfl
  · obtain ⟨others, rfl⟩ := foldLines_folded complete goesOn
    have ends := (splitLine_some split).2
    have inside : lf ∈ mark ++ others := by
      apply List.mem_append_left
      obtain ⟨_, rfl | ⟨rfl, _⟩⟩ := ends <;> decide
    obtain ⟨m'', partly⟩ := parseField_cut (first goesOn) inside stored tail
    rw [parseHeaders_field split present folded, partly]
    exact .inl parseHeaders_nil

theorem parseHeaders_refused (parsed : parseHeaders m p = .ok (m', rest))
    (folds : foldsAfterColon (textLines p) = false) :
    ∃ front more, p = front ++ more ∧ rest.length < more.length ∧
      parseHeaders m front = .error .header := by
  fun_induction parseHeaders m p with
  | case1 => cases parsed
  | case2 m p mark rest split =>
    rw [textLines_some split, foldsAfterColon] at folds
    simp at folds
  | case3 => cases parsed
  | case4 => cases parsed
  | case5 m p line mark back split present field after folded next stored ih =>
    obtain ⟨rfl, ends⟩ := splitLine_some split
    have shorter := parseHeaders_length parsed
    have step := foldsAfterColon_field split present folded
    by_cases first : continues back = true → colon ∈ line
    · obtain ⟨front, more, rfl, long, refused⟩ := ih parsed (by
        rw [← Bool.not_eq_true]
        intro later
        rw [step.mpr ⟨first, later⟩] at folds
        contradiction)
      obtain ⟨inner, rfl, stops, again⟩ := foldLines_spec folded
      have goesOn : front ≠ [] := by
        rintro rfl
        rw [parseHeaders_nil] at refused
        cases refused
      rw [continues_append goesOn] at stops
      refine ⟨line ++ (mark ++ (inner ++ front)), more, by simp, long, ?_⟩
      rw [parseHeaders_field (splitLine_append ends _) present (again front stops), stored]
      exact refused
    · rw [Classical.not_imp] at first
      have folds := foldLines_length folded
      refine ⟨line ++ mark, back, by simp, by omega, ?_⟩
      have alone : splitLine (line ++ mark) = some (line, mark, []) := by
        simpa using splitLine_append ends []
      rw [parseHeaders_field alone present (foldLines_stop continues_nil), parseField,
        breakAt_eq_none first.2]
      rfl

section Message

variable {b : Bytes} {n : Nat}

theorem dropWhile_append_of_ne_nil (present : text.dropWhile more ≠ []) (tail : Bytes) :
    (text ++ tail).dropWhile more = text.dropWhile more ++ tail := by
  rw [List.dropWhile_append, if_neg (by simpa using present)]

theorem dropWhile_append_of_lt {tail : Bytes}
    (long : tail.length < ((text ++ tail).dropWhile more).length) :
    (text ++ tail).dropWhile more = text.dropWhile more ++ tail := by
  apply dropWhile_append_of_ne_nil
  intro empty
  rw [List.dropWhile_append, if_pos (by simp [empty])] at long
  exact absurd (List.dropWhile_suffix (l := tail) more).length_le (by omega)

theorem sipMsgParse_short (fits : b.length ≤ intMax)
    (split : splitLine (b.dropWhile isCrLf) = none) : sipMsgParse b = .error .short := by
  rw [sipMsgParse, if_neg (by omega), split]

theorem sipMsgParse_line (fits : b.length ≤ intMax)
    (split : splitLine (b.dropWhile isCrLf) = some (line, mark, rest)) :
    sipMsgParse b = (do
      let m ← parseStartLine {} line
      let (m, rest) ← parseHeaders m rest
      takeBody m b.length rest) := by
  rw [sipMsgParse, if_neg (by omega), split]

theorem sipMsgParse_head {start head : SipMsg} (fits : b.length ≤ intMax)
    (split : splitLine (b.dropWhile isCrLf) = some (line, mark, back))
    (first : parseStartLine {} line = .ok start)
    (fields : parseHeaders start back = .ok (head, rest)) :
    sipMsgParse b = takeBody head b.length rest := by
  rw [sipMsgParse_line fits split, first]
  change (parseHeaders start back >>= _) = _
  rw [fields]
  rfl

theorem sipMsgParse_ok (parsed : sipMsgParse b = .ok (m, n)) (counted : m.hasClen = true) :
    b.length ≤ intMax ∧ ∃ line mark back start head rest,
      splitLine (b.dropWhile isCrLf) = some (line, mark, back) ∧
      parseStartLine {} line = .ok start ∧ parseHeaders start back = .ok (head, rest) ∧
      head.hasClen = true ∧ head.clen ≤ rest.length ∧
      m = { head with body := rest.take head.clen } ∧
      n = b.length - rest.length + head.clen := by
  have fits : b.length ≤ intMax := by
    by_contra long
    rw [sipMsgParse, if_pos (by omega)] at parsed
    cases parsed
  refine ⟨fits, ?_⟩
  cases split : splitLine (b.dropWhile isCrLf) with
  | none =>
    rw [sipMsgParse_short fits split] at parsed
    cases parsed
  | some parts =>
    obtain ⟨line, mark, back⟩ := parts
    rw [sipMsgParse_line fits split] at parsed
    obtain ⟨start, first, parsed⟩ := exists_of_bind_ok parsed
    obtain ⟨⟨head, rest⟩, fields, parsed⟩ := exists_of_bind_ok parsed
    dsimp only [takeBody] at parsed
    split at parsed
    next has =>
      split at parsed
      · cases parsed
      next enough =>
        cases parsed
        exact ⟨line, mark, back, start, head, rest, rfl, first, fields, has, by omega, rfl, rfl⟩
    next has =>
      cases parsed
      exact absurd counted has

theorem length_back (split : splitLine (b.dropWhile isCrLf) = some (line, mark, p))
    (parsed : parseHeaders m p = .ok (m', rest)) : rest.length < b.length := by
  have fields := parseHeaders_length parsed
  have first := splitLine_length split
  have lead := (List.dropWhile_suffix (l := b) isCrLf).length_le
  omega

def optionsText : Bytes :=
  ascii "OPTIONS sip:a SIP/2.0\r\nSubject: b\r\n c\r\nContent-Length: 1\r\n\r\nd"

def optionsMsg : SipMsg where
  isRequest := true
  method := .options
  methodName := ascii "OPTIONS"
  ruri := ascii "sip:a"
  hasClen := true
  clen := 1
  hdrs :=
    [⟨.subject, ascii "Subject", ascii "b\r\n c"⟩,
      ⟨.contentLength, ascii "Content-Length", ascii "1"⟩]
  body := ascii "d"

theorem optionsText_parsed : sipMsgParse optionsText = .ok (optionsMsg, 61) := by
  decide +kernel

/-- An accepted message with Content-Length is the same one whatever follows it
in the buffer. -/
theorem sipMsgParse_append (parsed : sipMsgParse b = .ok (m, n)) (counted : m.hasClen = true)
    {x : Bytes} (fits : b.length + x.length ≤ intMax) :
    sipMsgParse (b ++ x) = .ok (m, n) := by
  obtain ⟨_, line, mark, back, start, head, rest, split, first, fields, has, enough, rfl, rfl⟩ :=
    sipMsgParse_ok parsed counted
  have present : b.dropWhile isCrLf ≠ [] := by
    intro empty
    rw [empty] at split
    cases split
  have longer : splitLine ((b ++ x).dropWhile isCrLf) = some (line, mark, back ++ x) := by
    rw [dropWhile_append_of_ne_nil present]
    exact splitLine_extend split x
  have inside := length_back split fields
  rw [sipMsgParse_head (by rwa [List.length_append]) longer first (parseHeaders_append fields x),
    takeBody, if_pos has, if_neg (by rw [List.length_append]; omega),
    List.take_append_of_le_length enough, List.length_append, List.length_append,
    Nat.add_sub_add_right]

theorem sipMsgParse_append_options :
    sipMsgParse optionsText = .ok (optionsMsg, 61) ∧
      sipMsgParse (optionsText ++ ascii "ACK") = .ok (optionsMsg, 61) := by
  refine ⟨optionsText_parsed, ?_⟩
  exact sipMsgParse_append optionsText_parsed rfl (by decide)

/-- With enough behind it, the buffer is longer than the parser takes. -/
theorem sipMsgParse_append_long :
    sipMsgParse optionsText = .ok (optionsMsg, 61) ∧
      ∃ x, sipMsgParse (optionsText ++ x) = .error .inval := by
  refine ⟨optionsText_parsed, List.replicate intMax 0, ?_⟩
  have first : optionsText.length = 61 := by decide
  rw [sipMsgParse, if_pos (by rw [List.length_append, first, List.length_replicate]; omega)]

/-- The start of a message is incomplete to the parser exactly when no header
field of the message is folded before its colon. -/
theorem sipMsgParse_start_iff (parsed : sipMsgParse b = .ok (m, n)) (counted : m.hasClen = true) :
    (∀ q, q <+: b.take n → q ≠ b.take n → sipMsgParse q = .error .short) ↔ FoldsAfterColon b := by
  obtain ⟨fits, line, mark, back, start, head, rest, split, first, fields, has, enough, rfl, rfl⟩ :=
    sipMsgParse_ok parsed counted
  have inside := length_back split fields
  have lines : (textLines (b.dropWhile isCrLf)).tail = textLines back := by
    rw [textLines_some split, List.tail_cons]
  rw [FoldsAfterColon, lines]
  constructor
  · intro every
    rw [← Bool.not_eq_false]
    intro folds
    obtain ⟨front, more, rfl, long, refused⟩ := parseHeaders_refused fields folds
    obtain ⟨text, ends⟩ := splitLine_some split
    have whole : b = b.takeWhile isCrLf ++ (line ++ (mark ++ front)) ++ more := by
      nth_rewrite 1 [← List.takeWhile_append_dropWhile (p := isCrLf) (l := b), text]
      simp
    generalize b.takeWhile isCrLf ++ (line ++ (mark ++ front)) = q at whole
    subst whole
    rw [List.length_append] at *
    have again : splitLine (q.dropWhile isCrLf) = some (line, mark, front) := by
      have longer := ends.mark_length
      rw [dropWhile_append_of_lt (by rw [text]; simp; omega)] at text
      have same : q.dropWhile isCrLf = line ++ (mark ++ front) :=
        List.append_cancel_right (text.trans (by simp))
      rw [same]
      exact splitLine_append ends front
    have short := every q (List.prefix_take_iff.mpr ⟨List.prefix_append q more, by omega⟩)
      (fun same => by
        have lengths := congrArg List.length same
        rw [List.length_take, List.length_append] at lengths
        omega)
    rw [sipMsgParse_line (by omega) again, first] at short
    change (parseHeaders start front >>= _) = _ at short
    rw [refused] at short
    cases short
  · intro folds q before strict
    have smaller := before.length_le
    rw [List.prefix_take_iff] at before
    obtain ⟨⟨x, rfl⟩, within⟩ := before
    have lower : q.length < (q ++ x).length - rest.length + head.clen := by
      apply lt_of_le_of_ne within
      intro same
      apply strict
      rw [← same, List.take_left]
    rw [List.length_append] at *
    by_cases present : q.dropWhile isCrLf = []
    · exact sipMsgParse_short (by omega) (by rw [present]; rfl)
    cases cut : splitLine (q.dropWhile isCrLf) with
    | none => exact sipMsgParse_short (by omega) cut
    | some parts =>
    obtain ⟨line', mark', back'⟩ := parts
    have longer := splitLine_extend cut x
    rw [← dropWhile_append_of_ne_nil present] at longer
    cases longer.symm.trans split
    rw [sipMsgParse_line (by omega) cut, first]
    change (parseHeaders start back' >>= _) = _
    rcases parseHeaders_cut fields folds with short | ⟨rest', complete, rfl⟩
    · rw [short]
      rfl
    · rw [complete]
      rw [List.length_append] at *
      change takeBody head q.length rest' = _
      rw [takeBody, if_pos has, if_pos (by omega)]

theorem sipMsgParse_start_options :
    sipMsgParse optionsText = .ok (optionsMsg, 61) ∧ FoldsAfterColon optionsText ∧
      sipMsgParse (optionsText.take 35) = .error .short := by
  have folds : FoldsAfterColon optionsText := by decide +kernel
  have short := (sipMsgParse_start_iff optionsText_parsed rfl).mpr folds
  exact ⟨optionsText_parsed, folds, short _ (by decide) (by decide)⟩

def inviteText : Bytes := ascii "INVITE sip:a SIP/2.0\r\nX\r\n :v\r\nContent-Length: 0\r\n\r\n"

theorem sipMsgParse_start_refused :
    (∃ m, sipMsgParse inviteText = .ok (m, 51) ∧ m.hasClen = true) ∧
      sipMsgParse (inviteText.take 25) = .error .header := by
  refine ⟨⟨{ isRequest := true
             method := .invite
             methodName := ascii "INVITE"
             ruri := ascii "sip:a"
             hasClen := true
             hdrs := [⟨.other, ascii "X\r\n", ascii "v"⟩,
               ⟨.contentLength, ascii "Content-Length", ascii "0"⟩] }, ?_, rfl⟩, ?_⟩
  · decide +kernel
  · decide +kernel

end Message

end Pro2Call.Sip

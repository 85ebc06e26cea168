import Pro2Call.Sip.Write

namespace Pro2Call.Sip

open Pro2Call.Data

def StartLine.Plain : StartLine → Prop
  | .request _ uri => ∀ c ∈ uri, c ≠ space ∧ c ≠ cr ∧ c ≠ lf
  | .status _ reason => ∀ text ∈ reason, ∀ c ∈ text, c ≠ cr ∧ c ≠ lf

structure HdrCall.Plain (h : HdrCall) : Prop where
  name : ∀ c ∈ h.name, c ≠ colon ∧ sipIsWs c = false ∧ c ≠ cr ∧ c ≠ lf
  other : sipHdrFrom h.name ≠ .contentLength
  value : ∀ c ∈ h.value, c ≠ cr ∧ c ≠ lf
  first : ∀ c ∈ h.value.head?, sipIsWs c = false
  last : ∀ c ∈ h.value.getLast?, sipIsWs c = false

def StartLine.msg : StartLine → SipMsg
  | .request m uri =>
    { isRequest := true
      method := m
      methodName := sipMethodName m
      ruri := uri }
  | .status code reason =>
    { status := code
      reason := reason.getD (sipStatusPhrase code) }

def clenView (body : Bytes) : SipHdrView :=
  ⟨.contentLength, ascii "Content-Length", decimal body.length⟩

theorem sipMethodName_plain (m : SipMethod) (c : UInt8) (member : c ∈ sipMethodName m) :
    c ≠ space ∧ c ≠ lf := by
  have every : ∀ c ∈ sipMethodName m, c ≠ space ∧ c ≠ lf :=
    List.all_iff_forall_prop.mp (by cases m <;> decide)
  exact every c member

theorem sipMethodName_front {m : SipMethod} (known : m ≠ .unknown) :
    ∃ a b c rest, sipMethodName m = a :: b :: c :: rest ∧ isCrLf a = false ∧
      [a, b, c].map sipLc ≠ ascii "sip" := by
  cases m with
  | unknown => contradiction
  | _ => exact ⟨_, _, _, _, rfl, by decide, by decide⟩

theorem sipStatusPhrase_plain (status : Nat) (c : UInt8)
    (member : c ∈ sipStatusPhrase status) : c ≠ cr ∧ c ≠ lf := by
  have every : (statusPhrases.all fun entry => (ascii entry.2).all fun c => 0x20 ≤ c) = true := by
    simp only [statusPhrases, List.all_cons, List.all_nil, ascii, String.reduceToList]
    decide
  unfold sipStatusPhrase at member
  cases found : statusPhrases.find? fun entry => entry.1 = status with
  | none =>
    rw [found] at member
    have unknown : ∀ c ∈ ascii "Unknown", c ≠ cr ∧ c ≠ lf := List.all_iff_forall_prop.mp (by decide)
    exact unknown c member
  | some entry =>
    rw [found] at member
    have plain := List.all_eq_true.mp every entry (List.mem_of_find?_eq_some found)
    have printed := of_decide_eq_true (List.all_eq_true.mp plain c member)
    constructor <;> rintro rfl <;> exact absurd printed (by decide)

theorem parseRequest_line {m : SipMethod} {uri : Bytes} (known : m ≠ .unknown)
    (present : uri ≠ []) (plain : (StartLine.request m uri).Plain) :
    parseStartLine {} (StartLine.request m uri).line = .ok (StartLine.request m uri).msg := by
  obtain ⟨a, b, c, rest, name, _, other⟩ := sipMethodName_front known
  have request : ¬ (8 ≤ (StartLine.request m uri).line.length ∧
      ((StartLine.request m uri).line.take 8).map sipLc = ascii "sip/2.0 ") := by
    rintro ⟨_, same⟩
    apply other
    have front := congrArg (List.take 3) same
    rw [← List.map_take, List.take_take, StartLine.line, name] at front
    exact front
  have named : sipMethodName m ≠ [] := by rw [name]; exact List.cons_ne_nil _ _
  have first : space ∉ sipMethodName m := fun member =>
    (sipMethodName_plain m space member).1 rfl
  have second : space ∉ uri := fun member => (plain space member).1 rfl
  rw [parseStartLine, if_neg request, parseRequest, StartLine.line, List.append_assoc,
    List.cons_append, breakAt_append first]
  dsimp only
  rw [if_neg named, breakAt_append second]
  dsimp only
  rw [if_neg present, if_neg (by decide), sipMethodFrom_name]
  rfl

theorem decimalValue_code {code : Nat} (small : code ≤ 699) :
    decimalValue [digit (code / 100), digit (code / 10), digit code] = code := by
  simp only [decimalValue, List.foldl_cons, List.foldl_nil, toNat_digit]
  omega

theorem parseStatus_line {code : Nat} (low : 100 ≤ code) (high : code ≤ 699) :
    parseStartLine {} (StartLine.status code reason).line =
      .ok (StartLine.status code reason).msg := by
  generalize text : reason.getD (sipStatusPhrase code) = phrase
  rw [parseStartLine, StartLine.line, StartLine.msg, text]
  rw [if_pos (by
    constructor
    · simp [ascii]
    · rw [List.append_assoc, List.take_append_of_le_length (by decide)]
      decide)]
  rw [List.append_assoc, List.drop_append_of_le_length (by decide)]
  change parseStatus {} (digit (code / 100) :: digit (code / 10) :: digit code :: space ::
    phrase) = _
  have value : decimalValue ((digit (code / 100) :: digit (code / 10) :: digit code ::
      space :: phrase).take 3) = code := decimalValue_code high
  unfold parseStatus
  rw [if_neg (by simp [isDigit_digit])]
  dsimp only
  rw [value, if_neg (by omega)]
  rfl

theorem StartLine.parse_line {start : StartLine} (valid : start.Valid) (plain : start.Plain) :
    parseStartLine {} start.line = .ok start.msg := by
  cases start with
  | request m uri => exact parseRequest_line valid.1 valid.2 plain
  | status code reason => exact parseStatus_line valid.1 valid.2

theorem lf_ne_digit (n : Nat) : lf ≠ digit n := by
  intro same
  have digits := isDigit_digit n
  rw [← same] at digits
  contradiction

theorem StartLine.lf_not_mem_line {start : StartLine} (plain : start.Plain) : lf ∉ start.line := by
  intro member
  cases start with
  | request m uri =>
    simp only [StartLine.line, List.mem_append, List.mem_cons] at member
    rcases member with (named | same | inside) | same | inside
    · exact (sipMethodName_plain m lf named).2 rfl
    · contradiction
    · exact (plain lf inside).2.2 rfl
    · contradiction
    · revert inside
      decide
  | status code reason =>
    simp only [StartLine.line, List.mem_append, List.mem_cons, List.not_mem_nil, or_false] at member
    rcases member with (inside | same | same | same) | same | inside
    · revert inside
      decide
    · exact lf_ne_digit _ same
    · exact lf_ne_digit _ same
    · exact lf_ne_digit _ same
    · contradiction
    · cases reason with
      | none => exact (sipStatusPhrase_plain code lf inside).2 rfl
      | some text => exact (plain text rfl lf inside).2 rfl

theorem StartLine.stops_line {start : StartLine} (valid : start.Valid) (rest : Bytes) :
    Stops isCrLf (start.line ++ rest) := by
  cases start with
  | request m uri =>
    obtain ⟨a, b, c, others, name, letter, _⟩ := sipMethodName_front valid.1
    simp only [StartLine.line, name, List.cons_append, stops_cons]
    exact letter
  | status code reason => exact (stops_cons _ _ _).mpr (by decide)

theorem endsLine_crlf {line : Bytes} (clean : lf ∉ line) : EndsLine line crlf := ⟨clean, .inl rfl⟩

section Fields

variable {m : SipMsg} {name value rest : Bytes}

theorem parseField_line (present : name ≠ []) (plain : ∀ c ∈ name, c ≠ colon ∧ sipIsWs c = false)
    (first : ∀ c ∈ value.head?, sipIsWs c = false)
    (last : ∀ c ∈ value.getLast?, sipIsWs c = false) (room : m.hdrCount < sipMaxHdrs) :
    parseField m (fieldLine name value) = pushHdr m name value := by
  have clean : colon ∉ name := fun member => (plain colon member).1 rfl
  have trimmed : name.rdropWhile sipIsWs = name := by
    apply rdropWhile_eq_self
    intro c ending
    exact (plain c (List.mem_of_getLast? ending)).2
  have blank : (space :: value).dropWhile sipIsWs = value := by
    rw [List.dropWhile_cons_of_pos (by decide)]
    exact dropWhile_eq_self first
  rw [parseField, fieldLine, breakAt_append clean]
  dsimp only
  rw [trimmed, if_neg present, if_neg (by omega), blank, rdropWhile_eq_self last]

theorem parseHeaders_line (present : name ≠ [])
    (plain : ∀ c ∈ name, c ≠ colon ∧ sipIsWs c = false ∧ c ≠ cr ∧ c ≠ lf)
    (inner : ∀ c ∈ value, c ≠ cr ∧ c ≠ lf)
    (first : ∀ c ∈ value.head?, sipIsWs c = false)
    (last : ∀ c ∈ value.getLast?, sipIsWs c = false) (room : m.hdrCount < sipMaxHdrs)
    (stops : continues rest = false) :
    parseHeaders m (fieldLine name value ++ crlf ++ rest) =
      pushHdr m name value >>= fun m => parseHeaders m rest := by
  have clean : lf ∉ fieldLine name value := by
    intro member
    simp only [fieldLine, List.mem_append, List.mem_cons] at member
    rcases member with named | same | same | valued
    · exact (plain lf named).2.2.2 rfl
    · contradiction
    · contradiction
    · exact (inner lf valued).2 rfl
  have nonempty : fieldLine name value ≠ [] := by simp [fieldLine]
  rw [List.append_assoc, parseHeaders_field (splitLine_append (endsLine_crlf clean) rest) nonempty
    (foldLines_stop stops), parseField_line present
    (fun c member => ⟨(plain c member).1, (plain c member).2.1⟩) first last room]

end Fields

theorem HdrCall.id_eq (h : HdrCall) : sipHdrFrom h.name = h.id := by
  cases h with
  | hdr id val => exact sipHdrFrom_name id
  | hdrName name val => rfl
  | hdrU32 id v => exact sipHdrFrom_name id

theorem HdrCall.Plain.push {h : HdrCall} (plain : h.Plain) (m : SipMsg) :
    pushHdr m h.name h.value = .ok { m with hdrs := m.hdrs ++ [h.view] } := by
  have other : h.id ≠ .contentLength := by
    rw [← h.id_eq]
    exact plain.other
  simp only [pushHdr, HdrCall.id_eq, if_neg other, HdrCall.view]

theorem HdrCall.Plain.stops {h : HdrCall} (plain : h.Plain) (present : h.name ≠ [])
    (rest : Bytes) : continues (h.text ++ rest) = false := by
  obtain ⟨c, others, name⟩ := List.exists_cons_of_ne_nil present
  rw [HdrCall.text, fieldLine, name]
  exact (plain.name c (by rw [name]; exact List.mem_cons_self)).2.1

theorem parseHeaders_fields {hdrs : List HdrCall} {m : SipMsg} {rest : Bytes}
    (plain : ∀ h ∈ hdrs, h.Plain) (named : ∀ h ∈ hdrs, h.name ≠ [])
    (room : m.hdrCount + hdrs.length ≤ sipMaxHdrs) (stops : continues rest = false) :
    parseHeaders m (hdrs.flatMap HdrCall.text ++ rest) =
      parseHeaders { m with hdrs := m.hdrs ++ hdrs.map HdrCall.view } rest := by
  induction hdrs generalizing m with
  | nil => simp
  | cons h hdrs ih =>
    rw [List.forall_mem_cons] at plain named
    obtain ⟨first, others⟩ := plain
    have next : continues (hdrs.flatMap HdrCall.text ++ rest) = false := by
      cases hdrs with
      | nil => exact stops
      | cons second hdrs =>
        rw [List.flatMap_cons, List.append_assoc]
        exact (others second List.mem_cons_self).stops (named.2 second List.mem_cons_self) _
    have count : m.hdrCount + (hdrs.length + 1) ≤ sipMaxHdrs := room
    rw [List.flatMap_cons, List.append_assoc, HdrCall.text,
      parseHeaders_line named.1 first.name first.value first.first first.last
        (by omega) next, first.push]
    change parseHeaders _ _ = _
    rw [ih others named.2 (by simp [SipMsg.hdrCount] at *; omega)]
    simp

theorem sipParseU32_decimal (small : n ≤ 0xFFFFFFFF) : sipParseU32 (decimal n) = some n := by
  have present := List.length_pos_iff.mpr (decimal_ne_nil n)
  have short := length_decimal_le (n := n) 9 (small.trans_lt (by decide))
  rw [sipParseU32, if_neg (by omega), if_neg (by simp [all_isDigit_decimal]),
    decimalValue_decimal, if_neg (by omega)]

theorem decimal_ends (n : Nat) (c : UInt8) (member : c ∈ decimal n) :
    sipIsWs c = false ∧ c ≠ cr ∧ c ≠ lf := by
  have digits := List.all_eq_true.mp (all_isDigit_decimal n) c member
  refine ⟨?_, ?_, ?_⟩
  · rw [← Bool.not_eq_true]
    intro blank
    simp only [sipIsWs, Bool.or_eq_true, decide_eq_true_eq] at blank
    rcases blank with rfl | rfl <;> contradiction
  · rintro rfl
    contradiction
  · rintro rfl
    contradiction

theorem parseHeaders_body {m : SipMsg} {body : Bytes} (small : body.length ≤ 0xFFFFFFFF)
    (room : m.hdrCount < sipMaxHdrs) :
    parseHeaders m (bodyText body) =
      .ok ({ m with
        hdrs := m.hdrs ++ [clenView body]
        clen := body.length
        hasClen := true }, body) := by
  have values := decimal_ends body.length
  rw [bodyText, parseHeaders_line (by decide) (by decide +kernel)
    (fun c member => (values c member).2)
    (fun c head => (values c (List.mem_of_head? head)).1)
    (fun c ending => (values c (List.mem_of_getLast? ending)).1) room (by rfl)]
  have id : sipHdrFrom (ascii "Content-Length") = .contentLength := by decide
  simp only [pushHdr, if_pos id, sipParseU32_decimal small]
  change parseHeaders _ (crlf ++ body) = _
  have ended : splitLine (crlf ++ body) = some ([], crlf, body) :=
    splitLine_append (endsLine_crlf List.not_mem_nil) body
  rw [parseHeaders_empty ended, clenView, id]

/-- What was written is consumed to its end and returns the start line, the
fields in order and the body. -/
theorem sipMsgParse_write {cap : Nat} {start : StartLine} {hdrs : List HdrCall}
    {body out : Bytes} (written : writeMsg cap start hdrs body = .ok out)
    (plain : start.Plain) (fields : ∀ h ∈ hdrs, h.Plain) (few : hdrs.length < sipMaxHdrs) :
    sipMsgParse out =
      .ok ({ start.msg with
        hasClen := true
        clen := body.length
        hdrs := hdrs.map HdrCall.view ++ [clenView body]
        body := body }, out.length) := by
  obtain ⟨valid, named, small, rfl, fits⟩ := writeMsg_ok written
  have lead := dropWhile_eq_self (start.stops_line valid
    (crlf ++ (hdrs.flatMap HdrCall.text ++ bodyText body)))
  have split := splitLine_append (endsLine_crlf (start.lf_not_mem_line plain))
    (hdrs.flatMap HdrCall.text ++ bodyText body)
  have unread : start.msg.hdrs = [] := by cases start <;> rfl
  have read : parseHeaders start.msg (hdrs.flatMap HdrCall.text ++ bodyText body) = _ :=
    parseHeaders_fields fields named (by rw [SipMsg.hdrCount, unread]; simpa using few.le) rfl
  rw [parseHeaders_body small (by simpa [SipMsg.hdrCount, unread] using few)] at read
  rw [sipMsgParse_head fits (by rw [lead]; exact split) (start.parse_line valid plain) read,
    takeBody, if_pos rfl, if_neg (Nat.lt_irrefl _), List.take_length, unread]
  have inside : body.length ≤
      (start.line ++ (crlf ++ (hdrs.flatMap HdrCall.text ++ bodyText body))).length := by
    simp only [bodyText, List.length_append]
    omega
  simp only [Nat.sub_add_cancel inside, List.nil_append]

def ringing : List HdrCall :=
  [.hdr .via (ascii "SIP/2.0/UDP a;branch=b"), .hdrName (ascii "X-Note") (ascii "c: d"),
    .hdrU32 .maxForwards 70]

def ringingText : Bytes :=
  ascii "SIP/2.0 180 Ringing\r\nVia: SIP/2.0/UDP a;branch=b\r\nX-Note: c: d\r\n" ++
    ascii "Max-Forwards: 70\r\nContent-Length: 2\r\n\r\n\r\n"

theorem sipMsgParse_write_ringing :
    writeMsg 128 (.status 180 none) ringing [cr, lf] = .ok ringingText ∧ sipMsgParse ringingText =
        .ok ({ status := 180
               reason := ascii "Ringing"
               hasClen := true
               clen := 2
               hdrs := ringing.map HdrCall.view ++ [clenView [cr, lf]]
               body := [cr, lf] }, ringingText.length) := by
  have written : writeMsg 128 (.status 180 none) ringing [cr, lf] = .ok ringingText := by
    decide +kernel
  have plain : ∀ h ∈ ringing, h.Plain := by
    intro h member
    simp only [ringing, List.mem_cons, List.not_mem_nil, or_false] at member
    rcases member with rfl | rfl | rfl <;>
      exact ⟨List.all_iff_forall_prop.mp (by decide), by decide,
        List.all_iff_forall_prop.mp (by decide +kernel), by decide +kernel, by decide +kernel⟩
  exact ⟨written, sipMsgParse_write written (by intro text given; cases given) plain (by decide)⟩

end Pro2Call.Sip

import Pro2Call.Data.OutBuf
import Pro2Call.Sip.Stream

namespace Pro2Call.Sip

open Pro2Call.Data

abbrev SipWbuf := OutBuf UInt8

def sipWbufInit (null : Bool) (cap : Nat) : SipWbuf where
  cap := min cap intMax
  overflow := null

abbrev Put (α : Type) := SipWbuf × Except SipErr α

def crlf : Bytes := [cr, lf]

def putU32 (w : SipWbuf) (v : Nat) : SipWbuf := w.put (decimal v)

def done (w : SipWbuf) : Put Unit := (w, if w.overflow then .error .overflow else .ok ())

def sipPutRequest (w : SipWbuf) (m : SipMethod) (uri : Bytes) : Put Unit :=
  if m = .unknown ∨ sipMethodName m = [] ∨ uri = [] then (w, .error .inval)
  else
    done ((((w.put (sipMethodName m)).put [space]).put uri).put (ascii " SIP/2.0\r\n"))

def sipPutStatus (w : SipWbuf) (status : Nat) (reason : Option Bytes) : Put Unit :=
  if status < 100 ∨ 699 < status then (w, .error .inval)
  else
    let code := [digit (status / 100), digit (status / 10), digit status]
    done (((((w.put (ascii "SIP/2.0 ")).put code).put [space]).put
      (reason.getD (sipStatusPhrase status))).put crlf)

def sipPutHdrName (w : SipWbuf) (name val : Bytes) : Put Unit :=
  if name = [] then (w, .error .inval)
  else done ((((w.put name).put (ascii ": ")).put val).put crlf)

def sipPutHdr (w : SipWbuf) (id : SipHdr) (val : Bytes) : Put Unit :=
  if sipHdrName id = [] then (w, .error .inval)
  else sipPutHdrName w (sipHdrName id) val

def sipPutHdrU32 (w : SipWbuf) (id : SipHdr) (v : UInt32) : Put Unit :=
  if sipHdrName id = [] then (w, .error .inval)
  else done ((putU32 ((w.put (sipHdrName id)).put (ascii ": ")) v.toNat).put crlf)

def putBytes (w : SipWbuf) (body : Bytes) : SipWbuf :=
  if body.length = 0 then w else w.put body

def sipPutBody (w : SipWbuf) (body : Bytes) : Put Nat :=
  if 0xFFFFFFFF < body.length then (w, .error .inval)
  else
    let w := (putU32 (w.put (ascii "Content-Length: ")) body.length).put (crlf ++ crlf)
    let w := putBytes w body
    (w, if w.overflow then .error .overflow else .ok w.out.length)

inductive StartLine where
  | request (m : SipMethod) (uri : Bytes)
  | status (code : Nat) (reason : Option Bytes)
  deriving DecidableEq, Repr

inductive HdrCall where
  | hdr (id : SipHdr) (val : Bytes)
  | hdrName (name val : Bytes)
  | hdrU32 (id : SipHdr) (v : UInt32)
  deriving DecidableEq, Repr

def StartLine.put (w : SipWbuf) : StartLine → Put Unit
  | .request m uri => sipPutRequest w m uri
  | .status code reason => sipPutStatus w code reason

def HdrCall.put (w : SipWbuf) : HdrCall → Put Unit
  | .hdr id val => sipPutHdr w id val
  | .hdrName name val => sipPutHdrName w name val
  | .hdrU32 id v => sipPutHdrU32 w id v

def writeMsg (cap : Nat) (start : StartLine) (hdrs : List HdrCall) (body : Bytes) :
    Except SipErr Bytes := do
  let (w, _) ← OutBuf.checked (start.put (sipWbufInit false cap))
  let w ← OutBuf.putAll HdrCall.put w hdrs
  let (w, n) ← OutBuf.checked (sipPutBody w body)
  .ok (w.out.take n)

def StartLine.line : StartLine → Bytes
  | .request m uri => sipMethodName m ++ space :: uri ++ space :: ascii "SIP/2.0"
  | .status code reason =>
    ascii "SIP/2.0 " ++ [digit (code / 100), digit (code / 10), digit code] ++
      space :: reason.getD (sipStatusPhrase code)

def HdrCall.id : HdrCall → SipHdr
  | .hdr id _ => id
  | .hdrName name _ => sipHdrFrom name
  | .hdrU32 id _ => id

def HdrCall.name : HdrCall → Bytes
  | .hdr id _ => sipHdrName id
  | .hdrName name _ => name
  | .hdrU32 id _ => sipHdrName id

def HdrCall.value : HdrCall → Bytes
  | .hdr _ val => val
  | .hdrName _ val => val
  | .hdrU32 _ v => decimal v.toNat

def HdrCall.view (h : HdrCall) : SipHdrView := ⟨h.id, h.name, h.value⟩

def fieldLine (name value : Bytes) : Bytes := name ++ colon :: space :: value

def HdrCall.text (h : HdrCall) : Bytes := fieldLine h.name h.value ++ crlf

def StartLine.Valid : StartLine → Prop
  | .request m uri => m ≠ .unknown ∧ uri ≠ []
  | .status code _ => 100 ≤ code ∧ code ≤ 699

section Calls

variable {w w' : SipWbuf}

theorem done_ok {text : Bytes} (wrote : w.Extends w' text) (ok : done w' = (w'', .ok ())) :
    w.Extends w'' text := by
  obtain ⟨rfl, _⟩ := Prod.mk.inj ok
  exact wrote

theorem sipPutRequest_ok {uri : Bytes} (ok : sipPutRequest w m uri = (w', .ok ())) :
    m ≠ .unknown ∧ uri ≠ [] ∧ w.Extends w' ((StartLine.request m uri).line ++ crlf) := by
  unfold sipPutRequest at ok
  split at ok
  · cases ok
  next valid =>
    rw [not_or, not_or] at valid
    have wrote := (((w.extends_put (sipMethodName m)).put [space]).put uri).put
      (ascii " SIP/2.0\r\n")
    refine ⟨valid.1, valid.2.2, ?_⟩
    have same : (StartLine.request m uri).line ++ crlf =
        sipMethodName m ++ [space] ++ uri ++ ascii " SIP/2.0\r\n" := by
      simp only [StartLine.line, List.append_assoc, List.cons_append, List.nil_append]
      rfl
    rw [same]
    exact done_ok wrote ok

theorem sipPutStatus_ok (ok : sipPutStatus w status reason = (w', .ok ())) :
    100 ≤ status ∧ status ≤ 699 ∧ w.Extends w' ((StartLine.status status reason).line ++ crlf) := by
  unfold sipPutStatus at ok
  split at ok
  · cases ok
  next valid =>
    have wrote := ((((w.extends_put (ascii "SIP/2.0 ")).put
      [digit (status / 100), digit (status / 10), digit status]).put [space]).put
      (reason.getD (sipStatusPhrase status))).put crlf
    refine ⟨by omega, by omega, ?_⟩
    simpa [StartLine.line] using done_ok wrote ok

theorem StartLine.put_ok {start : StartLine} (ok : start.put w = (w', .ok ())) :
    start.Valid ∧ w.Extends w' (start.line ++ crlf) := by
  cases start with
  | request m uri =>
    obtain ⟨known, present, wrote⟩ := sipPutRequest_ok ok
    exact ⟨⟨known, present⟩, wrote⟩
  | status code reason =>
    obtain ⟨low, high, wrote⟩ := sipPutStatus_ok ok
    exact ⟨⟨low, high⟩, wrote⟩

theorem extends_field (w : SipWbuf) (name value : Bytes) :
    w.Extends ((((w.put name).put (ascii ": ")).put value).put crlf)
      (fieldLine name value ++ crlf) := by
  have wrote := (((w.extends_put name).put (ascii ": ")).put value).put crlf
  have same : fieldLine name value ++ crlf = name ++ ascii ": " ++ value ++ crlf := by
    simp only [fieldLine, List.append_assoc, List.cons_append]
    rfl
  rwa [same]

theorem sipPutHdrName_ok {name val : Bytes} (ok : sipPutHdrName w name val = (w', .ok ())) :
    name ≠ [] ∧ w.Extends w' (fieldLine name val ++ crlf) := by
  unfold sipPutHdrName at ok
  split at ok
  · cases ok
  next present => exact ⟨present, done_ok (extends_field w name val) ok⟩

theorem HdrCall.put_ok (h : HdrCall) (ok : h.put w = (w', .ok ())) :
    h.name ≠ [] ∧ w.Extends w' h.text := by
  cases h with
  | hdr id val =>
    dsimp only [HdrCall.put, sipPutHdr] at ok
    split at ok
    · cases ok
    · exact sipPutHdrName_ok ok
  | hdrName name val => exact sipPutHdrName_ok ok
  | hdrU32 id v =>
    dsimp only [HdrCall.put, sipPutHdrU32] at ok
    split at ok
    · cases ok
    next present => exact ⟨present, done_ok (extends_field w _ _) ok⟩

theorem extends_putBytes (w : SipWbuf) (body : Bytes) : w.Extends (putBytes w body) body := by
  unfold putBytes
  split
  next empty =>
    rw [List.length_eq_zero_iff.mp empty]
    exact w.extends_refl
  · exact w.extends_put body

def bodyText (body : Bytes) : Bytes :=
  fieldLine (ascii "Content-Length") (decimal body.length) ++ crlf ++ (crlf ++ body)

theorem sipPutBody_ok {body : Bytes} (ok : sipPutBody w body = (w', .ok n)) :
    body.length ≤ 0xFFFFFFFF ∧ w.Extends w' (bodyText body) ∧ w'.overflow = false ∧
      n = w'.out.length := by
  unfold sipPutBody at ok
  split at ok
  · cases ok
  next small =>
    have head := ((w.extends_put (ascii "Content-Length: ")).put (decimal body.length)).put
      (crlf ++ crlf)
    have wrote := head.trans (extends_putBytes _ body)
    have same : bodyText body =
        ascii "Content-Length: " ++ decimal body.length ++ (crlf ++ crlf) ++ body := by
      simp only [bodyText, fieldLine, List.append_assoc, List.cons_append]
      rfl
    rw [same]
    obtain ⟨rfl, returned⟩ := Prod.mk.inj ok
    refine ⟨by omega, wrote, ?_⟩
    generalize putBytes _ body = w' at returned
    split at returned
    · cases returned
    next fits => exact ⟨by simpa using fits, (Except.ok.inj returned).symm⟩

end Calls

theorem writeMsg_ok {start : StartLine} {body out : Bytes}
    (written : writeMsg cap start hdrs body = .ok out) :
    start.Valid ∧ (∀ h ∈ hdrs, h.name ≠ []) ∧ body.length ≤ 0xFFFFFFFF ∧
      out = start.line ++ (crlf ++ (hdrs.flatMap HdrCall.text ++ bodyText body)) ∧
      out.length ≤ intMax := by
  obtain ⟨⟨first, _⟩, started, written⟩ := exists_of_bind_ok written
  obtain ⟨second, fields, written⟩ := exists_of_bind_ok written
  obtain ⟨⟨third, n⟩, ended, written⟩ := exists_of_bind_ok written
  obtain ⟨valid, front⟩ := StartLine.put_ok (OutBuf.checked_ok started)
  obtain ⟨named, middle⟩ := OutBuf.putAll_ok (fun _ _ (h : HdrCall) => h.put_ok) fields
  obtain ⟨small, back, fits, rfl⟩ := sipPutBody_ok (OutBuf.checked_ok ended)
  have whole := (front.trans middle).trans back
  cases written
  have text := (whole.2 fits).2
  have room := third.within
  rw [whole.1] at room
  rw [List.take_length]
  refine ⟨valid, named, small, ?_, room.trans (Nat.min_le_right _ _)⟩
  rw [text]
  simp [sipWbufInit]

end Pro2Call.Sip

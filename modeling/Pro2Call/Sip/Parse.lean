import Pro2Call.Sip.Names

namespace Pro2Call.Sip

open Pro2Call.Data

inductive SipErr where
  | short | line | version | header | headers | overflow | inval | uri | missing
  deriving DecidableEq, Repr

def sipMaxHdrs : Nat := 48

def intMax : Nat := 0x7FFFFFFF

structure SipHdrView where
  id : SipHdr
  name : Bytes
  value : Bytes
  deriving DecidableEq, Repr

structure SipMsg where
  isRequest : Bool := false
  method : SipMethod := .unknown
  methodName : Bytes := []
  ruri : Bytes := []
  status : Nat := 0
  reason : Bytes := []
  hasClen : Bool := false
  clen : Nat := 0
  hdrs : List SipHdrView := []
  body : Bytes := []
  deriving DecidableEq, Repr

def SipMsg.hdrCount (m : SipMsg) : Nat := m.hdrs.length

def colon : UInt8 := 0x3A

def space : UInt8 := 0x20

def isCrLf (c : UInt8) : Bool := c = cr || c = lf

def sipParseU32 (text : Bytes) : Option Nat :=
  if text.length = 0 ∨ 10 < text.length then none
  else if !text.all isDigit then none
  else if 0xFFFFFFFF < decimalValue text then none
  else some (decimalValue text)

def parseStatus (m : SipMsg) (q : Bytes) : Except SipErr SipMsg :=
  if q.length < 3 ∨ (q.take 3).all isDigit = false then .error .line
  else
    let code := decimalValue (q.take 3)
    if code < 100 then .error .line
    else
      match q.drop 3 with
      | [] => .ok { m with isRequest := false, status := code, reason := [] }
      | c :: reason =>
        if c ≠ space then .error .line
        else .ok { m with isRequest := false, status := code, reason := reason }

def parseRequest (m : SipMsg) (p : Bytes) : Except SipErr SipMsg :=
  match breakAt space p with
  | none => .error .line
  | some (name, p) =>
    if name = [] then .error .line
    else
      match breakAt space p with
      | none => .error .line
      | some (ruri, version) =>
        if ruri = [] then .error .line
        else if version.length ≠ 7 ∨ version.map sipLc ≠ ascii "sip/2.0" then
          .error .version
        else
          .ok { m with
            isRequest := true
            methodName := name
            method := sipMethodFrom name
            ruri := ruri }

def parseStartLine (m : SipMsg) (p : Bytes) : Except SipErr SipMsg :=
  if 8 ≤ p.length ∧ (p.take 8).map sipLc = ascii "sip/2.0 " then parseStatus m (p.drop 8)
  else parseRequest m p

def continues (rest : Bytes) : Bool := rest.head?.any sipIsWs

/-- Continuation lines stay inside the field, with the terminators before them.
`mark` is the terminator of the last line so far. -/
def foldLines (field mark rest : Bytes) : Option (Bytes × Bytes) :=
  if continues rest then
    match _more : splitLine rest with
    | none => none
    | some (line, mark', rest') => foldLines (field ++ mark ++ line) mark' rest'
  else some (field, rest)
termination_by rest.length
decreasing_by exact splitLine_length _more

def pushHdr (m : SipMsg) (name value : Bytes) : Except SipErr SipMsg :=
  let id := sipHdrFrom name
  let m := { m with hdrs := m.hdrs ++ [⟨id, name, value⟩] }
  if id = .contentLength then
    match sipParseU32 value with
    | none => .error .header
    | some clen => .ok { m with clen := clen, hasClen := true }
  else .ok m

def parseField (m : SipMsg) (field : Bytes) : Except SipErr SipMsg :=
  match breakAt colon field with
  | none => .error .header
  | some (before, after) =>
    let name := before.rdropWhile sipIsWs
    if name = [] then .error .header
    else if sipMaxHdrs ≤ m.hdrCount then .error .headers
    else pushHdr m name ((after.dropWhile sipIsWs).rdropWhile sipIsWs)

theorem foldLines_length {field mark rest whole after : Bytes}
    (folded : foldLines field mark rest = some (whole, after)) :
    after.length ≤ rest.length := by
  fun_induction foldLines field mark rest with
  | case1 => cases folded
  | case2 field mark rest _ line mark' rest' more ih =>
    exact (ih folded).trans (splitLine_length more).le
  | case3 =>
    cases folded
    exact Nat.le_refl _

def parseHeaders (m : SipMsg) (p : Bytes) : Except SipErr (SipMsg × Bytes) :=
  match _first : splitLine p with
  | none => .error .short
  | some (line, mark, rest) =>
    if line = [] then .ok (m, rest)
    else
      match _folded : foldLines line mark rest with
      | none => .error .short
      | some (field, rest') =>
        match parseField m field with
        | .error e => .error e
        | .ok m => parseHeaders m rest'
termination_by p.length
decreasing_by
  exact (foldLines_length _folded).trans_lt (splitLine_length _first)

def takeBody (m : SipMsg) (len : Nat) (rest : Bytes) : Except SipErr (SipMsg × Nat) :=
  let hoff := len - rest.length
  if m.hasClen then
    if rest.length < m.clen then .error .short
    else .ok ({ m with body := rest.take m.clen }, hoff + m.clen)
  else .ok ({ m with body := rest }, len)

def sipMsgParse (b : Bytes) : Except SipErr (SipMsg × Nat) :=
  if intMax < b.length then .error .inval
  else
    match splitLine (b.dropWhile isCrLf) with
    | none => .error .short
    | some (line, _, rest) => do
        let m ← parseStartLine {} line
        let (m, rest) ← parseHeaders m rest
        takeBody m b.length rest

end Pro2Call.Sip

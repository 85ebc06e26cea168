import Pro2Call.Data.Run
import Pro2Call.Sdp.Names

namespace Pro2Call.Sdp

open Pro2Call.Data

inductive SdpErr where
  | line | version | media | attrs | fmts | bws | overflow | inval | missing
  deriving DecidableEq, Repr

def sdpMaxMedia : Nat := 8

def sdpMaxAttrs : Nat := 96

def sdpMaxFmts : Nat := 64

def sdpMaxBws : Nat := 8

def intMax : Nat := 0x7FFFFFFF

structure SdpOrigin where
  username : Bytes
  sessId : Nat
  sessVersion : Nat
  nettype : Bytes
  addrtype : Bytes
  addr : Bytes
  deriving DecidableEq, Repr

structure SdpConn where
  nettype : Bytes
  addrtype : Bytes
  addr : Bytes
  deriving DecidableEq, Repr

structure SdpBw where
  bwtype : Bytes
  value : Nat
  deriving DecidableEq, Repr

structure SdpAttr where
  id : SdpAttrId
  name : Bytes
  value : Bytes
  deriving DecidableEq, Repr

structure Stream where
  type : SdpMtype
  typeName : Bytes
  port : Nat
  nports : Nat
  proto : SdpProto
  protoName : Bytes
  fmts : List Bytes
  deriving DecidableEq, Repr

/-- A section: its formats, bandwidths and attributes are runs of the pools of
the message. -/
structure SdpMedia where
  type : SdpMtype
  typeName : Bytes
  port : Nat
  nports : Nat
  proto : SdpProto
  protoName : Bytes
  title : Bytes := []
  conn : Option SdpConn := none
  fmtOff : Nat
  fmtCount : Nat
  bwOff : Nat
  bwCount : Nat := 0
  attrOff : Nat
  attrCount : Nat := 0
  deriving DecidableEq, Repr

structure SdpMsg where
  origin : Option SdpOrigin := none
  name : Bytes := []
  info : Bytes := []
  uri : Bytes := []
  conn : Option SdpConn := none
  time : Option (Nat × Nat) := none
  bwCount : Nat := 0
  attrCount : Nat := 0
  media : List SdpMedia := []
  attrs : List SdpAttr := []
  fmts : List Bytes := []
  bws : List SdpBw := []
  deriving DecidableEq, Repr

def SdpMsg.mediaCount (m : SdpMsg) : Nat := m.media.length

def uint64Max : Nat := 0xFFFFFFFFFFFFFFFF

def digitsU64 (v : Nat) : Bytes → Option Nat
  | [] => some v
  | c :: rest =>
    if !isDigit c then none
    else if (uint64Max - (c.toNat - 0x30)) / 10 < v then none
    else digitsU64 (v * 10 + (c.toNat - 0x30)) rest

def sdpParseU64 (text : Bytes) : Option Nat :=
  if text.length = 0 ∨ 20 < text.length then none else digitsU64 0 text

def sdpParseU16 (text : Bytes) : Option Nat :=
  match sdpParseU64 text with
  | none => none
  | some v => if 0xFFFF < v then none else some v

def field (p : Bytes) : Bytes × Bytes :=
  let s := p.dropWhile sdpIsWs
  (s.takeWhile (!sdpIsWs ·), s.dropWhile (!sdpIsWs ·))

def fieldsN : Nat → Bytes → Option (List Bytes × Bytes)
  | 0, p => some ([], p)
  | n + 1, p =>
    if (field p).1 = [] then none
    else (fieldsN n (field p).2).map fun found => ((field p).1 :: found.1, found.2)

theorem field_length (present : (field p).1 ≠ []) : (field p).2.length < p.length := by
  have parts := congrArg List.length
    (List.takeWhile_append_dropWhile (p := (!sdpIsWs ·)) (l := p.dropWhile sdpIsWs))
  have lead := (List.dropWhile_suffix (l := p) sdpIsWs).length_le
  have filled := List.length_pos_iff.mpr present
  rw [List.length_append] at parts
  simp only [field] at *
  omega

def parseOrigin (v : Bytes) : Except SdpErr SdpOrigin :=
  match fieldsN 6 v with
  | some ([username, sessId, sessVersion, nettype, addrtype, addr], _) =>
    .ok ⟨username, (sdpParseU64 sessId).getD 0, (sdpParseU64 sessVersion).getD 0, nettype,
      addrtype, addr⟩
  | _ => .error .line

def parseConn (v : Bytes) : Except SdpErr SdpConn :=
  match fieldsN 3 v with
  | some ([nettype, addrtype, addr], _) => .ok ⟨nettype, addrtype, addr⟩
  | _ => .error .line

def colon : UInt8 := 0x3A

def slash : UInt8 := 0x2F

def parsePort (port : Bytes) : Option (Nat × Nat) :=
  match breakAt slash port with
  | none => (sdpParseU16 port).map fun port => (port, 1)
  | some (port, nports) =>
    match sdpParseU16 port, sdpParseU16 nports with
    | some port, some nports => some (port, nports)
    | _, _ => none

def parseFmts (nfmt : Nat) (p : Bytes) : Except SdpErr (List Bytes) :=
  if _present : (field p).1 = [] then .ok []
  else if sdpMaxFmts ≤ nfmt then .error .fmts
  else (parseFmts (nfmt + 1) (field p).2).map ((field p).1 :: ·)
termination_by p.length
decreasing_by exact field_length _present

def parseMedia (nfmt : Nat) (v : Bytes) : Except SdpErr Stream :=
  match fieldsN 3 v with
  | some ([type, port, prot], rest) =>
    match parsePort port with
    | none => .error .line
    | some (port, nports) =>
      (parseFmts nfmt rest).map fun fmts =>
        ⟨sdpMtypeFrom type, type, port, nports, sdpProtoFrom prot, prot, fmts⟩
  | _ => .error .line

def parseBwValue (bwtype value : Bytes) : Except SdpErr SdpBw :=
  match sdpParseU64 value with
  | none => .error .line
  | some value => .ok ⟨bwtype, value⟩

def parseBw (nbw : Nat) (v : Bytes) : Except SdpErr SdpBw :=
  match breakAt colon v with
  | none => .error .line
  | some (bwtype, value) =>
    if bwtype = [] then .error .line
    else if sdpMaxBws ≤ nbw then .error .bws
    else parseBwValue bwtype value

def parseTime (v : Bytes) : Except SdpErr (Nat × Nat) :=
  match fieldsN 2 v with
  | some ([start, stop], _) =>
    match sdpParseU64 start, sdpParseU64 stop with
    | some start, some stop => .ok (start, stop)
    | _, _ => .error .line
  | _ => .error .line

def attrOf (v : Bytes) : SdpAttr :=
  match breakAt colon v with
  | none => ⟨sdpAttrFrom v, v, []⟩
  | some (name, value) => ⟨sdpAttrFrom name, name, value.dropWhile sdpIsWs⟩

inductive LineType where
  | version | origin | name | info | uri | conn | bw | time | media | attr | other
  deriving DecidableEq, Repr

def lineType (c : UInt8) : LineType :=
  match Char.ofNat c.toNat with
  | 'v' => .version
  | 'o' => .origin
  | 's' => .name
  | 'i' => .info
  | 'u' => .uri
  | 'c' => .conn
  | 'b' => .bw
  | 't' => .time
  | 'm' => .media
  | 'a' => .attr
  | _ => .other

/-- The last section is the current one; before the first, the session is. -/
def SdpMsg.onCur (m : SdpMsg) (atSession : SdpMsg → SdpMsg)
    (atMedia : SdpMedia → SdpMedia) : SdpMsg :=
  match m.media.getLast? with
  | none => atSession m
  | some cur => { m with media := m.media.dropLast ++ [atMedia cur] }

def SdpMsg.curConn (m : SdpMsg) : Option SdpConn :=
  match m.media.getLast? with
  | none => m.conn
  | some cur => cur.conn

def SdpMsg.setInfo (m : SdpMsg) (v : Bytes) : SdpMsg :=
  m.onCur (fun m => { m with info := v }) fun cur => { cur with title := v }

def SdpMsg.setConn (m : SdpMsg) (c : SdpConn) : SdpMsg :=
  m.onCur (fun m => { m with conn := some c }) fun cur => { cur with conn := some c }

def SdpMsg.pushBw (m : SdpMsg) (b : SdpBw) : SdpMsg :=
  { m with bws := m.bws ++ [b] }.onCur (fun m => { m with bwCount := m.bwCount + 1 })
    fun cur => { cur with bwCount := cur.bwCount + 1 }

def SdpMsg.pushAttr (m : SdpMsg) (a : SdpAttr) : SdpMsg :=
  { m with attrs := m.attrs ++ [a] }.onCur (fun m => { m with attrCount := m.attrCount + 1 })
    fun cur => { cur with attrCount := cur.attrCount + 1 }

def SdpMsg.pushMedia (m : SdpMsg) (s : Stream) : SdpMsg :=
  { m with
    fmts := m.fmts ++ s.fmts
    media := m.media ++
      [{ type := s.type
         typeName := s.typeName
         port := s.port
         nports := s.nports
         proto := s.proto
         protoName := s.protoName
         fmtOff := m.fmts.length
         fmtCount := s.fmts.length
         bwOff := m.bws.length
         attrOff := m.attrs.length }] }

def parseTyped (m : SdpMsg) (type : LineType) (v : Bytes) : Except SdpErr SdpMsg :=
  match type with
  | .version => .error .version
  | .origin => (parseOrigin v).map fun o => { m with origin := some o }
  | .name => .ok { m with name := v }
  | .info => .ok (m.setInfo v)
  | .uri => .ok { m with uri := v }
  | .conn => if m.curConn.isSome then .ok m else (parseConn v).map m.setConn
  | .bw => (parseBw m.bws.length v).map m.pushBw
  | .time =>
    if m.time.isSome then .ok m
    else (parseTime v).map fun t => { m with time := some t }
  | .media =>
    if sdpMaxMedia ≤ m.mediaCount then .error .media
    else (parseMedia m.fmts.length v).map m.pushMedia
  | .attr => if sdpMaxAttrs ≤ m.attrs.length then .error .attrs else .ok (m.pushAttr (attrOf v))
  | .other => .ok m

structure Scan where
  m : SdpMsg := {}
  gotV : Bool := false
  deriving DecidableEq, Repr

structure Line where
  type : LineType
  value : Bytes
  deriving DecidableEq, Repr

def Scan.step (s : Scan) (l : Line) : Except SdpErr Scan :=
  if s.gotV then (parseTyped s.m l.type l.value).map fun m => { s with m := m }
  else if l.type ≠ .version then .error .version
  else if l.value ≠ ascii "0" then .error .version
  else .ok { s with gotV := true }

/-- The form x=value; blanks at the end are not part of the value. -/
def readLine (text : Bytes) : Option Line :=
  match text with
  | c :: equals :: v =>
    if equals ≠ 0x3D then none else some ⟨lineType c, v.rdropWhile sdpIsWs⟩
  | _ => none

def parseLine (s : Scan) (text : Bytes) : Except SdpErr Scan :=
  if text = [] then .ok s
  else
    match readLine text with
    | none => .error .line
    | some l => s.step l

def lineEnd (p : Bytes) : Bytes × Bytes :=
  match splitLine p with
  | none => (p, [])
  | some (line, _, rest) => (line, rest)

theorem lineEnd_length (present : p ≠ []) : (lineEnd p).2.length < p.length := by
  unfold lineEnd
  split
  · exact List.length_pos_iff.mpr present
  next split => exact splitLine_length split

def parseLines (s : Scan) (p : Bytes) : Except SdpErr Scan :=
  if _present : p = [] then .ok s
  else
    match parseLine s (lineEnd p).1 with
    | .error e => .error e
    | .ok s => parseLines s (lineEnd p).2
termination_by p.length
decreasing_by exact lineEnd_length _present

def sdpMsgParse (b : Bytes) : Except SdpErr SdpMsg :=
  if intMax < b.length then .error .inval
  else do
    let s ← parseLines {} b
    if s.gotV then .ok s.m else .error .version

def attrRange (m : SdpMsg) (media : Option SdpMedia) : Nat × Nat :=
  match media with
  | none => (0, m.attrCount)
  | some media => (media.attrOff, media.attrOff + media.attrCount)

def attrDir (a : SdpAttr) : Option SdpDir :=
  match a.id with
  | .sendrecv => some .sendrecv
  | .sendonly => some .sendonly
  | .recvonly => some .recvonly
  | .inactive => some .inactive
  | _ => none

def sectionDir (m : SdpMsg) (media : Option SdpMedia) : Option SdpDir :=
  let range := attrRange m media
  (slice m.attrs range.1 (range.2 - range.1)).findSome? attrDir

def sdpMediaDir (m : SdpMsg) (media : Option SdpMedia) : SdpDir :=
  let d := sectionDir m media
  let d := if d = none ∧ media ≠ none then sectionDir m none else d
  d.getD .sendrecv

def sdpMediaConn (m : SdpMsg) (media : Option SdpMedia) : Option SdpConn :=
  match media with
  | none => m.conn
  | some media => if media.conn.isSome then media.conn else m.conn

end Pro2Call.Sdp

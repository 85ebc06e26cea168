import Pro2Call.Gtp2.Wire

namespace Pro2Call.Gtp2

open Pro2Call.Data
open Pro2Call.Task

/-! The typed messages of the C++ facade. A `std::string` is its bytes; an
optional scalar is -1 when absent. -/

structure GtpError where
  what : String
  code : Int
  deriving DecidableEq, Repr

def gtpError (what : String) : GtpError where
  what := what
  code := 0

def text (s : Bytes) : String := String.ofList (s.map fun b => Char.ofNat b.toNat)

def throwGtp2 (code : Int) (doing : String) : GtpError where
  what := doing ++ ": " ++ (if code = gtp2EShort then "input truncated"
    else if code = gtp2EVersion then "not a GTPv2 message"
    else if code = gtp2ELength then "header length inconsistent"
    else if code = gtp2EOverflow then "write buffer too small"
    else if code = gtp2EInval then "invalid argument"
    else if code = gtp2EMissing then "mandatory IE absent"
    else "error")
  code := code

structure Inet where
  pton4 : Bytes → Option Bytes
  pton6 : Bytes → Option Bytes
  ntop4 : Bytes → Bytes
  ntop6 : Bytes → Bytes

def octet (v : Int) : UInt8 := .ofNat (v % 2 ^ 8).toNat

def bcdDigit (c : UInt8) : Except GtpError UInt8 :=
  if c < 0x30 ∨ c > 0x39 then .error (gtpError "BCD: non-digit character")
  else .ok (c - 0x30)

def bcdEncode : Bytes → Except GtpError Bytes
  | [] => .ok []
  | [lo] => do
      let lo ← bcdDigit lo
      return [lo ||| 0xF0]
  | lo :: hi :: rest => do
      let lo ← bcdDigit lo
      let hi ← bcdDigit hi
      let rest ← bcdEncode rest
      return (lo ||| (hi <<< 4)) :: rest

def bcdDecode : Bytes → Bytes
  | [] => []
  | b :: rest =>
    let lo := b &&& 0x0F
    let hi := b >>> 4
    if lo > 9 then []
    else if hi > 9 then [0x30 + lo]
    else (0x30 + lo) :: (0x30 + hi) :: bcdDecode rest

def apnLabel (label : Bytes) : Except GtpError Bytes :=
  if label.length = 0 ∨ label.length > 63 then
    .error (gtpError "APN: label length must be 1..63")
  else .ok (UInt8.ofNat label.length :: label)

def apnEncode (dotted : Bytes) : Except GtpError Bytes := do
  let labels ← (dotted.splitOn 0x2E).mapM apnLabel
  return labels.flatten

def apnDecodeFrom (first : Bool) : Bytes → Except GtpError Bytes
  | [] => .ok []
  | n :: rest =>
    if n = 0 ∨ n.toNat > rest.length then
      .error (gtpError "APN: malformed label encoding")
    else do
      let tail ← apnDecodeFrom false (rest.drop n.toNat)
      return (if first then [] else [0x2E]) ++ rest.take n.toNat ++ tail
termination_by labels => labels.length
decreasing_by
  simp only [List.length_drop, List.length_cons]
  omega

def apnDecode (labels : Bytes) : Except GtpError Bytes := apnDecodeFrom true labels

structure Fteid where
  ifType : UInt8 := 0
  teid : UInt32 := 0
  addr4 : Bytes := []
  addr6 : Bytes := []
  deriving DecidableEq, Repr

structure BearerQos where
  qci : UInt8 := 9
  pl : UInt8 := 15
  pci : UInt8 := 0
  pvi : UInt8 := 0
  mbrUl : UInt64 := 0
  mbrDl : UInt64 := 0
  gbrUl : UInt64 := 0
  gbrDl : UInt64 := 0
  deriving DecidableEq, Repr

structure Paa where
  pdnType : UInt8 := pdnIpv4
  addr4 : Bytes := []
  addr6 : Bytes := []
  prefixLen : UInt8 := 0
  deriving DecidableEq, Repr

structure Ambr where
  ulKbps : UInt32 := 0
  dlKbps : UInt32 := 0
  deriving DecidableEq, Repr

structure FteidEntry where
  inst : UInt8 := 0
  fteid : Fteid := {}
  deriving DecidableEq, Repr

structure BearerContext where
  inst : UInt8 := 0
  ebi : UInt8 := 5
  cause : Int := -1
  chargingId : Int := -1
  hasQos : Bool := false
  qos : BearerQos := {}
  tft : Bytes := []
  fteids : List FteidEntry := []
  deriving DecidableEq, Repr

def addr4Parse (inet : Inet) (s : Bytes) : Except GtpError Bytes :=
  match inet.pton4 s with
  | some addr => .ok addr
  | none => .error (gtpError ("bad IPv4 address: " ++ text s))

def addr6Parse (inet : Inet) (s : Bytes) : Except GtpError Bytes :=
  match inet.pton6 s with
  | some addr => .ok addr
  | none => .error (gtpError ("bad IPv6 address: " ++ text s))

def fteidToC (inet : Inet) (f : Fteid) : Except GtpError Gtp2Fteid := do
  let addr4 ← if f.addr4 ≠ [] then addr4Parse inet f.addr4 else pure (List.replicate 4 0)
  let addr6 ← if f.addr6 ≠ [] then addr6Parse inet f.addr6 else pure (List.replicate 16 0)
  if f.addr4 = [] ∧ f.addr6 = [] then
    throw (gtpError "F-TEID needs at least one of addr4/addr6")
  else
    return {
      v4 := f.addr4 ≠ []
      v6 := f.addr6 ≠ []
      ifType := f.ifType
      teid := f.teid
      addr4 := addr4
      addr6 := addr6 }

def fteidFromC (inet : Inet) (c : Gtp2Fteid) : Fteid where
  ifType := c.ifType
  teid := c.teid
  addr4 := if c.v4 then inet.ntop4 c.addr4 else []
  addr6 := if c.v6 then inet.ntop6 c.addr6 else []

def paaToC (inet : Inet) (p : Paa) : Except GtpError Gtp2Paa := do
  let addr4 ← if p.addr4 ≠ [] then addr4Parse inet p.addr4 else pure (List.replicate 4 0)
  let addr6 ← if p.addr6 ≠ [] then addr6Parse inet p.addr6 else pure (List.replicate 16 0)
  return {
    pdnType := p.pdnType
    prefixLen := p.prefixLen
    addr4 := addr4
    addr6 := addr6 }

def paaFromC (inet : Inet) (c : Gtp2Paa) : Paa where
  pdnType := c.pdnType
  prefixLen := c.prefixLen
  addr4 := if c.pdnType = pdnIpv4 ∨ c.pdnType = pdnIpv4v6 then inet.ntop4 c.addr4 else []
  addr6 := if c.pdnType = pdnIpv6 ∨ c.pdnType = pdnIpv4v6 then inet.ntop6 c.addr6 else []

def qosToC (q : BearerQos) : Gtp2BearerQos where
  pci := q.pci
  pl := q.pl
  pvi := q.pvi
  qci := q.qci
  mbrUl := q.mbrUl
  mbrDl := q.mbrDl
  gbrUl := q.gbrUl
  gbrDl := q.gbrDl

def qosFromC (c : Gtp2BearerQos) : BearerQos where
  pci := c.pci
  pl := c.pl
  pvi := c.pvi
  qci := c.qci
  mbrUl := c.mbrUl
  mbrDl := c.mbrDl
  gbrUl := c.gbrUl
  gbrDl := c.gbrDl

def ambrToC (a : Ambr) : Gtp2Ambr := ⟨a.ulKbps, a.dlKbps⟩

def ambrFromC (c : Gtp2Ambr) : Ambr := ⟨c.ulKbps, c.dlKbps⟩

def wireMax : Nat := 65552
def bcMaxFteid : Nat := 4
def csMaxBearers : Nat := 11

def scratchWbuf : TlvWbuf where
  buf := List.replicate wireMax 0
  cap := wireMax
  off := 0
  overflow := false

def writeHdr (w : TlvWbuf) (h : Gtp2Hdr) : Except GtpError TlvWbuf :=
  match gtp2HdrEncode w.buf w.off (w.cap - w.off) h with
  | .error rc => .error (throwGtp2 rc "encode header")
  | .ok (buf, hl) => .ok { w with buf := buf, off := w.off + hl }

def putHdr (w : TlvWbuf) (mt : UInt8) (teid seq : UInt32) : Except GtpError TlvWbuf :=
  writeHdr w {
    version := 0
    piggyback := false
    hasTeid := true
    hasMp := false
    messageType := mt
    length := 0
    teid := teid
    sequence := seq
    priority := 0 }

def finish (w : TlvWbuf) (hdrOff : Nat) (doing : String) : Except GtpError Bytes :=
  match gtp2HdrFinalize w hdrOff with
  | (w, rc) =>
    if rc ≠ gtp2Ok then .error (throwGtp2 rc doing) else .ok (w.buf.take w.off)

/-- The length is passed as a `uint16_t`. -/
def putBytes (w : TlvWbuf) (type inst : UInt8) (b : Bytes) : TlvWbuf :=
  if b ≠ [] then (gtp2IePut w type inst (b.take (b.length % 2 ^ 16))).1 else w

def putCause (w : TlvWbuf) (inst cause : UInt8) : TlvWbuf := (gtp2IePut w ieCause inst [cause, 0]).1

def putU8 (w : TlvWbuf) (type : UInt8) (v : UInt8) : TlvWbuf := (gtp2IePutU8 w type 0 v).1

def putFteid (inet : Inet) (w : TlvWbuf) (inst : UInt8) (f : Fteid) : Except GtpError TlvWbuf := do
  let c ← fteidToC inet f
  return (gtp2FteidPut w inst c).1

def putAmbr (w : TlvWbuf) (a : Ambr) : TlvWbuf := (gtp2AmbrPut w 0 (ambrToC a)).1

def putBearer (inet : Inet) (w : TlvWbuf) (b : BearerContext) : Except GtpError TlvWbuf := do
  if b.fteids.length > bcMaxFteid then
    throw (gtpError "bearer context: more than 4 F-TEIDs")
  else
    let (w, h) := gtp2IeBegin w ieBearerContext b.inst
    let w := putU8 w ieEbi (b.ebi &&& 0x0F)
    let w := if b.cause ≥ 0 then putCause w 0 (octet b.cause) else w
    let w := putBytes w ieBearerTft 0 b.tft
    let w := if b.hasQos then (gtp2BearerQosPut w 0 (qosToC b.qos)).1 else w
    let w ← b.fteids.foldlM (fun w fe => putFteid inet w fe.inst fe.fteid) w
    let w :=
      if b.chargingId ≥ 0 then
        (gtp2IePutU32 w ieChargingId 0 (.ofNat (b.chargingId % 2 ^ 32).toNat)).1
      else w
    return (gtp2IeEnd w h).1

def ieBytes (mem : Bytes) (v : Gtp2IeView) : Bytes := slice mem v.value v.len

def ieFirst (mem : Bytes) (v : Gtp2IeView) : UInt8 := mem.getD v.value 0

def ifOk (decoded : Except Int α) (keep : α → β) (otherwise : β) : β :=
  match decoded with
  | .ok value => keep value
  | .error _ => otherwise

def bearerStep (inet : Inet) (mem : Bytes) (b : BearerContext) (ie : Gtp2IeView) : BearerContext :=
  if ie.type = ieEbi then
    if ie.len ≠ 0 then { b with ebi := ieFirst mem ie &&& 0x0F } else b
  else if ie.type = ieCause then
    if ie.len ≠ 0 then { b with cause := (ieFirst mem ie).toNat } else b
  else if ie.type = ieBearerTft then { b with tft := ieBytes mem ie }
  else if ie.type = ieBearerQos then
    ifOk (gtp2BearerQosDecode mem ie) (fun q => { b with hasQos := true, qos := qosFromC q }) b
  else if ie.type = ieFteid then
    ifOk (gtp2FteidDecode mem ie) (fun f =>
        if b.fteids.length < bcMaxFteid then
          { b with fteids := b.fteids ++ [⟨ie.inst, fteidFromC inet f⟩] }
        else b) b
  else if ie.type = ieChargingId then
    if ie.len ≥ 4 then { b with chargingId := (be32Load mem ie.value).toNat } else b
  else b

def bearerFromView (inet : Inet) (mem : Bytes) (g : Gtp2IeView) : BearerContext :=
  (gtp2Ies mem g.value g.len).foldl (bearerStep inet mem) { inst := g.inst, ebi := 0 }

def addBearer (inet : Inet) (mem : Bytes) (v : Gtp2IeView)
    (bearers : List BearerContext) : List BearerContext :=
  if bearers.length < csMaxBearers then bearers ++ [bearerFromView inet mem v]
  else bearers

/-- Decode the header, rejecting the wrong message type; the top-level elements
are returned with it. -/
def openMsg (wire : Bytes) (wantMt : UInt8) (doing : String) :
    Except GtpError (Gtp2Hdr × List Gtp2IeView) :=
  match gtp2HdrDecode wire with
  | .error rc => .error (throwGtp2 rc doing)
  | .ok (h, hl) =>
    if h.messageType ≠ wantMt then .error (throwGtp2 gtp2EInval doing)
    else .ok (h, gtp2Ies wire hl (h.length.toNat + 4 - hl))

structure CreateSessionRequest where
  teid : UInt32 := 0
  sequence : UInt32 := 0
  imsi : Bytes := []
  msisdn : Bytes := []
  mei : Bytes := []
  uli : Bytes := []
  servingNetwork : Bytes := []
  pco : Bytes := []
  apn : Bytes := []
  ratType : UInt8 := ratEutran
  senderFteid : Fteid := {}
  hasPgwFteid : Bool := false
  pgwFteid : Fteid := {}
  selectionMode : Int := -1
  pdnType : Int := -1
  apnRestriction : Int := -1
  recovery : Int := -1
  chargingChar : Int := -1
  hasPaa : Bool := false
  paa : Paa := {}
  hasAmbr : Bool := false
  ambr : Ambr := {}
  bearers : List BearerContext := []
  deriving DecidableEq, Repr

def CreateSessionRequest.encode (inet : Inet) (m : CreateSessionRequest) :
    Except GtpError Bytes := do
  if m.apn = [] then
    throw ⟨"Create Session Request: APN is mandatory", gtp2EMissing⟩
  else if m.bearers = [] then
    throw ⟨"Create Session Request: a bearer context is mandatory", gtp2EMissing⟩
  else
    let w ← putHdr scratchWbuf mtCreateSessionRequest m.teid m.sequence
    let imsi ← bcdEncode m.imsi
    let msisdn ← bcdEncode m.msisdn
    let mei ← bcdEncode m.mei
    let apn ← apnEncode m.apn
    let w := putBytes w ieImsi 0 imsi
    let w := putBytes w ieMsisdn 0 msisdn
    let w := putBytes w ieMei 0 mei
    let w := putBytes w ieUli 0 m.uli
    let w := putBytes w ieServingNetwork 0 m.servingNetwork
    let w := putU8 w ieRatType m.ratType
    let w ← putFteid inet w 0 m.senderFteid
    let w ← if m.hasPgwFteid then putFteid inet w 1 m.pgwFteid else pure w
    let w := putBytes w ieApn 0 apn
    let w :=
      if m.selectionMode ≥ 0 then putU8 w ieSelectionMode (octet m.selectionMode &&& 0x03)
      else w
    let w := if m.pdnType ≥ 0 then putU8 w iePdnType (octet m.pdnType &&& 0x07) else w
    let w ←
      if m.hasPaa then do
        let p ← paaToC inet m.paa
        pure (gtp2PaaPut w 0 p).1
      else pure w
    let w :=
      if m.apnRestriction ≥ 0 then putU8 w ieApnRestriction (octet m.apnRestriction) else w
    let w := if m.hasAmbr then putAmbr w m.ambr else w
    let w := putBytes w iePco 0 m.pco
    let w ← m.bearers.foldlM (putBearer inet) w
    let w := if m.recovery ≥ 0 then putU8 w ieRecovery (octet m.recovery) else w
    let w :=
      if m.chargingChar ≥ 0 then
        (gtp2IePutU16 w ieChargingCharacteristics 0 (.ofNat (m.chargingChar % 2 ^ 16).toNat)).1
      else w
    finish w 0 "encode Create Session Request"

def createSessionRequestStep (inet : Inet) (mem : Bytes) (m : CreateSessionRequest)
    (v : Gtp2IeView) : Except GtpError CreateSessionRequest :=
  if v.type = ieImsi then .ok { m with imsi := bcdDecode (ieBytes mem v) }
  else if v.type = ieMsisdn then .ok { m with msisdn := bcdDecode (ieBytes mem v) }
  else if v.type = ieMei then .ok { m with mei := bcdDecode (ieBytes mem v) }
  else if v.type = ieUli then .ok { m with uli := ieBytes mem v }
  else if v.type = ieServingNetwork then .ok { m with servingNetwork := ieBytes mem v }
  else if v.type = ieRatType then
    .ok (if v.len ≠ 0 then { m with ratType := ieFirst mem v } else m)
  else if v.type = ieFteid then
    .ok (ifOk (gtp2FteidDecode mem v) (fun f =>
        if v.inst = 0 then { m with senderFteid := fteidFromC inet f }
        else if v.inst = 1 then
          { m with hasPgwFteid := true, pgwFteid := fteidFromC inet f }
        else m) m)
  else if v.type = ieApn then
    if v.len ≠ 0 then do
      let apn ← apnDecode (ieBytes mem v)
      return { m with apn := apn }
    else .ok m
  else if v.type = ieSelectionMode then
    .ok (if v.len ≠ 0 then { m with selectionMode := (ieFirst mem v &&& 0x03).toNat } else m)
  else if v.type = iePdnType then
    .ok (if v.len ≠ 0 then { m with pdnType := (ieFirst mem v &&& 0x07).toNat } else m)
  else if v.type = iePaa then
    .ok (ifOk (gtp2PaaDecode mem v) (fun p => { m with hasPaa := true, paa := paaFromC inet p }) m)
  else if v.type = ieApnRestriction then
    .ok (if v.len ≠ 0 then { m with apnRestriction := (ieFirst mem v).toNat } else m)
  else if v.type = ieAmbr then
    .ok (ifOk (gtp2AmbrDecode mem v) (fun a => { m with hasAmbr := true, ambr := ambrFromC a }) m)
  else if v.type = iePco then .ok { m with pco := ieBytes mem v }
  else if v.type = ieBearerContext then
    .ok { m with bearers := addBearer inet mem v m.bearers }
  else if v.type = ieRecovery then
    .ok (if v.len ≠ 0 then { m with recovery := (ieFirst mem v).toNat } else m)
  else if v.type = ieChargingCharacteristics then
    .ok (if v.len ≥ 2 then { m with chargingChar := (be16Load mem v.value).toNat } else m)
  else .ok m

def CreateSessionRequest.decode (inet : Inet) (wire : Bytes) :
    Except GtpError CreateSessionRequest := do
  let (h, ies) ← openMsg wire mtCreateSessionRequest "decode Create Session Request"
  let m ← ies.foldlM (createSessionRequestStep inet wire) { teid := h.teid, sequence := h.sequence }
  if m.apn = [] ∨ m.bearers = [] then
    throw ⟨"decode Create Session Request: mandatory IE absent", gtp2EMissing⟩
  else return m

structure CreateSessionResponse where
  teid : UInt32 := 0
  sequence : UInt32 := 0
  cause : UInt8 := causeRequestAccepted
  hasSenderFteid : Bool := false
  senderFteid : Fteid := {}
  hasPgwFteid : Bool := false
  pgwFteid : Fteid := {}
  hasPaa : Bool := false
  paa : Paa := {}
  hasAmbr : Bool := false
  ambr : Ambr := {}
  apnRestriction : Int := -1
  recovery : Int := -1
  pco : Bytes := []
  bearers : List BearerContext := []
  deriving DecidableEq, Repr

def createSessionResponseStep (inet : Inet) (mem : Bytes)
    (acc : CreateSessionResponse × Bool) (v : Gtp2IeView) :
    CreateSessionResponse × Bool :=
  let (m, haveCause) := acc
  if v.type = ieCause then
    if v.len ≠ 0 then ({ m with cause := ieFirst mem v }, true) else acc
  else if v.type = ieFteid then
    ifOk (gtp2FteidDecode mem v) (fun f =>
        if v.inst = 0 then
          ({ m with hasSenderFteid := true, senderFteid := fteidFromC inet f }, haveCause)
        else if v.inst = 1 then
          ({ m with hasPgwFteid := true, pgwFteid := fteidFromC inet f }, haveCause)
        else acc) acc
  else if v.type = iePaa then
    ifOk (gtp2PaaDecode mem v)
      (fun p => ({ m with hasPaa := true, paa := paaFromC inet p }, haveCause)) acc
  else if v.type = ieApnRestriction then
    if v.len ≠ 0 then ({ m with apnRestriction := (ieFirst mem v).toNat }, haveCause) else acc
  else if v.type = ieAmbr then
    ifOk (gtp2AmbrDecode mem v)
      (fun a => ({ m with hasAmbr := true, ambr := ambrFromC a }, haveCause)) acc
  else if v.type = iePco then ({ m with pco := ieBytes mem v }, haveCause)
  else if v.type = ieBearerContext then
    ({ m with bearers := addBearer inet mem v m.bearers }, haveCause)
  else if v.type = ieRecovery then
    if v.len ≠ 0 then ({ m with recovery := (ieFirst mem v).toNat }, haveCause) else acc
  else acc

def CreateSessionResponse.decode (inet : Inet) (wire : Bytes) :
    Except GtpError CreateSessionResponse := do
  let (h, ies) ← openMsg wire mtCreateSessionResponse "decode Create Session Response"
  let (m, haveCause) := ies.foldl (createSessionResponseStep inet wire)
    ({ teid := h.teid, sequence := h.sequence }, false)
  if haveCause then return m
  else throw ⟨"decode Create Session Response: Cause is mandatory", gtp2EMissing⟩

structure ModifyBearerRequest where
  teid : UInt32 := 0
  sequence : UInt32 := 0
  mei : Bytes := []
  uli : Bytes := []
  servingNetwork : Bytes := []
  ratType : Int := -1
  hasSenderFteid : Bool := false
  senderFteid : Fteid := {}
  hasAmbr : Bool := false
  ambr : Ambr := {}
  delayDlPn : Int := -1
  recovery : Int := -1
  bearers : List BearerContext := []
  deriving DecidableEq, Repr

def ModifyBearerRequest.encode (inet : Inet) (m : ModifyBearerRequest) : Except GtpError Bytes := do
  let w ← putHdr scratchWbuf mtModifyBearerRequest m.teid m.sequence
  let mei ← bcdEncode m.mei
  let w := putBytes w ieMei 0 mei
  let w := putBytes w ieUli 0 m.uli
  let w := putBytes w ieServingNetwork 0 m.servingNetwork
  let w := if m.ratType ≥ 0 then putU8 w ieRatType (octet m.ratType) else w
  let w ← if m.hasSenderFteid then putFteid inet w 0 m.senderFteid else pure w
  let w := if m.hasAmbr then putAmbr w m.ambr else w
  let w := if m.delayDlPn ≥ 0 then putU8 w ieDelayValue (octet m.delayDlPn) else w
  let w ← m.bearers.foldlM (putBearer inet) w
  let w := if m.recovery ≥ 0 then putU8 w ieRecovery (octet m.recovery) else w
  finish w 0 "encode Modify Bearer Request"

def modifyBearerRequestStep (inet : Inet) (mem : Bytes) (m : ModifyBearerRequest)
    (v : Gtp2IeView) : ModifyBearerRequest :=
  if v.type = ieMei then { m with mei := bcdDecode (ieBytes mem v) }
  else if v.type = ieUli then { m with uli := ieBytes mem v }
  else if v.type = ieServingNetwork then { m with servingNetwork := ieBytes mem v }
  else if v.type = ieRatType then
    if v.len ≠ 0 then { m with ratType := (ieFirst mem v).toNat } else m
  else if v.type = ieFteid then
    ifOk (gtp2FteidDecode mem v) (fun f =>
        if v.inst = 0 then
          { m with hasSenderFteid := true, senderFteid := fteidFromC inet f }
        else m) m
  else if v.type = ieAmbr then
    ifOk (gtp2AmbrDecode mem v) (fun a => { m with hasAmbr := true, ambr := ambrFromC a }) m
  else if v.type = ieDelayValue then
    if v.len ≠ 0 then { m with delayDlPn := (ieFirst mem v).toNat } else m
  else if v.type = ieBearerContext then
    { m with bearers := addBearer inet mem v m.bearers }
  else if v.type = ieRecovery then
    if v.len ≠ 0 then { m with recovery := (ieFirst mem v).toNat } else m
  else m

def ModifyBearerRequest.decode (inet : Inet) (wire : Bytes) :
    Except GtpError ModifyBearerRequest := do
  let (h, ies) ← openMsg wire mtModifyBearerRequest "decode Modify Bearer Request"
  return ies.foldl (modifyBearerRequestStep inet wire) { teid := h.teid, sequence := h.sequence }

structure ModifyBearerResponse where
  teid : UInt32 := 0
  sequence : UInt32 := 0
  cause : UInt8 := causeRequestAccepted
  msisdn : Bytes := []
  linkedEbi : Int := -1
  apnRestriction : Int := -1
  hasAmbr : Bool := false
  ambr : Ambr := {}
  recovery : Int := -1
  pco : Bytes := []
  bearers : List BearerContext := []
  deriving DecidableEq, Repr

def modifyBearerResponseStep (inet : Inet) (mem : Bytes)
    (acc : ModifyBearerResponse × Bool) (v : Gtp2IeView) :
    ModifyBearerResponse × Bool :=
  let (m, haveCause) := acc
  if v.type = ieCause then
    if v.len ≠ 0 then ({ m with cause := ieFirst mem v }, true) else acc
  else if v.type = ieMsisdn then
    ({ m with msisdn := bcdDecode (ieBytes mem v) }, haveCause)
  else if v.type = ieEbi then
    if v.len ≠ 0 then ({ m with linkedEbi := (ieFirst mem v &&& 0x0F).toNat }, haveCause)
    else acc
  else if v.type = ieApnRestriction then
    if v.len ≠ 0 then ({ m with apnRestriction := (ieFirst mem v).toNat }, haveCause) else acc
  else if v.type = ieAmbr then
    ifOk (gtp2AmbrDecode mem v)
      (fun a => ({ m with hasAmbr := true, ambr := ambrFromC a }, haveCause)) acc
  else if v.type = iePco then ({ m with pco := ieBytes mem v }, haveCause)
  else if v.type = ieBearerContext then
    ({ m with bearers := addBearer inet mem v m.bearers }, haveCause)
  else if v.type = ieRecovery then
    if v.len ≠ 0 then ({ m with recovery := (ieFirst mem v).toNat }, haveCause) else acc
  else acc

def ModifyBearerResponse.decode (inet : Inet) (wire : Bytes) :
    Except GtpError ModifyBearerResponse := do
  let (h, ies) ← openMsg wire mtModifyBearerResponse "decode Modify Bearer Response"
  let (m, haveCause) := ies.foldl (modifyBearerResponseStep inet wire)
    ({ teid := h.teid, sequence := h.sequence }, false)
  if haveCause then return m
  else throw ⟨"decode Modify Bearer Response: Cause is mandatory", gtp2EMissing⟩

structure DeleteSessionRequest where
  teid : UInt32 := 0
  sequence : UInt32 := 0
  uli : Bytes := []
  indication : Bytes := []
  pco : Bytes := []
  cause : Int := -1
  linkedEbi : Int := -1
  hasSenderFteid : Bool := false
  senderFteid : Fteid := {}
  deriving DecidableEq, Repr

def DeleteSessionRequest.encode (inet : Inet) (m : DeleteSessionRequest) :
    Except GtpError Bytes := do
  let w ← putHdr scratchWbuf mtDeleteSessionRequest m.teid m.sequence
  let w := if m.cause ≥ 0 then putCause w 0 (octet m.cause) else w
  let w := if m.linkedEbi ≥ 0 then putU8 w ieEbi (octet m.linkedEbi &&& 0x0F) else w
  let w := putBytes w ieUli 0 m.uli
  let w := putBytes w ieIndication 0 m.indication
  let w := putBytes w iePco 0 m.pco
  let w ← if m.hasSenderFteid then putFteid inet w 0 m.senderFteid else pure w
  finish w 0 "encode Delete Session Request"

def deleteSessionRequestStep (inet : Inet) (mem : Bytes) (m : DeleteSessionRequest)
    (v : Gtp2IeView) : DeleteSessionRequest :=
  if v.type = ieCause then
    if v.len ≠ 0 then { m with cause := (ieFirst mem v).toNat } else m
  else if v.type = ieEbi then
    if v.len ≠ 0 then { m with linkedEbi := (ieFirst mem v &&& 0x0F).toNat } else m
  else if v.type = ieUli then { m with uli := ieBytes mem v }
  else if v.type = ieIndication then { m with indication := ieBytes mem v }
  else if v.type = iePco then { m with pco := ieBytes mem v }
  else if v.type = ieFteid then
    ifOk (gtp2FteidDecode mem v) (fun f =>
        if v.inst = 0 then
          { m with hasSenderFteid := true, senderFteid := fteidFromC inet f }
        else m) m
  else m

def DeleteSessionRequest.decode (inet : Inet) (wire : Bytes) :
    Except GtpError DeleteSessionRequest := do
  let (h, ies) ← openMsg wire mtDeleteSessionRequest "decode Delete Session Request"
  return ies.foldl (deleteSessionRequestStep inet wire) { teid := h.teid, sequence := h.sequence }

structure DeleteSessionResponse where
  teid : UInt32 := 0
  sequence : UInt32 := 0
  cause : UInt8 := causeRequestAccepted
  recovery : Int := -1
  pco : Bytes := []
  deriving DecidableEq, Repr

def deleteSessionResponseStep (mem : Bytes) (acc : DeleteSessionResponse × Bool)
    (v : Gtp2IeView) : DeleteSessionResponse × Bool :=
  let (m, haveCause) := acc
  if v.type = ieCause then
    if v.len ≠ 0 then ({ m with cause := ieFirst mem v }, true) else acc
  else if v.type = ieRecovery then
    if v.len ≠ 0 then ({ m with recovery := (ieFirst mem v).toNat }, haveCause) else acc
  else if v.type = iePco then ({ m with pco := ieBytes mem v }, haveCause)
  else acc

def DeleteSessionResponse.decode (wire : Bytes) : Except GtpError DeleteSessionResponse := do
  let (h, ies) ← openMsg wire mtDeleteSessionResponse "decode Delete Session Response"
  let (m, haveCause) := ies.foldl (deleteSessionResponseStep wire)
    ({ teid := h.teid, sequence := h.sequence }, false)
  if haveCause then return m
  else throw ⟨"decode Delete Session Response: Cause is mandatory", gtp2EMissing⟩

structure CreateBearerRequest where
  teid : UInt32 := 0
  sequence : UInt32 := 0
  pti : Int := -1
  linkedEbi : Int := -1
  hasAmbr : Bool := false
  ambr : Ambr := {}
  pco : Bytes := []
  bearers : List BearerContext := []
  deriving DecidableEq, Repr

def createBearerRequestStep (inet : Inet) (mem : Bytes) (m : CreateBearerRequest)
    (v : Gtp2IeView) : CreateBearerRequest :=
  if v.type = iePti then
    if v.len ≠ 0 then { m with pti := (ieFirst mem v).toNat } else m
  else if v.type = ieEbi then
    if v.len ≠ 0 then { m with linkedEbi := (ieFirst mem v &&& 0x0F).toNat } else m
  else if v.type = ieAmbr then
    ifOk (gtp2AmbrDecode mem v) (fun a => { m with hasAmbr := true, ambr := ambrFromC a }) m
  else if v.type = iePco then { m with pco := ieBytes mem v }
  else if v.type = ieBearerContext then
    { m with bearers := addBearer inet mem v m.bearers }
  else m

def CreateBearerRequest.decode (inet : Inet) (wire : Bytes) :
    Except GtpError CreateBearerRequest := do
  let (h, ies) ← openMsg wire mtCreateBearerRequest "decode Create Bearer Request"
  return ies.foldl (createBearerRequestStep inet wire) { teid := h.teid, sequence := h.sequence }

structure Ie where
  type : UInt8
  inst : UInt8
  value : Bytes
  children : List Ie
  deriving Repr

structure RawMessage where
  messageType : UInt8
  hasTeid : Bool
  teid : UInt32
  sequence : UInt32
  piggyback : Bool
  ies : List Ie
  deriving Repr

def isGrouped (type : UInt8) : Bool :=
  type == ieBearerContext || type == iePdnConnection ||
    type == ieOverloadControlInformation || type == ieLoadControlInformation ||
    type == ieRemoteUeContext

def walkIes (mem : Bytes) (pos len : Nat) : List Ie :=
  match _read : gtp2IeIterNext (gtp2IeIterInit mem pos len) with
  | none => []
  | some (v, next) =>
    { type := v.type
      inst := v.inst
      value := ieBytes mem v
      children := if isGrouped v.type then walkIes mem v.value v.len else [] } ::
      walkIes mem next.cur (next.stop - next.cur)
termination_by len
decreasing_by
  · exact (gtp2IeIterNext_advance _read).1
  · exact (gtp2IeIterNext_advance _read).2

def RawMessage.decode (wire : Bytes) : Except GtpError RawMessage :=
  match gtp2HdrDecode wire with
  | .error rc => .error (throwGtp2 rc "decode header")
  | .ok (h, hl) =>
    let total := h.length.toNat + 4
    if total > wire.length ∨ total < hl then
      .error (throwGtp2 gtp2ELength "decode message")
    else
      .ok {
        messageType := h.messageType
        hasTeid := h.hasTeid
        teid := h.teid
        sequence := h.sequence
        piggyback := h.piggyback
        ies := walkIes wire hl (total - hl) }

mutual
def putIe (w : TlvWbuf) : Ie → TlvWbuf
  | ⟨type, inst, value, []⟩ =>
    (gtp2IePut w type inst (value.take (value.length % 2 ^ 16))).1
  | ⟨type, inst, _, child :: children⟩ =>
    let (w, h) := gtp2IeBegin w type inst
    (gtp2IeEnd (putIes (putIe w child) children) h).1

def putIes (w : TlvWbuf) : List Ie → TlvWbuf
  | [] => w
  | ie :: rest => putIes (putIe w ie) rest
end

def RawMessage.encode (m : RawMessage) : Except GtpError Bytes := do
  let w ← writeHdr scratchWbuf {
    version := 0
    piggyback := false
    hasTeid := m.hasTeid
    hasMp := false
    messageType := m.messageType
    length := 0
    teid := m.teid
    sequence := m.sequence
    priority := 0 }
  finish (putIes w m.ies) 0 "encode message"

end Pro2Call.Gtp2

import Pro2Call.Task.Endian
import Pro2Call.Task.Tlv

namespace Pro2Call.Gtp2

open Pro2Call.Data
open Pro2Call.Task

/-! The GTPv2-C codec: the message header, information elements on top of the
generic type-length-value codec, and the structured elements. -/

abbrev Bytes := List UInt8

def gtp2Ok : Int := 0
def gtp2EShort : Int := -1
def gtp2EVersion : Int := -2
def gtp2ELength : Int := -3
def gtp2EOverflow : Int := -4
def gtp2EInval : Int := -5
def gtp2EMissing : Int := -6

def gtp2Version : UInt8 := 2
def gtp2HdrFixedLen : Nat := 8
def gtp2HdrWithTeid : Nat := 12

def mtEchoRequest : UInt8 := 1
def mtEchoResponse : UInt8 := 2
def mtCreateSessionRequest : UInt8 := 32
def mtCreateSessionResponse : UInt8 := 33
def mtModifyBearerRequest : UInt8 := 34
def mtModifyBearerResponse : UInt8 := 35
def mtDeleteSessionRequest : UInt8 := 36
def mtDeleteSessionResponse : UInt8 := 37
def mtCreateBearerRequest : UInt8 := 95
def ieImsi : UInt8 := 1
def ieCause : UInt8 := 2
def ieRecovery : UInt8 := 3
def ieApn : UInt8 := 71
def ieAmbr : UInt8 := 72
def ieEbi : UInt8 := 73
def ieMei : UInt8 := 75
def ieMsisdn : UInt8 := 76
def ieIndication : UInt8 := 77
def iePco : UInt8 := 78
def iePaa : UInt8 := 79
def ieBearerQos : UInt8 := 80
def ieRatType : UInt8 := 82
def ieServingNetwork : UInt8 := 83
def ieBearerTft : UInt8 := 84
def ieUli : UInt8 := 86
def ieFteid : UInt8 := 87
def ieDelayValue : UInt8 := 92
def ieBearerContext : UInt8 := 93
def ieChargingId : UInt8 := 94
def ieChargingCharacteristics : UInt8 := 95
def iePdnType : UInt8 := 99
def iePti : UInt8 := 100
def iePdnConnection : UInt8 := 109
def ieApnRestriction : UInt8 := 127
def ieSelectionMode : UInt8 := 128
def ieOverloadControlInformation : UInt8 := 180
def ieLoadControlInformation : UInt8 := 181
def ieRemoteUeContext : UInt8 := 191

def causeRequestAccepted : UInt8 := 16
def ifS11Mme : UInt8 := 10
def ratEutran : UInt8 := 6
def pdnIpv4 : UInt8 := 1
def pdnIpv6 : UInt8 := 2
def pdnIpv4v6 : UInt8 := 3

def gtp2TlvErr (rc : Int) : Int :=
  if rc = tlvOk then gtp2Ok
  else if rc = tlvEOverflow then gtp2EOverflow
  else gtp2EInval

structure Gtp2Hdr where
  version : UInt8
  piggyback : Bool
  hasTeid : Bool
  hasMp : Bool
  messageType : UInt8
  length : UInt16
  teid : UInt32
  sequence : UInt32
  priority : UInt8
  deriving DecidableEq, Repr

def gtp2HdrDecode (buf : Bytes) : Except Int (Gtp2Hdr × Nat) :=
  if buf.length < gtp2HdrFixedLen then .error gtp2EShort
  else
    let flags := buf.getD 0 0
    let version := (flags >>> 5) &&& 0x07
    let hasTeid := flags &&& 0x08 != 0
    let hasMp := flags &&& 0x04 != 0
    let length := be16Load buf 2
    if version ≠ gtp2Version then .error gtp2EVersion
    else
      let hdrLen := if hasTeid then gtp2HdrWithTeid else gtp2HdrFixedLen
      if buf.length < hdrLen then .error gtp2EShort
      else
        let total := length.toNat + 4
        if total > buf.length then .error gtp2ELength
        else if total < hdrLen then .error gtp2ELength
        else
          let p := if hasTeid then 8 else 4
          .ok ({
            version := version
            piggyback := flags &&& 0x10 != 0
            hasTeid := hasTeid
            hasMp := hasMp
            messageType := buf.getD 1 0
            length := length
            teid := if hasTeid then be32Load buf 4 else 0
            sequence := be24Load buf p
            priority := if hasMp then (buf.getD (p + 3) 0 >>> 4) &&& 0x0F else 0 },
            hdrLen)

def gtp2HdrBytes (hdr : Gtp2Hdr) : Bytes :=
  let flags := (gtp2Version <<< 5) ||| (if hdr.piggyback then 0x10 else 0) |||
    (if hdr.hasTeid then 0x08 else 0) ||| (if hdr.hasMp then 0x04 else 0)
  [flags, hdr.messageType] ++ beBytes 2 hdr.length.toNat ++
    (if hdr.hasTeid then beBytes 4 hdr.teid.toNat else []) ++
    beBytes 3 (hdr.sequence.toNat % 2 ^ 24) ++
    [if hdr.hasMp then (hdr.priority &&& 0x0F) <<< 4 else 0]

/-- Encode at position `pos`, with `cap` bytes of room from there; the header
length is returned with the buffer. -/
def gtp2HdrEncode (mem : Bytes) (pos cap : Nat) (hdr : Gtp2Hdr) : Except Int (Bytes × Nat) :=
  let hdrLen := if hdr.hasTeid then gtp2HdrWithTeid else gtp2HdrFixedLen
  if cap < hdrLen then .error gtp2EOverflow
  else .ok (splice mem pos (gtp2HdrBytes hdr), hdrLen)

structure Gtp2IeView where
  type : UInt8
  inst : UInt8
  len : Nat
  value : Nat
  deriving DecidableEq, Repr

def gtp2IeIterInit (mem : Bytes) (payload len : Nat) : TlvIter where
  mem := mem
  cur := payload
  stop := payload + len
  prof := tlvProfGtp2c

def gtp2IeIterNext (it : TlvIter) : Option (Gtp2IeView × TlvIter) :=
  match tlvIterNext it with
  | none => none
  | some (v, next) =>
    some ({
      type := .ofNat v.type
      inst := v.metaOctet &&& 0x0F
      len := v.len % 2 ^ 16
      value := v.value }, next)

theorem gtp2IeIterNext_some {pos len : Nat} {next : TlvIter}
    (read : gtp2IeIterNext (gtp2IeIterInit mem pos len) = some (v, next)) :
    v.value = pos + 4 ∧ v.len + 4 ≤ len ∧ pos + 4 + v.len ≤ next.cur ∧ next.stop = pos + len := by
  simp only [gtp2IeIterNext, tlvIterNext, gtp2IeIterInit, tlvProfGtp2c, tlvAlign,
    Nat.add_sub_cancel_left, Bool.false_eq_true, false_and, if_false,
    Nat.lt_irrefl] at read
  split at read
  · cases read
  next entry moved found =>
    split at found
    · cases found
    split at found
    · cases found
    next header room =>
      cases found
      cases read
      simp only [true_and, and_true]
      omega

theorem gtp2IeIterNext_advance {pos len : Nat} {next : TlvIter}
    (read : gtp2IeIterNext (gtp2IeIterInit mem pos len) = some (v, next)) :
    v.len < len ∧ next.stop - next.cur < len := by
  have step := gtp2IeIterNext_some read
  omega

def gtp2Ies (mem : Bytes) (pos len : Nat) : List Gtp2IeView :=
  match _read : gtp2IeIterNext (gtp2IeIterInit mem pos len) with
  | none => []
  | some (v, next) => v :: gtp2Ies mem next.cur (next.stop - next.cur)
termination_by len
decreasing_by exact (gtp2IeIterNext_advance _read).2

def gtp2IePut (w : TlvWbuf) (type inst : UInt8) (val : Bytes) : TlvWbuf × Int :=
  match tlvPut w tlvProfGtp2c type.toNat (inst &&& 0x0F) val with
  | (w, rc) => (w, gtp2TlvErr rc)

def gtp2IePutU8 (w : TlvWbuf) (type inst v : UInt8) : TlvWbuf × Int := gtp2IePut w type inst [v]

def gtp2IePutU16 (w : TlvWbuf) (type inst : UInt8) (v : UInt16) : TlvWbuf × Int :=
  gtp2IePut w type inst (beBytes 2 v.toNat)

def gtp2IePutU32 (w : TlvWbuf) (type inst : UInt8) (v : UInt32) : TlvWbuf × Int :=
  gtp2IePut w type inst (beBytes 4 v.toNat)

def gtp2IeBegin (w : TlvWbuf) (type inst : UInt8) : TlvWbuf × Int :=
  match tlvBegin w tlvProfGtp2c type.toNat (inst &&& 0x0F) with
  | (w, h) => if h < 0 then (w, gtp2TlvErr h) else (w, h)

def gtp2IeEnd (w : TlvWbuf) (handle : Int) : TlvWbuf × Int :=
  match tlvEnd w tlvProfGtp2c handle with
  | (w, rc) => (w, gtp2TlvErr rc)

def gtp2HdrFinalize (w : TlvWbuf) (hdrOff : Nat) : TlvWbuf × Int :=
  if w.overflow then (w, gtp2EOverflow)
  else if hdrOff + gtp2HdrFixedLen > w.off then (w, gtp2EInval)
  else
    let total := w.off - hdrOff
    if total < 4 then (w, gtp2EInval)
    else if total - 4 > 0xFFFF then (w, gtp2EOverflow)
    else
      ({ w with buf := splice w.buf (hdrOff + 2) (beBytes 2 (total - 4)) }, gtp2Ok)

structure Gtp2Fteid where
  v4 : Bool
  v6 : Bool
  ifType : UInt8
  teid : UInt32
  addr4 : Bytes
  addr6 : Bytes
  deriving DecidableEq, Repr

def gtp2FteidDecode (mem : Bytes) (ie : Gtp2IeView) : Except Int Gtp2Fteid :=
  if ie.len < 5 then .error gtp2EShort
  else
    let flags := mem.getD ie.value 0
    let v4 := flags &&& 0x80 != 0
    let v6 := flags &&& 0x40 != 0
    if v4 ∧ ie.len < 5 + 4 then .error gtp2EShort
    else
      let n := if v4 then 5 + 4 else 5
      if v6 ∧ ie.len < n + 16 then .error gtp2EShort
      else
        .ok {
          v4 := v4
          v6 := v6
          ifType := flags &&& 0x3F
          teid := be32Load mem (ie.value + 1)
          addr4 := if v4 then slice mem (ie.value + 5) 4 else List.replicate 4 0
          addr6 := if v6 then slice mem (ie.value + n) 16 else List.replicate 16 0 }

def gtp2FteidPut (w : TlvWbuf) (inst : UInt8) (f : Gtp2Fteid) : TlvWbuf × Int :=
  if f.v4 = false ∧ f.v6 = false then (w, gtp2EInval)
  else
    gtp2IePut w ieFteid inst ([(if f.v4 then 0x80 else 0) ||| (if f.v6 then 0x40 else 0) |||
          (f.ifType &&& 0x3F)] ++ beBytes 4 f.teid.toNat ++
        (if f.v4 then f.addr4 else []) ++ (if f.v6 then f.addr6 else []))

structure Gtp2BearerQos where
  pci : UInt8
  pl : UInt8
  pvi : UInt8
  qci : UInt8
  mbrUl : UInt64
  mbrDl : UInt64
  gbrUl : UInt64
  gbrDl : UInt64
  deriving DecidableEq, Repr

def gtp2BearerQosDecode (mem : Bytes) (ie : Gtp2IeView) : Except Int Gtp2BearerQos :=
  if ie.len < 22 then .error gtp2EShort
  else
    let first := mem.getD ie.value 0
    .ok {
      pci := (first >>> 6) &&& 0x01
      pl := (first >>> 2) &&& 0x0F
      pvi := first &&& 0x01
      qci := mem.getD (ie.value + 1) 0
      mbrUl := be40Load mem (ie.value + 2)
      mbrDl := be40Load mem (ie.value + 7)
      gbrUl := be40Load mem (ie.value + 12)
      gbrDl := be40Load mem (ie.value + 17) }

def gtp2BearerQosPut (w : TlvWbuf) (inst : UInt8) (q : Gtp2BearerQos) : TlvWbuf × Int :=
  gtp2IePut w ieBearerQos inst
    ([((q.pci &&& 0x01) <<< 6) ||| ((q.pl &&& 0x0F) <<< 2) ||| (q.pvi &&& 0x01),
        q.qci] ++ beBytes 5 q.mbrUl.toNat ++ beBytes 5 q.mbrDl.toNat ++
      beBytes 5 q.gbrUl.toNat ++ beBytes 5 q.gbrDl.toNat)

structure Gtp2Paa where
  pdnType : UInt8
  prefixLen : UInt8
  addr4 : Bytes
  addr6 : Bytes
  deriving DecidableEq, Repr

def gtp2PaaDecode (mem : Bytes) (ie : Gtp2IeView) : Except Int Gtp2Paa :=
  if ie.len < 1 then .error gtp2EShort
  else
    let pdnType := mem.getD ie.value 0 &&& 0x07
    let out : Gtp2Paa := {
      pdnType := pdnType
      prefixLen := 0
      addr4 := List.replicate 4 0
      addr6 := List.replicate 16 0 }
    if pdnType = pdnIpv4 then
      if ie.len < 5 then .error gtp2EShort
      else .ok { out with addr4 := slice mem (ie.value + 1) 4 }
    else if pdnType = pdnIpv6 then
      if ie.len < 18 then .error gtp2EShort
      else
        .ok { out with
          prefixLen := mem.getD (ie.value + 1) 0
          addr6 := slice mem (ie.value + 2) 16 }
    else if pdnType = pdnIpv4v6 then
      if ie.len < 22 then .error gtp2EShort
      else
        .ok { out with
          prefixLen := mem.getD (ie.value + 1) 0
          addr6 := slice mem (ie.value + 2) 16
          addr4 := slice mem (ie.value + 18) 4 }
    else .error gtp2EInval

def gtp2PaaPut (w : TlvWbuf) (inst : UInt8) (p : Gtp2Paa) : TlvWbuf × Int :=
  let first := p.pdnType &&& 0x07
  if p.pdnType = pdnIpv4 then gtp2IePut w iePaa inst ([first] ++ p.addr4)
  else if p.pdnType = pdnIpv6 then
    gtp2IePut w iePaa inst ([first, p.prefixLen] ++ p.addr6)
  else if p.pdnType = pdnIpv4v6 then
    gtp2IePut w iePaa inst ([first, p.prefixLen] ++ p.addr6 ++ p.addr4)
  else (w, gtp2EInval)

structure Gtp2Ambr where
  ulKbps : UInt32
  dlKbps : UInt32
  deriving DecidableEq, Repr

def gtp2AmbrDecode (mem : Bytes) (ie : Gtp2IeView) : Except Int Gtp2Ambr :=
  if ie.len < 8 then .error gtp2EShort
  else .ok ⟨be32Load mem ie.value, be32Load mem (ie.value + 4)⟩

def gtp2AmbrPut (w : TlvWbuf) (inst : UInt8) (a : Gtp2Ambr) : TlvWbuf × Int :=
  gtp2IePut w ieAmbr inst (beBytes 4 a.ulKbps.toNat ++ beBytes 4 a.dlKbps.toNat)

end Pro2Call.Gtp2

import Pro2Call.Gtpu.Encap

namespace Pro2Call.Gtpu

open Pro2Call.Data

/-! The decapsulation program: check the outer headers of an arriving frame,
look up its TEID, check the inner packet and strip what stands in front of it.
A frame that is not the program's business is passed on as it arrived. -/

def gtpuMtEndMarker : UInt8 := 0xFE
def gtpuFSeq : UInt8 := 0x02
def gtpuFNpdu : UInt8 := 0x01
def gtpuExtMaxHops : Nat := 5
def gtpuStatsMask : UInt32 := 4095

inductive GtpuEventKind where
  | unknownTeid
  | endMarker
  | malformed
  | abiMismatch
  deriving DecidableEq, Repr

structure GtpuEvent where
  kind : GtpuEventKind
  teid : UInt32
  srcFamily : UInt8
  srcPort : UInt16
  srcAddr : Vector UInt8 16
  deriving DecidableEq, Repr

inductive GtpuStat where
  | rxPkts
  | rxBytes
  | errUnknownTeid
  | errMalformed
  | errRingbufFull
  | errAbi
  deriving DecidableEq, Repr

structure StatAdd where
  slot : UInt32
  stat : GtpuStat
  amount : Nat
  deriving DecidableEq, Repr

def statsSlot (teid : UInt32) : UInt32 := teid &&& gtpuStatsMask

inductive AdjRoomDecap where
  | same
  | l3Ipv4
  | l3Ipv6
  deriving DecidableEq, Repr

/-- What the program depends on: whether the ring buffer has room for an event,
and whether the kernel takes `size` bytes away behind the Ethernet header. -/
structure DecapEnv where
  ringbufReserve : Bool
  adjustRoom : List UInt8 → Nat → AdjRoomDecap → Bool

inductive TcAct where
  | ok
  | shot
  | redirect (ifindex : UInt32)
  deriving DecidableEq, Repr

structure DecapOutcome where
  act : TcAct
  frame : List UInt8
  events : List GtpuEvent
  stats : List StatAdd
  deriving DecidableEq, Repr

def csum16 (buf : List UInt8) (seed : Nat) : Nat := foldCarry (foldCarry (seed + leWordSum buf))

structure OuterPacket where
  udpOff : Nat
  srcFamily : UInt8
  srcAddr : Vector UInt8 16
  deriving DecidableEq, Repr

inductive OuterParse where
  | pass
  | drop
  | outer (packet : OuterPacket)
  deriving DecidableEq, Repr

def parseOuter4 (skb : SkBuff) : OuterParse :=
  if ethHlen + sizeofIphdr > skb.linear then .pass
  else
    let first := (skb.bytes.getD 14 0).toNat
    if first / 16 ≠ 4 ∨ first % 16 ≠ 5 then .pass
    else if skb.bytes.getD 23 0 ≠ ipprotoUdp then .pass
    else if beNat (slice skb.bytes 20 2) &&& 0x3fff ≠ 0 then .pass
    else if csum16 (slice skb.bytes 14 20) 0 ≠ 0xffff then .drop
    else
      .outer {
        udpOff := ethHlen + sizeofIphdr
        srcFamily := afInet
        srcAddr := addr16 (slice skb.bytes 26 4) }

def parseOuter6 (skb : SkBuff) : OuterParse :=
  if ethHlen + sizeofIpv6hdr > skb.linear then .pass
  else if skb.bytes.getD 20 0 ≠ ipprotoUdp then .pass
  else
    .outer {
      udpOff := ethHlen + sizeofIpv6hdr
      srcFamily := afInet6
      srcAddr := addr16 (slice skb.bytes 22 16) }

def parseOuter (skb : SkBuff) : OuterParse :=
  if ethHlen > skb.linear then .pass
  else if beNat (slice skb.bytes 12 2) = ethPIp then parseOuter4 skb
  else if beNat (slice skb.bytes 12 2) = ethPIpv6 then parseOuter6 skb
  else .pass

def extWalk (frame : List UInt8) : Nat → Nat → UInt8 → Option Nat
  | 0, off, next => if next = 0 then some off else none
  | hops + 1, off, next =>
    if next = 0 then some off
    else
      match frame[off]? with
      | none => none
      | some extlen =>
        if extlen = 0 then none
        else
          match frame[off + extlen.toNat * 4 - 1]? with
          | none => none
          | some next => extWalk frame hops (off + extlen.toNat * 4) next

/-- Where the inner packet begins; `none` when the optional part is cut off,
malformed or too long. -/
def payloadOff (frame : List UInt8) (gtpuOff : Nat) (flags : UInt8) : Option Nat :=
  if flags &&& (gtpuFExt ||| gtpuFSeq ||| gtpuFNpdu) ≠ 0 then
    if flags &&& gtpuFExt ≠ 0 then
      match frame[gtpuOff + 11]? with
      | none => none
      | some next => extWalk frame gtpuExtMaxHops (gtpuOff + gtpuHdrMin + gtpuHdrOpt) next
    else some (gtpuOff + gtpuHdrMin + gtpuHdrOpt)
  else some (gtpuOff + gtpuHdrMin)

/-- The check of an inner packet against the entry of its TEID: the family it is
delivered as, or `none` when it is malformed. -/
def innerFamily (frame : List UInt8) (off : Nat) (tun : GtpuRxTun) : Option UInt8 :=
  if off ≥ frame.length then none
  else
    let innerVer := (frame.getD off 0).toNat / 16
    let family :=
      if tun.innerFamily = afUnspec then if innerVer = 6 then afInet6 else afInet
      else tun.innerFamily
    let unchecked := tun.innerAddr = Vector.replicate 16 0
    if family = afInet then
      if innerVer ≠ 4 ∨ frame.length - off < sizeofIphdr then none
      else if unchecked then some family
      else if skbLoadBytes frame (off + 16) 4 = some (tun.innerAddr.toList.take 4) then
        some family
      else none
    else if innerVer ≠ 6 ∨ frame.length - off < sizeofIpv6hdr then none
    else if unchecked then some family
    else if skbLoadBytes frame (off + 24) 16 = some tun.innerAddr.toList then some family
    else none

structure DecapSource where
  family : UInt8
  addr : Vector UInt8 16
  port : UInt16

def reported (env : DecapEnv) (act : TcAct) (frame : List UInt8)
    (kind : GtpuEventKind) (teid : UInt32) (source : DecapSource)
    (stat : Option GtpuStat) : DecapOutcome :=
  let counted := stat.toList.map fun stat => StatAdd.mk (statsSlot teid) stat 1
  if env.ringbufReserve then
    { act := act
      frame := frame
      events := [{
        kind := kind
        teid := teid
        srcFamily := source.family
        srcPort := source.port
        srcAddr := source.addr }]
      stats := counted }
  else
    { act := act
      frame := frame
      events := []
      stats := counted ++ [⟨statsSlot teid, .errRingbufFull, 1⟩] }

def untouched (act : TcAct) (frame : List UInt8) : DecapOutcome where
  act := act
  frame := frame
  events := []
  stats := []

def decapInner (env : DecapEnv) (frame : List UInt8) (off : Nat) (teid : UInt32)
    (source : DecapSource) (tun : GtpuRxTun) : DecapOutcome :=
  match innerFamily frame off tun with
  | none => reported env .shot frame .malformed teid source (some .errMalformed)
  | some family =>
    let decap :=
      if family ≠ source.family then
        if family = afInet6 then AdjRoomDecap.l3Ipv6 else .l3Ipv4
      else .same
    if env.adjustRoom frame (off - ethHlen) decap = false then
      reported env .shot frame .malformed teid source (some .errMalformed)
    else
      let stripped := frame.take ethHlen ++ frame.drop off
      let proto := if family = afInet then ethPIp else ethPIpv6
      match skbStoreBytes stripped 12 (beBytes 2 proto) with
      | none => untouched .shot stripped
      | some delivered =>
        { act := if tun.ifindex ≠ 0 then .redirect tun.ifindex else .ok
          frame := delivered
          events := []
          stats := [⟨statsSlot teid, .rxPkts, 1⟩, ⟨statsSlot teid, .rxBytes, frame.length - off⟩] }

def decapMessage (env : DecapEnv) (rx : BoundedMap UInt32 GtpuRxTun)
    (frame : List UInt8) (gtpuOff : Nat) (source : DecapSource) : DecapOutcome :=
  match skbLoadBytes frame gtpuOff gtpuHdrMin with
  | none => untouched .ok frame
  | some g =>
    let flags := g.getD 0 0
    let msgType := g.getD 1 0
    let teid := UInt32.ofNat (beNat (slice g 4 4))
    if flags &&& 0xf0 ≠ gtpuFVersionPt then untouched .ok frame
    else if msgType = gtpuMtEndMarker then
      reported env .ok frame .endMarker teid source none
    else if msgType ≠ gtpuMtGpdu then untouched .ok frame
    else
      match payloadOff frame gtpuOff flags with
      | none => untouched .ok frame
      | some off =>
        match rx.lookup teid with
        | none =>
          reported env .ok frame .unknownTeid teid source (some .errUnknownTeid)
        | some tun => decapInner env frame off teid source tun

def gtpuDecap (env : DecapEnv) (rx : BoundedMap UInt32 GtpuRxTun)
    (config : Option GtpuConfig) (skb : SkBuff) : DecapOutcome :=
  match parseOuter skb with
  | .pass => untouched .ok skb.bytes
  | .drop => untouched .shot skb.bytes
  | .outer outer =>
    match skbLoadBytes skb.bytes outer.udpOff sizeofUdphdr with
    | none => untouched .ok skb.bytes
    | some udp =>
      if beNat (slice udp 2 2) ≠ gtpuPort.toNat then untouched .ok skb.bytes
      else
        let source : DecapSource := {
          family := outer.srcFamily
          addr := outer.srcAddr
          port := UInt16.ofNat (leNat (slice udp 0 2)) }
        if (config.all fun cfg => cfg.abiVersion ≠ gtpuAbiVersion) then
          reported env .shot skb.bytes .abiMismatch 0 source (some .errAbi)
        else
          decapMessage env rx skb.bytes (outer.udpOff + sizeofUdphdr) source

end Pro2Call.Gtpu

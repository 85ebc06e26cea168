import Pro2Call.Gtpu.Abi
import Pro2Call.Data.OnesComplement

namespace Pro2Call.Gtpu

open Pro2Call.Data

/-! The encapsulation program: classify an outgoing packet, build the outer
headers in front of it and redirect the frame to the uplink. Frames are byte
strings from the Ethernet header on; words loaded from them in place keep the
byte order of a little-endian host. -/

def ethHlen : Nat := 14
def ethPIp : Nat := 0x0800
def ethPIpv6 : Nat := 0x86DD
def ipprotoTcp : UInt8 := 6
def ipprotoUdp : UInt8 := 17
def ipprotoFragment : UInt8 := 44
def ipprotoSctp : UInt8 := 132

def sizeofIphdr : Nat := 20
def sizeofIpv6hdr : Nat := 40
def sizeofUdphdr : Nat := 8

def gtpuAbiVersion : UInt32 := 2
def gtpuMtGpdu : UInt8 := 0xFF
def gtpuFVersionPt : UInt8 := 0x30
def gtpuFExt : UInt8 := 0x04
def gtpuHdrMin : Nat := 8
def gtpuHdrOpt : Nat := 4
def gtpuExtPduSession : UInt8 := 0x85
def gtpuExtNone : UInt8 := 0x00

/-- A socket buffer: the frame, of which the first `linear` bytes are open to
direct access. -/
structure SkBuff where
  bytes : List UInt8
  linear : Nat
  ifindex : UInt32
  linear_le : linear ≤ bytes.length

def SkBuff.ofBytes (bytes : List UInt8) : SkBuff where
  bytes := bytes
  linear := bytes.length
  ifindex := 1
  linear_le := Nat.le_refl bytes.length

def skbLoadBytes (frame : List UInt8) (off len : Nat) : Option (List UInt8) :=
  if off + len ≤ frame.length then some (slice frame off len) else none

def skbStoreBytes (frame : List UInt8) (off : Nat) (source : List UInt8) : Option (List UInt8) :=
  if off + source.length ≤ frame.length then some (splice frame off source)
  else none

structure BpfFibLookup where
  family : UInt8
  ifindex : UInt32
  totLen : Nat
  src : List UInt8
  dst : List UInt8

structure BpfFibResult where
  smac : Vector UInt8 6
  dmac : Vector UInt8 6
  ifindex : UInt32

/-- The kernel helpers the program calls. A checksum helper that succeeds adds
its buffer to the seed in one's complement; growing a frame puts `size` bytes
of unspecified contents behind the Ethernet header. -/
structure BpfHelpers where
  csumDiff : List UInt8 → Nat → Option Nat
  csumDiff_sum {source : List UInt8} {seed sum : Nat} :
    csumDiff source seed = some sum → sum < 2 ^ 32 ∧ SameOnes sum (leWordSum source + seed)
  fibLookup : BpfFibLookup → Option BpfFibResult
  adjustRoom : List UInt8 → Nat → Option (List UInt8)
  adjustRoom_length {frame room : List UInt8} {size : Nat} :
    adjustRoom frame size = some room → room.length = size

def softHelpers : BpfHelpers where
  csumDiff source seed :=
    let sum := leWordSum source + seed
    some (if sum = 0 then 0 else (sum - 1) % 65535 + 1)
  csumDiff_sum := by
    intro source seed sum computed
    obtain rfl := Option.some.inj computed
    generalize leWordSum source + seed = total
    refine ⟨by split <;> omega, ?_⟩
    constructor <;> split <;> omega
  fibLookup _ := none
  adjustRoom _ size := some (List.replicate size 0)
  adjustRoom_length := by
    intro frame room size grown
    rw [← Option.some.inj grown, List.length_replicate]

structure GtpuConfig where
  abiVersion : UInt32
  uplinkIfindex : UInt32
  localV4 : Vector UInt8 4
  localV6 : Vector UInt8 16
  deriving DecidableEq, Repr

def addr16 (bytes : List UInt8) : Vector UInt8 16 := Vector.ofFn fun index => bytes.getD index 0

structure InnerPacket where
  family : UInt8
  proto : UInt8
  ueAddr : Vector UInt8 16
  innerSaddr : Vector UInt8 16
  l4Off : Nat
  innerL4Len : Nat
  fragId : Nat
  fragHead : Bool
  fragTail : Bool
  deriving DecidableEq, Repr

def parseInner4 (skb : SkBuff) : Option InnerPacket :=
  if ethHlen + sizeofIphdr > skb.linear then none
  else
    let first := (skb.bytes.getD 14 0).toNat
    let ihl := first % 16
    if first / 16 ≠ 4 ∨ ihl < 5 then none
    else
      let ihlBytes := ihl * 4
      let fragOff := beNat (slice skb.bytes 20 2)
      let tot := beNat (slice skb.bytes 16 2)
      let fragment := decide (fragOff &&& 0x3fff ≠ 0)
      let offset := decide (fragOff &&& 0x1fff ≠ 0)
      some {
        family := afInet
        proto := skb.bytes.getD 23 0
        ueAddr := addr16 (slice skb.bytes 30 4)
        innerSaddr := addr16 (slice skb.bytes 26 4)
        l4Off := if offset then 0 else ethHlen + ihlBytes
        innerL4Len := if fragment then 0 else tot - ihlBytes
        fragId := if fragment then leNat (slice skb.bytes 18 2) else 0
        fragHead := fragment && !offset
        fragTail := fragment && offset }

def parseInner6 (skb : SkBuff) : Option InnerPacket :=
  if ethHlen + sizeofIpv6hdr > skb.linear then none
  else
    let proto := skb.bytes.getD 20 0
    let ueAddr := addr16 (slice skb.bytes 38 16)
    let innerSaddr := addr16 (slice skb.bytes 22 16)
    if proto = ipprotoFragment then
      match skbLoadBytes skb.bytes (ethHlen + sizeofIpv6hdr) 8 with
      | none => none
      | some fh =>
        let tail := decide (beNat (slice fh 2 2) &&& 0xfff8 ≠ 0)
        some {
          family := afInet6
          proto := fh.getD 0 0
          ueAddr := ueAddr
          innerSaddr := innerSaddr
          l4Off := if tail then 0 else ethHlen + sizeofIpv6hdr + 8
          innerL4Len := 0
          fragId := leNat (slice fh 4 4)
          fragHead := !tail
          fragTail := tail }
    else
      some {
        family := afInet6
        proto := proto
        ueAddr := ueAddr
        innerSaddr := innerSaddr
        l4Off := ethHlen + sizeofIpv6hdr
        innerL4Len := beNat (slice skb.bytes 18 2)
        fragId := 0
        fragHead := false
        fragTail := false }

def parseInner (skb : SkBuff) : Option InnerPacket :=
  if ethHlen > skb.linear then none
  else if beNat (slice skb.bytes 12 2) = ethPIp then parseInner4 skb
  else if beNat (slice skb.bytes 12 2) = ethPIpv6 then parseInner6 skb
  else none

structure InnerAccepted (inner : InnerPacket) : Prop where
  head : inner.fragHead = true → inner.fragTail = false
  tail : inner.l4Off = 0 ↔ inner.fragTail = true
  l4 : inner.l4Off = 0 ∨ ethHlen ≤ inner.l4Off ∧ inner.l4Off % 2 = 0

theorem parseInner4_accepted {inner : InnerPacket} (parsed : parseInner4 skb = some inner) :
    InnerAccepted inner ∧ inner.family = afInet ∧ ethHlen + sizeofIphdr ≤ skb.bytes.length := by
  have linear := skb.linear_le
  unfold parseInner4 at parsed
  dsimp only at parsed
  split at parsed
  · cases parsed
  split at parsed
  · cases parsed
  obtain rfl := Option.some.inj parsed
  refine ⟨?_, rfl, by omega⟩
  generalize beNat (slice skb.bytes 20 2) = fragOff
  have fragment (offset : fragOff &&& 0x1fff ≠ 0) : fragOff &&& 0x3fff ≠ 0 := by
    intro whole
    have within : fragOff &&& 0x1fff = (fragOff &&& 0x3fff) &&& 0x1fff := by
      rw [Nat.and_assoc]
      rfl
    exact offset (by rw [within, whole, Nat.zero_and])
  by_cases offset : fragOff &&& 0x1fff ≠ 0
  · have part := fragment offset
    constructor <;> simp [offset, part]
  · constructor
    · simp [offset]
    · simp [offset, ethHlen]
    · simp only [offset, decide_false, Bool.false_eq_true, if_false, ethHlen]
      omega

theorem parseInner6_accepted {inner : InnerPacket} (parsed : parseInner6 skb = some inner) :
    InnerAccepted inner ∧ inner.family = afInet6 ∧ ethHlen + sizeofIpv6hdr ≤ skb.bytes.length := by
  have linear := skb.linear_le
  unfold parseInner6 at parsed
  dsimp only at parsed
  split at parsed
  · cases parsed
  split at parsed
  · split at parsed
    · cases parsed
    rename_i fh _
    obtain rfl := Option.some.inj parsed
    refine ⟨?_, rfl, by omega⟩
    by_cases tail : beNat (slice fh 2 2) &&& 0xfff8 ≠ 0
    · constructor <;> simp [tail]
    · constructor <;> simp [tail, ethHlen, sizeofIpv6hdr]
  · obtain rfl := Option.some.inj parsed
    refine ⟨?_, rfl, by omega⟩
    constructor <;> simp [ethHlen, sizeofIpv6hdr]

theorem parseInner_accepted {inner : InnerPacket} (parsed : parseInner skb = some inner) :
    InnerAccepted inner ∧ ((beNat (slice skb.bytes 12 2) = ethPIp ∧ inner.family = afInet ∧
          ethHlen + sizeofIphdr ≤ skb.bytes.length) ∨
        (beNat (slice skb.bytes 12 2) = ethPIpv6 ∧ inner.family = afInet6 ∧
          ethHlen + sizeofIpv6hdr ≤ skb.bytes.length)) := by
  unfold parseInner at parsed
  split at parsed
  · cases parsed
  split at parsed
  · rename_i v4
    obtain ⟨accepted, facts⟩ := parseInner4_accepted parsed
    exact ⟨accepted, .inl ⟨v4, facts⟩⟩
  split at parsed
  · rename_i v6
    obtain ⟨accepted, facts⟩ := parseInner6_accepted parsed
    exact ⟨accepted, .inr ⟨v6, facts⟩⟩
  · cases parsed

/-- The ports of the inner packet, first the UE's and then the remote one; a
packet without an L4 header has none. -/
def innerPorts (frame : List UInt8) (inner : InnerPacket) : UInt16 × UInt16 :=
  if inner.l4Off ≠ 0 ∧ (inner.proto = ipprotoTcp ∨ inner.proto = ipprotoUdp ∨
      inner.proto = ipprotoSctp) then
    match skbLoadBytes frame inner.l4Off 4 with
    | none => (0, 0)
    | some ports =>
      (UInt16.ofNat (leNat (slice ports 2 2)), UInt16.ofNat (leNat (slice ports 0 2)))
  else (0, 0)

def tftProbePorts (tft : BoundedMap GtpuTftKey GtpuTxTun) (k : GtpuTftKey)
    (uePort remotePort : UInt16) : Option GtpuTxTun :=
  tft.lookup { k with uePort := uePort, remotePort := remotePort } <|> (if remotePort ≠ 0 then
      tft.lookup { k with uePort := uePort, remotePort := 0 }
    else none) <|>
    (if uePort ≠ 0 then
      tft.lookup { k with uePort := 0, remotePort := remotePort }
    else none) <|>
    (if uePort ≠ 0 ∨ remotePort ≠ 0 then
      tft.lookup { k with uePort := 0, remotePort := 0 }
    else none)

def lpmLookup (trie : LpmTrie) (prefixlen : Nat) (addr : List UInt8) : Option GtpuTxTun :=
  (List.range (prefixlen + 1)).reverse.findSome? fun length =>
    trie.lookup (lpmPrefix length addr)

def txClassify (maps : ForwardingMaps) (family : UInt8)
    (ueAddr ueSaddr : Vector UInt8 16) (proto : UInt8)
    (uePort remotePort : UInt16) : Option GtpuTxTun :=
  let k : GtpuTftKey := {
    family := family
    proto := proto
    uePort := 0
    remotePort := 0
    ueAddr := ueAddr
    ueSaddr := ueSaddr }
  tftProbePorts maps.tft k uePort remotePort <|>
    tftProbePorts maps.tft { k with ueSaddr := Vector.replicate 16 0 } uePort remotePort <|>
    (if family = afInet then lpmLookup maps.tx4 32 (ueAddr.toList.take 4)
    else lpmLookup maps.tx6 128 ueAddr.toList)

structure GtpuFragKey where
  family : UInt8
  proto : UInt8
  id : Nat
  saddr : Vector UInt8 16
  daddr : Vector UInt8 16
  deriving DecidableEq, Repr

def InnerPacket.fragKey (inner : InnerPacket) : GtpuFragKey where
  family := inner.family
  proto := inner.proto
  id := inner.fragId
  saddr := inner.innerSaddr
  daddr := inner.ueAddr

/-- The map of fragment heads, which evicts nothing. -/
abbrev TxFragMap := GtpuFragKey → Option GtpuTxTun

def TxFragMap.update (frag : TxFragMap) (key : GtpuFragKey) (tun : GtpuTxTun) : TxFragMap :=
  fun other => if other = key then some tun else frag other

/-- The tunnel of a packet: a fragment after the first follows its head, and
whatever has no head on record is classified by what it carries. -/
def selectTunnel (maps : ForwardingMaps) (frag : TxFragMap)
    (frame : List UInt8) (inner : InnerPacket) : Option GtpuTxTun :=
  let ports := innerPorts frame inner
  (if inner.fragTail then frag inner.fragKey else none) <|>
    txClassify maps inner.family inner.ueAddr inner.innerSaddr inner.proto ports.1 ports.2

def csumChunk : Nat := 64
def csumChunks : Nat := 32
def csumMaxLen : Nat := csumChunk * csumChunks

def csumPktRange (helpers : BpfHelpers) (frame : List UInt8) :
    Nat → Nat → Nat → Nat → Option Nat
  | 0, _, _, sum => some sum
  | chunks + 1, off, remain, sum =>
    if remain = 0 then some sum
    else
      let n := if remain > csumChunk then csumChunk else remain
      match skbLoadBytes frame off n with
      | none => none
      | some loaded =>
        let chunk := loaded ++ List.replicate (csumChunk - n) 0
        match helpers.csumDiff chunk sum with
        | none => none
        | some sum =>
          csumPktRange helpers frame chunks (off + n) (remain - n) sum

/-- The checksum of a pseudo header and a packet range, before the value zero
is given a meaning. -/
def csumComplement (helpers : BpfHelpers) (frame pseudo : List UInt8)
    (off len : Nat) : Option Nat :=
  match helpers.csumDiff pseudo 0 with
  | none => none
  | some sum =>
    match csumPktRange helpers frame csumChunks off len sum with
    | none => none
    | some sum => some (65535 - foldCarry (foldCarry sum))

structure EncapRoute where
  smac : Vector UInt8 6
  dmac : Vector UInt8 6
  oif : UInt32

def gtpuLen (tun : GtpuTxTun) : Nat :=
  if tun.flags &&& gtpuTxfQfi ≠ 0 then gtpuHdrMin + (gtpuHdrOpt + 4)
  else gtpuHdrMin

def udpLen (tun : GtpuTxTun) (innerLen : Nat) : Nat := sizeofUdphdr + gtpuLen tun + innerLen

def outerL3 (tun : GtpuTxTun) : Nat :=
  if tun.outerFamily = afInet then sizeofIphdr else sizeofIpv6hdr

def outerLen (tun : GtpuTxTun) : Nat := outerL3 tun + sizeofUdphdr + gtpuLen tun

def encapRoute (helpers : BpfHelpers) (cfg : GtpuConfig) (tun : GtpuTxTun)
    (skb : SkBuff) (innerLen : Nat) : EncapRoute :=
  let oif := if tun.ifindex ≠ 0 then tun.ifindex else cfg.uplinkIfindex
  let fixed : EncapRoute := { smac := tun.srcMac, dmac := tun.dstMac, oif := oif }
  if tun.flags &&& gtpuTxfStaticMac ≠ 0 then fixed
  else
    let v4 := decide (tun.outerFamily = afInet)
    match helpers.fibLookup {
        family := tun.outerFamily
        ifindex := if oif ≠ 0 then oif else skb.ifindex
        totLen := (udpLen tun innerLen + outerL3 tun) % 2 ^ 16
        src := if v4 then cfg.localV4.toList else cfg.localV6.toList
        dst :=
          if v4 then tun.remoteAddr.toList.take 4 else tun.remoteAddr.toList } with
    | none => fixed
    | some fib => { smac := fib.smac, dmac := fib.dmac, oif := fib.ifindex }

def ethHeader (tun : GtpuTxTun) (route : EncapRoute) : List UInt8 :=
  route.dmac.toList ++ route.smac.toList ++
    beBytes 2 (if tun.outerFamily = afInet then ethPIp else ethPIpv6)

def outerIp4 (cfg : GtpuConfig) (tun : GtpuTxTun) (totLen : Nat)
    (check : List UInt8) : List UInt8 :=
  [0x45, 0] ++ beBytes 2 totLen ++ [0, 0, 0, 0, 64, ipprotoUdp] ++ check ++
    cfg.localV4.toList ++ tun.remoteAddr.toList.take 4

def outerIp4Header (cfg : GtpuConfig) (tun : GtpuTxTun) (innerLen : Nat) : List UInt8 :=
  let totLen := outerL3 tun + udpLen tun innerLen
  let sum := leWordSum (outerIp4 cfg tun totLen [0, 0])
  outerIp4 cfg tun totLen (leBytes 2 (65535 - foldCarry (foldCarry sum)))

def outerIp6Header (cfg : GtpuConfig) (tun : GtpuTxTun) (innerLen : Nat) : List UInt8 :=
  [0x60, 0, 0, 0] ++ beBytes 2 (udpLen tun innerLen) ++ [ipprotoUdp, 64] ++
    cfg.localV6.toList ++ tun.remoteAddr.toList

def outerUdp (tun : GtpuTxTun) (innerLen : Nat) (check : List UInt8) : List UInt8 :=
  beBytes 2 gtpuPort.toNat ++ leBytes 2 tun.remotePort.toNat ++
    beBytes 2 (udpLen tun innerLen) ++ check

def outerUdpHeader (tun : GtpuTxTun) (innerLen : Nat) : List UInt8 := outerUdp tun innerLen [0, 0]

def gtpuHeader (tun : GtpuTxTun) (innerLen : Nat) : List UInt8 :=
  if tun.flags &&& gtpuTxfQfi ≠ 0 then
    [gtpuFVersionPt ||| gtpuFExt, gtpuMtGpdu] ++ beBytes 2 (innerLen + gtpuHdrOpt + 4) ++
      beBytes 4 tun.remoteTeid.toNat ++
      [0, 0, 0, gtpuExtPduSession, 1, 0, tun.qfi &&& 0x3f, gtpuExtNone]
  else
    [gtpuFVersionPt, gtpuMtGpdu] ++ beBytes 2 innerLen ++ beBytes 4 tun.remoteTeid.toNat

def pseudoHeader6 (src dst : List UInt8) (len : Nat) (nexthdr : UInt8) : List UInt8 :=
  src ++ dst ++ beBytes 4 len ++ [0, 0, 0, nexthdr]

def pseudoHeader4 (src dst : List UInt8) (proto : UInt8) (len : Nat) : List UInt8 :=
  src ++ dst ++ [0, proto] ++ beBytes 2 len

def outerChecksum (helpers : BpfHelpers) (cfg : GtpuConfig) (tun : GtpuTxTun)
    (innerLen : Nat) (frame : List UInt8) : Option (List UInt8) :=
  if tun.outerFamily = afInet then some frame
  else
    let pseudo := pseudoHeader6 cfg.localV6.toList tun.remoteAddr.toList
      (udpLen tun innerLen) ipprotoUdp
    match csumComplement helpers frame pseudo (ethHlen + outerL3 tun)
        (udpLen tun innerLen) with
    | none => none
    | some check =>
      let check := if check = 0 then 0xffff else check
      skbStoreBytes frame (ethHlen + outerL3 tun + 6) (leBytes 2 check)

def InnerPacket.finished (inner : InnerPacket) : Prop :=
  inner.l4Off ≠ 0 ∧ (inner.proto = ipprotoUdp ∨ inner.proto = ipprotoTcp) ∧
    (if inner.proto = ipprotoUdp then sizeofUdphdr else 20) ≤ inner.innerL4Len ∧
    inner.innerL4Len ≤ csumMaxLen

instance (inner : InnerPacket) : Decidable inner.finished := by
  unfold InnerPacket.finished
  infer_instance

def InnerPacket.checkOff (inner : InnerPacket) : Nat :=
  if inner.proto = ipprotoUdp then 6 else 16

def InnerPacket.pseudo (inner : InnerPacket) : List UInt8 :=
  if inner.family = afInet then
    pseudoHeader4 (inner.innerSaddr.toList.take 4) (inner.ueAddr.toList.take 4)
      inner.proto inner.innerL4Len
  else
    pseudoHeader6 inner.innerSaddr.toList inner.ueAddr.toList inner.innerL4Len inner.proto

def innerChecksum (helpers : BpfHelpers) (inner : InnerPacket) (grown : Nat)
    (frame : List UInt8) : Option (List UInt8) :=
  if inner.finished then
    let l4 := inner.l4Off + grown
    let ck := l4 + inner.checkOff
    match skbStoreBytes frame ck [0, 0] with
    | none => none
    | some frame =>
      match csumComplement helpers frame inner.pseudo l4 inner.innerL4Len with
      | none => none
      | some icheck =>
        let icheck :=
          if inner.proto = ipprotoUdp ∧ icheck = 0 then 0xffff else icheck
        skbStoreBytes frame ck (leBytes 2 icheck)
  else some frame

def encapFrame (helpers : BpfHelpers) (cfg : GtpuConfig) (tun : GtpuTxTun)
    (route : EncapRoute) (inner : InnerPacket) (bytes : List UInt8) :
    Option (List UInt8) := do
  let innerLen := bytes.length - ethHlen
  let room ← helpers.adjustRoom bytes (outerLen tun)
  let frame := bytes.take ethHlen ++ room ++ bytes.drop ethHlen
  let frame ← skbStoreBytes frame 0 (ethHeader tun route)
  let frame ← skbStoreBytes frame ethHlen
    (if tun.outerFamily = afInet then outerIp4Header cfg tun innerLen
    else outerIp6Header cfg tun innerLen)
  let frame ← skbStoreBytes frame (ethHlen + outerL3 tun) (outerUdpHeader tun innerLen)
  let frame ← skbStoreBytes frame (ethHlen + outerL3 tun + sizeofUdphdr) (gtpuHeader tun innerLen)
  let frame ← outerChecksum helpers cfg tun innerLen frame
  innerChecksum helpers inner (outerLen tun) frame

inductive TcVerdict where
  | ok
  | shot
  | redirect (ifindex : UInt32) (frame : List UInt8)
  deriving DecidableEq, Repr

def encapTunnel (helpers : BpfHelpers) (config : Option GtpuConfig)
    (skb : SkBuff) (inner : InnerPacket) (tun : GtpuTxTun) : TcVerdict :=
  match config with
  | none => .shot
  | some cfg =>
    if cfg.abiVersion ≠ gtpuAbiVersion then .shot
    else
      let innerLen := skb.bytes.length - ethHlen
      let route := encapRoute helpers cfg tun skb innerLen
      if route.dmac = Vector.replicate 6 0 ∨ route.oif = 0 then .shot
      else if tun.outerFamily ≠ afInet ∧ udpLen tun innerLen > csumMaxLen then .ok
      else
        match encapFrame helpers cfg tun route inner skb.bytes with
        | none => .shot
        | some frame => .redirect route.oif frame

def gtpuEncap (helpers : BpfHelpers) (maps : ForwardingMaps)
    (config : Option GtpuConfig) (frag : TxFragMap) (skb : SkBuff) :
    TxFragMap × TcVerdict :=
  match parseInner skb with
  | none => (frag, .ok)
  | some inner =>
    match selectTunnel maps frag skb.bytes inner with
    | none => (frag, .ok)
    | some tun =>
      let frag :=
        if inner.fragHead then frag.update inner.fragKey tun else frag
      (frag, encapTunnel helpers config skb inner tun)

def encapHeaders (cfg : GtpuConfig) (tun : GtpuTxTun) (route : EncapRoute)
    (innerLen : Nat) : List UInt8 :=
  ethHeader tun route ++ (if tun.outerFamily = afInet then outerIp4Header cfg tun innerLen
    else outerIp6Header cfg tun innerLen) ++
    outerUdpHeader tun innerLen ++ gtpuHeader tun innerLen

@[simp] theorem length_ethHeader (tun : GtpuTxTun) (route : EncapRoute) :
    (ethHeader tun route).length = ethHlen := by
  simp [ethHeader, ethHlen]

@[simp] theorem length_outerIp6Header (cfg : GtpuConfig) (tun : GtpuTxTun) (innerLen : Nat) :
    (outerIp6Header cfg tun innerLen).length = sizeofIpv6hdr := by
  simp [outerIp6Header, sizeofIpv6hdr]

@[simp] theorem length_outerIp4Header (cfg : GtpuConfig) (tun : GtpuTxTun) (innerLen : Nat) :
    (outerIp4Header cfg tun innerLen).length = sizeofIphdr := by
  simp [outerIp4Header, outerIp4, sizeofIphdr]

theorem length_outerL3Header (cfg : GtpuConfig) (tun : GtpuTxTun) (innerLen : Nat) :
    (if tun.outerFamily = afInet then outerIp4Header cfg tun innerLen
      else outerIp6Header cfg tun innerLen).length = outerL3 tun := by
  unfold outerL3
  split
  · exact length_outerIp4Header cfg tun innerLen
  · exact length_outerIp6Header cfg tun innerLen

@[simp] theorem length_outerUdpHeader (tun : GtpuTxTun) (innerLen : Nat) :
    (outerUdpHeader tun innerLen).length = sizeofUdphdr := by
  simp [outerUdpHeader, outerUdp, sizeofUdphdr]

@[simp] theorem length_gtpuHeader (tun : GtpuTxTun) (innerLen : Nat) :
    (gtpuHeader tun innerLen).length = gtpuLen tun := by
  unfold gtpuHeader gtpuLen
  split <;> simp [gtpuHdrMin, gtpuHdrOpt]

theorem length_encapHeaders (cfg : GtpuConfig) (tun : GtpuTxTun)
    (route : EncapRoute) (innerLen : Nat) :
    (encapHeaders cfg tun route innerLen).length = ethHlen + outerLen tun := by
  simp only [encapHeaders, List.length_append, length_ethHeader,
    length_outerL3Header, length_outerUdpHeader, length_gtpuHeader, outerLen]
  omega

theorem skbStoreBytes_replace (front : List UInt8) {old new : List UInt8}
    (sized : new.length = old.length) (tail : List UInt8) (position : off = front.length) :
    skbStoreBytes (front ++ old ++ tail) off new = some (front ++ new ++ tail) := by
  have fits : front.length + new.length ≤ (front ++ old ++ tail).length := by
    simp only [List.length_append]
    omega
  rw [position, skbStoreBytes, if_pos fits, List.append_assoc,
    splice_append_length, sized, List.drop_left]

theorem exists_append_of_length {bytes : List UInt8} (sized : bytes.length = first + second) :
    ∃ front rest, bytes = front ++ rest ∧ front.length = first ∧ rest.length = second := by
  refine ⟨bytes.take first, bytes.drop first, ?_, ?_, ?_⟩
  · rw [List.take_append_drop]
  · rw [List.length_take, sized]
    omega
  · rw [List.length_drop, sized]
    omega

theorem skbStoreBytes_headers {mac room eth l3 udp gtpu : List UInt8}
    (macLength : eth.length = mac.length)
    (roomLength : room.length = l3.length + (udp.length + gtpu.length))
    (rest : List UInt8) (l3At : l3Off = eth.length) (udpAt : udpOff = eth.length + l3.length)
    (gtpuAt : gtpuOff = eth.length + l3.length + udp.length) :
    ((skbStoreBytes (mac ++ room ++ rest) 0 eth).bind fun frame =>
      (skbStoreBytes frame l3Off l3).bind fun frame =>
        (skbStoreBytes frame udpOff udp).bind fun frame =>
          skbStoreBytes frame gtpuOff gtpu) =
      some (eth ++ l3 ++ udp ++ gtpu ++ rest) := by
  obtain ⟨l3Room, others, rfl, l3Sized, othersSized⟩ := exists_append_of_length roomLength
  obtain ⟨udpRoom, gtpuRoom, rfl, udpSized, gtpuSized⟩ := exists_append_of_length othersSized
  have ethStored := skbStoreBytes_replace [] macLength
    (l3Room ++ (udpRoom ++ gtpuRoom) ++ rest) List.length_nil.symm
  have l3Stored := skbStoreBytes_replace eth l3Sized.symm (udpRoom ++ gtpuRoom ++ rest) l3At
  have udpStored := skbStoreBytes_replace (eth ++ l3) udpSized.symm
    (gtpuRoom ++ rest) (udpAt.trans List.length_append.symm)
  have gtpuStored := skbStoreBytes_replace (eth ++ l3 ++ udp) gtpuSized.symm
    rest (gtpuAt.trans (by simp [Nat.add_assoc]))
  simp only [List.nil_append, List.append_assoc] at *
  rw [ethStored, Option.bind_some, l3Stored, Option.bind_some, udpStored,
    Option.bind_some, gtpuStored]

theorem encapFrame_eq (helpers : BpfHelpers) (cfg : GtpuConfig)
    (tun : GtpuTxTun) (route : EncapRoute) (inner : InnerPacket)
    {bytes : List UInt8} (long : ethHlen ≤ bytes.length) :
    encapFrame helpers cfg tun route inner bytes =
      (helpers.adjustRoom bytes (outerLen tun)).bind fun _ =>
        (outerChecksum helpers cfg tun (bytes.length - ethHlen)
          (encapHeaders cfg tun route (bytes.length - ethHlen) ++
            bytes.drop ethHlen)).bind fun frame =>
          innerChecksum helpers inner (outerLen tun) frame := by
  cases grown : helpers.adjustRoom bytes (outerLen tun) with
  | none => simp [encapFrame, grown]
  | some room =>
    have roomLength := helpers.adjustRoom_length grown
    have l3Length := length_outerL3Header cfg tun (bytes.length - ethHlen)
    have stored :
        ((skbStoreBytes (bytes.take ethHlen ++ room ++ bytes.drop ethHlen) 0
            (ethHeader tun route)).bind fun frame =>
          (skbStoreBytes frame ethHlen (if tun.outerFamily = afInet then
              outerIp4Header cfg tun (bytes.length - ethHlen)
            else outerIp6Header cfg tun (bytes.length - ethHlen))).bind
            fun frame =>
          (skbStoreBytes frame (ethHlen + outerL3 tun)
            (outerUdpHeader tun (bytes.length - ethHlen))).bind fun frame =>
          skbStoreBytes frame (ethHlen + outerL3 tun + sizeofUdphdr)
            (gtpuHeader tun (bytes.length - ethHlen))) =
        some (encapHeaders cfg tun route (bytes.length - ethHlen) ++ bytes.drop ethHlen) := by
      apply skbStoreBytes_headers
      · rw [length_ethHeader, List.length_take, Nat.min_eq_left long]
      · rw [roomLength, l3Length, length_outerUdpHeader, length_gtpuHeader, outerLen, Nat.add_assoc]
      · rw [length_ethHeader]
      · rw [length_ethHeader, l3Length]
      · rw [length_ethHeader, l3Length, length_outerUdpHeader]
    have finished := congrArg (fun frame => frame.bind fun frame =>
      (outerChecksum helpers cfg tun (bytes.length - ethHlen) frame).bind
        fun frame => innerChecksum helpers inner (outerLen tun) frame) stored
    simpa only [encapFrame, grown, bind, Option.bind_assoc, Option.bind_some] using finished

end Pro2Call.Gtpu

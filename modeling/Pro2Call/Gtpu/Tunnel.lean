import Pro2Call.Gtpu.EncapLengths
import Pro2Call.Gtpu.Decap

namespace Pro2Call.Gtpu

open Pro2Call.Data

/-! Two ends of a tunnel over IPv4: what one end encapsulates, the other end
strips to the inner packet. -/

def InnerPacket.checkField (inner : InnerPacket) : List Nat :=
  if inner.l4Off ≠ 0 ∧ (inner.proto = ipprotoUdp ∨ inner.proto = ipprotoTcp) then
    let pos := inner.l4Off - ethHlen + inner.checkOff
    [pos, pos + 1]
  else []

/-- The L4 checksum of a packet verifies: its pseudo header and the L4 part, of
the length its IP header gives, sum to 0xFFFF. -/
def InnerPacket.L4Verifies (inner : InnerPacket) (packet : List UInt8) : Prop :=
  onesSum (inner.pseudo ++ slice packet (inner.l4Off - ethHlen) inner.innerL4Len) = 0xFFFF

/-- A packet of `len` bytes is a whole UDP or TCP datagram: not a fragment, with
a complete L4 header, and with all the bytes its IP header gives it. -/
structure InnerPacket.Whole (inner : InnerPacket) (len : Nat) : Prop where
  proto : inner.proto = ipprotoUdp ∨ inner.proto = ipprotoTcp
  not_head : inner.fragHead = false
  not_tail : inner.fragTail = false
  header : (if inner.proto = ipprotoUdp then sizeofUdphdr else 20) ≤ inner.innerL4Len
  inside : inner.l4Off + inner.innerL4Len ≤ ethHlen + len

structure Recovers (inner : InnerPacket) (sent recovered : List UInt8) : Prop where
  same_length : recovered.length = sent.length
  same_bytes : ∀ index, index ∉ inner.checkField → recovered[index]? = sent[index]?
  verifies : inner.Whole sent.length → sent.length ≤ csumMaxLen → inner.L4Verifies recovered

def IsIpPacket (bytes : List UInt8) : Prop :=
  (bytes.getD 14 0).toNat / 16 = if beNat (slice bytes 12 2) = ethPIp then 4 else 6

instance (bytes : List UInt8) : Decidable (IsIpPacket bytes) := inferInstanceAs (Decidable (_ = _))

/-- What the kernel wants to find behind the Ethernet header of a frame it has
stripped: an L3 header of the family it is told to expect, or of the outer one. -/
def AdjRoomDecap.least (decap : AdjRoomDecap) (frame : List UInt8) : Nat :=
  match decap with
  | .l3Ipv4 => sizeofIphdr
  | .l3Ipv6 => sizeofIpv6hdr
  | .same => if beNat (slice frame 12 2) = ethPIp then sizeofIphdr else sizeofIpv6hdr

/-- The kernel strips up to 4095 bytes from a frame that keeps an L3 header. -/
def DecapEnv.Strips (env : DecapEnv) : Prop :=
  ∀ frame size decap, size ≤ 0xfff →
    ethHlen + size + AdjRoomDecap.least decap frame ≤ frame.length →
      env.adjustRoom frame size decap = true

variable {skb : SkBuff} {inner : InnerPacket} {entry : GtpuRxTun} {family : UInt8}

theorem InnerPacket.Whole.finished {len : Nat}
    (whole : inner.Whole len) (parsed : parseInner skb = some inner)
    (short : len ≤ csumMaxLen) : inner.finished := by
  have present : inner.l4Off ≠ 0 := by
    intro absent
    have tail := (parseInner_accepted parsed).1.tail.mp absent
    rw [whole.not_tail] at tail
    cases tail
  have behind := ((parseInner_l4Off parsed).2.resolve_left present).1
  have inside := whole.inside
  exact ⟨present, whole.proto, whole.header, by omega⟩

theorem Refinished.recovers {sent recovered : List UInt8} (parsed : parseInner skb = some inner)
    (refinished : Refinished inner sent recovered) : Recovers inner sent recovered := by
  cases refinished with
  | kept _ notFinished =>
    refine ⟨rfl, fun _ _ => rfl, ?_⟩
    intro whole short
    exact absurd (whole.finished parsed short) notFinished
  | @replaced before old new after finished position oldSized newSized total =>
    refine ⟨by simp [oldSized, newSized], ?_, ?_⟩
    · intro index outside
      have field : inner.checkField = [before.length, before.length + 1] := by
        rw [InnerPacket.checkField, if_pos ⟨finished.1, finished.2.1⟩, position]
      rw [field, List.mem_pair, not_or] at outside
      rcases Nat.lt_or_ge index before.length with lead | behind
      · rw [List.append_assoc, List.append_assoc, List.getElem?_append_left lead,
          List.getElem?_append_left lead]
      · rw [List.getElem?_append_right (by simp [newSized]; omega),
          List.getElem?_append_right (by simp [oldSized]; omega)]
        simp [newSized, oldSized]
    · intro _ _
      exact (onesSum_pseudo_iff (pseudo_even inner) (proto_mem_pseudo inner)
        (finished_proto_ne_zero finished) _).mpr total

theorem leWordSum_le (bytes : List UInt8) : leWordSum bytes ≤ 65535 * bytes.length := by
  fun_induction leWordSum bytes with
  | case1 => exact Nat.zero_le _
  | case2 last =>
    have octet := last.toNat_lt
    simp only [List.length_singleton]
    omega
  | case3 low high rest ih =>
    have lowOctet := low.toNat_lt
    have highOctet := high.toNat_lt
    simp only [List.length_cons]
    omega

theorem sameOnes_csum16 {buf : List UInt8} (short : buf.length ≤ 65535) :
    csum16 buf 0 ≤ 65535 ∧ SameOnes (csum16 buf 0) (leWordSum buf) := by
  have bounded := leWordSum_le buf
  have narrow : leWordSum buf < 2 ^ 32 := by omega
  rw [csum16, Nat.zero_add]
  exact ⟨foldCarry_twice_le narrow, (sameOnes_foldCarry _).trans (sameOnes_foldCarry _)⟩

theorem csum16_complement {front back : List UInt8} (even : front.length % 2 = 0)
    (nonzero : leWordSum front ≠ 0) (short : front.length + 2 + back.length ≤ 65535) :
    csum16 (front ++ leBytes 2 (65535 - csum16 (front ++ [0, 0] ++ back) 0) ++ back) 0 =
      0xffff := by
  have sized : ∀ word : List UInt8, word.length = 2 → (front ++ word ++ back).length ≤ 65535 := by
    intro word wordSized
    simp only [List.length_append, wordSized]
    omega
  obtain ⟨small, same⟩ := sameOnes_csum16 (sized [0, 0] rfl)
  have zero : leWordSum [0, 0] = 0 := rfl
  have mod := same.mod_eq
  rw [leWordSum_word even rfl, zero] at mod
  generalize csum16 (front ++ [0, 0] ++ back) 0 = sum at small mod ⊢
  obtain ⟨full, whole⟩ := sameOnes_csum16 (sized _ (length_leBytes 2 (65535 - sum)))
  rw [leWordSum_word even (length_leBytes 2 _), leWordSum_leBytes (by omega)] at whole
  exact (whole.eq_full_iff full).mpr (by omega)

theorem csum16_outerIp4Header (cfg : GtpuConfig) (tun : GtpuTxTun) (innerLen : Nat) :
    csum16 (outerIp4Header cfg tun innerLen) 0 = 0xffff := by
  have shape : ∀ check, outerIp4 cfg tun (outerL3 tun + udpLen tun innerLen) check =
      ([0x45, 0] ++ beBytes 2 (outerL3 tun + udpLen tun innerLen) ++
        [0, 0, 0, 0, 64, ipprotoUdp]) ++ check ++
        (cfg.localV4.toList ++ tun.remoteAddr.toList.take 4) := by
    intro check
    simp only [outerIp4, List.append_assoc]
  have header : outerIp4Header cfg tun innerLen =
      outerIp4 cfg tun (outerL3 tun + udpLen tun innerLen) (leBytes 2 (65535 -
        csum16 (outerIp4 cfg tun (outerL3 tun + udpLen tun innerLen) [0, 0]) 0)) := by
    rw [csum16, Nat.zero_add, outerIp4Header]
  rw [header, shape, shape]
  apply csum16_complement
  · simp
  · simp [leWordSum]
  · simp

theorem payloadOff_container (next : frame[gtpuOff + 11]? = some gtpuExtPduSession)
    (extlen : frame[gtpuOff + 12]? = some 1)
    (last : frame[gtpuOff + 15]? = some gtpuExtNone) :
    payloadOff frame gtpuOff (gtpuFVersionPt ||| gtpuFExt) = some (gtpuOff + 16) := by
  have off : gtpuOff + gtpuHdrMin + gtpuHdrOpt = gtpuOff + 12 := rfl
  rw [payloadOff, if_pos (by decide), if_pos (by decide), next]
  dsimp only
  rw [off, gtpuExtMaxHops, extWalk, if_neg (by decide), extlen]
  dsimp only
  rw [if_neg (by decide), show gtpuOff + 12 + (1 : UInt8).toNat * 4 - 1 = gtpuOff + 15 from rfl,
    last]
  dsimp only
  rw [extWalk, if_pos (by rfl)]
  rfl

def DeliversAs (family : UInt8) (packet : List UInt8) : Prop :=
  let version := (packet.getD 0 0).toNat / 16
  (family = afInet ∧ version = 4 ∧ sizeofIphdr ≤ packet.length) ∨
    (family = afInet6 ∧ version = 6 ∧ sizeofIpv6hdr ≤ packet.length)

theorem innerFamily_append {front packet : List UInt8} (delivers : DeliversAs family packet)
    (matching : entry.innerFamily = family ∨ entry.innerFamily = afUnspec)
    (unchecked : entry.innerAddr = Vector.replicate 16 0) :
    innerFamily (front ++ packet) front.length entry = some family := by
  have first : (front ++ packet).getD front.length 0 = packet.getD 0 0 := by
    rw [List.getD_eq_getElem?_getD, List.getElem?_append_right (Nat.le_refl _),
      Nat.sub_self, List.getD_eq_getElem?_getD]
  have remaining : (front ++ packet).length - front.length = packet.length := by
    simp
  unfold DeliversAs at delivers
  dsimp only at delivers
  have present : ¬ front.length ≥ (front ++ packet).length := by
    rcases delivers with ⟨_, _, long⟩ | ⟨_, _, long⟩ <;>
      simp only [sizeofIphdr, sizeofIpv6hdr, List.length_append] at long ⊢ <;> omega
  rw [innerFamily, if_neg present]
  dsimp only
  rw [first, remaining, if_pos unchecked, if_pos unchecked]
  generalize (packet.getD 0 0).toNat / 16 = version at *
  rcases delivers with ⟨rfl, rfl, long⟩ | ⟨rfl, rfl, long⟩
  · have chosen : (if entry.innerFamily = afUnspec then
        if (4 : Nat) = 6 then afInet6 else afInet else entry.innerFamily) = afInet := by
      rcases matching with same | unspec
      · rw [same]; rfl
      · rw [unspec]; rfl
    rw [chosen, if_pos rfl, if_neg (by omega)]
  · have chosen : (if entry.innerFamily = afUnspec then
        if (6 : Nat) = 6 then afInet6 else afInet else entry.innerFamily) = afInet6 := by
      rcases matching with same | unspec
      · rw [same]; rfl
      · rw [unspec]; rfl
    rw [chosen, if_neg (by decide), if_neg (by omega)]

theorem DeliversAs.least_le {packet frame old : List UInt8} (delivers : DeliversAs family packet)
    (exposes : decap = .l3Ipv6 → family = afInet6) (ethertype : slice frame 12 2 = old)
    (isV4 : beNat old = ethPIp) : AdjRoomDecap.least decap frame ≤ packet.length := by
  rcases delivers with ⟨rfl, _, long⟩ | ⟨rfl, _, long⟩
  · cases decap with
    | same => rwa [AdjRoomDecap.least, ethertype, if_pos isV4]
    | l3Ipv4 => exact long
    | l3Ipv6 => exact absurd (exposes rfl) (by decide)
  · have shorter : sizeofIphdr ≤ sizeofIpv6hdr := by decide
    cases decap with
    | same =>
      rw [AdjRoomDecap.least, ethertype, if_pos isV4]
      omega
    | l3Ipv4 => exact Nat.le_trans shorter long
    | l3Ipv6 => exact long

theorem decapInner_append {env : DecapEnv} (strips : env.Strips) {macs old rest packet : List UInt8}
    (macsSized : macs.length = 12) (oldSized : old.length = 2)
    (isV4 : beNat old = ethPIp) (short : rest.length ≤ 0xfff)
    (delivers : DeliversAs family packet)
    (matching : entry.innerFamily = family ∨ entry.innerFamily = afUnspec)
    (unchecked : entry.innerAddr = Vector.replicate 16 0)
    (teid : UInt32) (source : DecapSource) :
    decapInner env (macs ++ old ++ rest ++ packet) (ethHlen + rest.length) teid source
        entry = {
      act := if entry.ifindex ≠ 0 then .redirect entry.ifindex else .ok
      frame := macs ++ beBytes 2 (if family = afInet then ethPIp else ethPIpv6) ++ packet
      events := []
      stats := [⟨statsSlot teid, .rxPkts, 1⟩, ⟨statsSlot teid, .rxBytes, packet.length⟩] } := by
  have off : ethHlen + rest.length = (macs ++ old ++ rest).length := by
    simp only [List.length_append, macsSized, oldSized, ethHlen]
  have ethertype : slice (macs ++ old ++ rest ++ packet) 12 2 = old := by
    rw [List.append_assoc _ rest, slice_part macsSized.symm oldSized.symm]
  have stripped : (macs ++ old ++ rest ++ packet).take ethHlen ++
      (macs ++ old ++ rest ++ packet).drop (macs ++ old ++ rest).length =
        macs ++ old ++ packet := by
    rw [List.drop_left, List.append_assoc _ rest, List.take_left' (by
      simp only [List.length_append, macsSized, oldSized, ethHlen])]
  have allowed : ∀ decap, (decap = .l3Ipv6 → family = afInet6) →
      env.adjustRoom (macs ++ old ++ rest ++ packet) rest.length decap = true := by
    intro decap exposes
    refine strips _ _ _ short ?_
    have least := delivers.least_le exposes ethertype isV4
    simp only [List.length_append, macsSized, oldSized, ethHlen]
    omega
  have stored := skbStoreBytes_replace macs
    (show (beBytes 2 (if family = afInet then ethPIp else ethPIpv6)).length = old.length by
      rw [length_beBytes, oldSized]) packet macsSized.symm
  have remaining : (macs ++ old ++ rest ++ packet).length - (macs ++ old ++ rest).length =
      packet.length := by
    rw [List.length_append, Nat.add_sub_cancel_left]
  rw [decapInner, off, innerFamily_append delivers matching unchecked]
  dsimp only
  rw [← off, Nat.add_sub_cancel_left, allowed, if_neg Bool.noConfusion, off, stripped, stored]
  · dsimp only
    rw [remaining]
  · intro exposes
    split at exposes
    · split at exposes
      · assumption
      · cases exposes
    · cases exposes

section Frame

variable {cfg : GtpuConfig} {tun : GtpuTxTun} {route : EncapRoute} {innerLen : Nat}
  {packet : List UInt8} (v4 : tun.outerFamily = afInet)

include v4

theorem slice_outerIp4 (pos len : Nat) (inside : pos + len ≤ sizeofIphdr) :
    slice (outerHeaders cfg tun route innerLen [0, 0] ++ packet) (ethHlen + pos) len =
      slice (outerIp4Header cfg tun innerLen) pos len := by
  rw [outerHeaders, if_pos v4, List.append_assoc, List.append_assoc,
    ← length_ethHeader tun route, slice_append_right, slice_append_left]
  rwa [length_outerIp4Header]

theorem parseOuter_outerHeaders
    (arrives : skb.bytes = outerHeaders cfg tun route innerLen [0, 0] ++ packet)
    (linear : ethHlen + sizeofIphdr ≤ skb.linear) :
    parseOuter skb = .outer {
      udpOff := ethHlen + sizeofIphdr
      srcFamily := afInet
      srcAddr := addr16 (slice skb.bytes 26 4) } := by
  have isV4 : beNat (slice skb.bytes 12 2) = ethPIp := by
    rw [arrives]
    exact (outerIsV4_outerHeaders cfg tun route innerLen [0, 0] packet).mpr v4
  have header : ∀ pos len, pos + len ≤ sizeofIphdr →
      slice skb.bytes (ethHlen + pos) len = slice (outerIp4Header cfg tun innerLen) pos len := by
    rw [arrives]
    exact slice_outerIp4 v4
  have first : skb.bytes[14]? = some 0x45 := getElem?_of_slice_one (header 0 1 (by decide))
  have proto : skb.bytes[23]? = some ipprotoUdp := getElem?_of_slice_one (header 9 1 (by decide))
  have unfragmented : slice skb.bytes 20 2 = [0, 0] := header 6 2 (by decide)
  have checked : slice skb.bytes 14 20 = outerIp4Header cfg tun innerLen := by
    rw [show slice skb.bytes 14 20 = _ from header 0 20 (by decide), slice, List.drop_zero,
      List.take_of_length_le (by simp [sizeofIphdr])]
  have present : ¬ ethHlen > skb.linear := by omega
  rw [parseOuter, if_neg present, if_pos isV4, parseOuter4, if_neg (by omega)]
  dsimp only
  rw [List.getD_eq_getElem?_getD, first, List.getD_eq_getElem?_getD, proto,
    unfragmented, checked, csum16_outerIp4Header, if_neg (by decide),
    if_neg (by decide), if_neg (by decide), if_neg (by decide)]

omit v4 in
theorem length_outerUdp_zero : (outerUdp tun innerLen [0, 0]).length = sizeofUdphdr :=
  length_outerUdpHeader tun innerLen

theorem outerHeaders_cut :
    outerHeaders cfg tun route innerLen [0, 0] ++ packet =
      ethHeader tun route ++ outerIp4Header cfg tun innerLen ++ outerUdp tun innerLen [0, 0] ++
        ([gtpuFlags tun, gtpuMtGpdu] ++ beBytes 2 (gtpuLength tun innerLen) ++
          beBytes 4 tun.remoteTeid.toNat) ++ (gtpuOptions tun ++ packet) := by
  simp only [outerHeaders, if_pos v4, gtpuHeader_eq, List.append_assoc]

theorem loadUdp_outerHeaders :
    skbLoadBytes (outerHeaders cfg tun route innerLen [0, 0] ++ packet)
        (ethHlen + sizeofIphdr) sizeofUdphdr = some (outerUdp tun innerLen [0, 0]) := by
  rw [outerHeaders_cut v4, List.append_assoc _ _ (gtpuOptions tun ++ packet),
    skbLoadBytes, if_pos, slice_part (by simp) length_outerUdp_zero.symm]
  simp only [List.length_append, length_ethHeader, length_outerIp4Header, length_outerUdp_zero]
  omega

theorem loadGtpu_outerHeaders :
    skbLoadBytes (outerHeaders cfg tun route innerLen [0, 0] ++ packet)
        (ethHlen + sizeofIphdr + sizeofUdphdr) gtpuHdrMin =
      some ([gtpuFlags tun, gtpuMtGpdu] ++ beBytes 2 (gtpuLength tun innerLen) ++
        beBytes 4 tun.remoteTeid.toNat) := by
  have position : ethHlen + sizeofIphdr + sizeofUdphdr =
      (ethHeader tun route ++ outerIp4Header cfg tun innerLen ++
        outerUdp tun innerLen [0, 0]).length := by
    simp only [List.length_append, length_ethHeader, length_outerIp4Header, length_outerUdp_zero]
  rw [outerHeaders_cut v4, skbLoadBytes, if_pos, slice_part position (by simp [gtpuHdrMin])]
  rw [position, List.length_append, List.length_append]
  simp only [List.length_append, List.length_cons, List.length_nil, length_beBytes, gtpuHdrMin]
  omega

theorem payloadOff_outerHeaders :
    payloadOff (outerHeaders cfg tun route innerLen [0, 0] ++ packet)
        (ethHlen + sizeofIphdr + sizeofUdphdr) (gtpuFlags tun) =
      some (ethHlen + outerLen tun) := by
  have l3 : outerL3 tun = sizeofIphdr := if_pos v4
  by_cases qfi : tun.flags &&& gtpuTxfQfi ≠ 0
  · have options : ∀ index, (outerHeaders cfg tun route innerLen [0, 0] ++ packet)[50 + index]? =
          ([0, 0, 0, gtpuExtPduSession, 1, 0, tun.qfi &&& 0x3f, gtpuExtNone] ++
            packet)[index]? := by
      intro index
      have position : (ethHeader tun route ++ outerIp4Header cfg tun innerLen ++
          outerUdp tun innerLen [0, 0] ++
          ([gtpuFlags tun, gtpuMtGpdu] ++ beBytes 2 (gtpuLength tun innerLen) ++
            beBytes 4 tun.remoteTeid.toNat)).length = 50 := by
        simp only [List.length_append, length_ethHeader, length_outerIp4Header,
          length_outerUdp_zero, List.length_cons, List.length_nil, length_beBytes]
        rfl
      rw [outerHeaders_cut v4, List.getElem?_append_right (by omega), position,
        Nat.add_sub_cancel_left, gtpuOptions, if_pos qfi]
    rw [gtpuFlags, if_pos qfi, outerLen, gtpuLen, if_pos qfi, l3]
    exact payloadOff_container (options 3) (options 4) (options 7)
  · rw [payloadOff, gtpuFlags, if_neg qfi, if_neg (by decide), outerLen, gtpuLen, if_neg qfi, l3]
    rfl

theorem decapMessage_outerHeaders {rx : BoundedMap UInt32 GtpuRxTun}
    (held : rx.lookup tun.remoteTeid = some entry) :
    decapMessage env rx (outerHeaders cfg tun route innerLen [0, 0] ++ packet)
        (ethHlen + sizeofIphdr + sizeofUdphdr) source =
      decapInner env (outerHeaders cfg tun route innerLen [0, 0] ++ packet)
        (ethHlen + outerLen tun) tun.remoteTeid source entry := by
  have teid : slice ([gtpuFlags tun, gtpuMtGpdu] ++ beBytes 2 (gtpuLength tun innerLen) ++
      beBytes 4 tun.remoteTeid.toNat) 4 4 = beBytes 4 tun.remoteTeid.toNat := by
    rw [← List.append_nil (_ ++ beBytes 4 _), slice_part (by simp) (by simp)]
  have version : gtpuFlags tun &&& 0xf0 = gtpuFVersionPt := by
    unfold gtpuFlags
    split <;> decide
  have narrow : tun.remoteTeid.toNat < 256 ^ 4 := tun.remoteTeid.toNat_lt
  rw [decapMessage, loadGtpu_outerHeaders v4]
  dsimp only
  rw [teid, beNat_beBytes narrow, UInt32.ofNat_toNat]
  simp only [List.cons_append, List.getD_cons_zero, List.getD_cons_succ]
  rw [if_neg (not_not.mpr version), if_neg (by decide), if_neg (by decide),
    payloadOff_outerHeaders v4, held]

theorem gtpuDecap_outerHeaders {env : DecapEnv} {rx : BoundedMap UInt32 GtpuRxTun}
    {peer : GtpuConfig} {received : SkBuff}
    (port : tun.remotePort = htons gtpuPort) (strips : env.Strips)
    (version : peer.abiVersion = gtpuAbiVersion)
    (arrives : received.bytes = outerHeaders cfg tun route innerLen [0, 0] ++ packet)
    (linear : ethHlen + sizeofIphdr ≤ received.linear)
    (held : rx.lookup tun.remoteTeid = some entry)
    (delivers : DeliversAs family packet)
    (matching : entry.innerFamily = family ∨ entry.innerFamily = afUnspec)
    (unchecked : entry.innerAddr = Vector.replicate 16 0) :
    gtpuDecap env rx (some peer) received = {
      act := if entry.ifindex ≠ 0 then .redirect entry.ifindex else .ok
      frame := route.dmac.toList ++ route.smac.toList ++
        beBytes 2 (if family = afInet then ethPIp else ethPIpv6) ++ packet
      events := []
      stats := [⟨statsSlot tun.remoteTeid, .rxPkts, 1⟩,
        ⟨statsSlot tun.remoteTeid, .rxBytes, packet.length⟩] } := by
  have dest : beNat (slice (outerUdp tun innerLen [0, 0]) 2 2) = gtpuPort.toNat := by
    have cut : outerUdp tun innerLen [0, 0] = beBytes 2 gtpuPort.toNat ++
        leBytes 2 tun.remotePort.toNat ++ (beBytes 2 (udpLen tun innerLen) ++ [0, 0]) := by
      simp only [outerUdp, List.append_assoc]
    rw [cut, slice_part (by simp) (by simp), port]
    decide
  have cut : outerHeaders cfg tun route innerLen [0, 0] ++ packet =
      route.dmac.toList ++ route.smac.toList ++ beBytes 2 ethPIp ++
        (outerIp4Header cfg tun innerLen ++ outerUdpHeader tun innerLen ++
          gtpuHeader tun innerLen) ++ packet := by
    simp only [outerHeaders, ethHeader, if_pos v4, outerUdpHeader, List.append_assoc]
  have rest : outerLen tun = (outerIp4Header cfg tun innerLen ++
      outerUdpHeader tun innerLen ++ gtpuHeader tun innerLen).length := by
    simp only [List.length_append, length_outerIp4Header, length_outerUdpHeader,
      length_gtpuHeader, outerLen, outerL3, if_pos v4]
  have short : outerLen tun ≤ 0xfff := by
    unfold outerLen outerL3 gtpuLen
    split <;> split <;> decide
  have abi : ¬ (((some peer).all fun cfg => cfg.abiVersion ≠ gtpuAbiVersion) = true) := by
    simp [version]
  rw [gtpuDecap, parseOuter_outerHeaders v4 arrives linear]
  dsimp only
  rw [arrives, loadUdp_outerHeaders v4]
  dsimp only
  rw [if_neg (not_not.mpr dest), if_neg abi, decapMessage_outerHeaders v4 held, cut, rest]
  exact decapInner_append strips (by simp) (by simp) (by decide) (rest ▸ short) delivers
    matching unchecked _ _

end Frame

theorem Recovers.delivers {packet : List UInt8}
    (parsed : parseInner skb = some inner) (isIp : IsIpPacket skb.bytes)
    (recovers : Recovers inner (skb.bytes.drop ethHlen) packet) :
    DeliversAs inner.family packet := by
  have untouched : 0 ∉ inner.checkField := by
    unfold InnerPacket.checkField InnerPacket.checkOff
    split
    · dsimp only
      split <;> simp only [List.mem_pair] <;> omega
    · simp
  have first : (packet.getD 0 0).toNat = (skb.bytes.getD 14 0).toNat := by
    rw [List.getD_eq_getElem?_getD, recovers.same_bytes 0 untouched,
      List.getElem?_drop, List.getD_eq_getElem?_getD]
    rfl
  have sized := recovers.same_length
  rw [List.length_drop] at sized
  unfold IsIpPacket at isIp
  unfold DeliversAs
  rw [first]
  rcases (parseInner_accepted parsed).2 with ⟨ethertype, family, long⟩ | ⟨ethertype, family, long⟩
  · left
    rw [ethertype, if_pos rfl] at isIp
    exact ⟨family, isIp, by omega⟩
  · right
    rw [ethertype, if_neg (by decide)] at isIp
    exact ⟨family, isIp, by omega⟩

/-- Whatever one end sends through a tunnel over IPv4 to the GTP-U port, with or
without the QFI extension header, the other end delivers with its inner packet
recovered. -/
theorem decap_recovers_inner {helpers : BpfHelpers} {maps : ForwardingMaps}
    {config : Option GtpuConfig} {frag frag' : TxFragMap} {skb : SkBuff}
    {oif : UInt32} {frame : List UInt8} {inner : InnerPacket} {tun : GtpuTxTun}
    (redirected : gtpuEncap helpers maps config frag skb = (frag', .redirect oif frame))
    (parsed : parseInner skb = some inner) (isIp : IsIpPacket skb.bytes)
    (selected : selectTunnel maps frag skb.bytes inner = some tun)
    (v4 : tun.outerFamily = afInet) (port : tun.remotePort = htons gtpuPort)
    {env : DecapEnv} {rx : BoundedMap UInt32 GtpuRxTun} {peer : GtpuConfig}
    {received : SkBuff} {entry : GtpuRxTun} (strips : env.Strips)
    (version : peer.abiVersion = gtpuAbiVersion) (arrives : received.bytes = frame)
    (linear : ethHlen + sizeofIphdr ≤ received.linear)
    (held : rx.lookup tun.remoteTeid = some entry)
    (matching : entry.innerFamily = inner.family ∨ entry.innerFamily = afUnspec)
    (unchecked : entry.innerAddr = Vector.replicate 16 0) :
    ∃ packet, gtpuDecap env rx (some peer) received = {
        act := if entry.ifindex ≠ 0 then .redirect entry.ifindex else .ok
        frame := frame.take 12 ++ slice skb.bytes 12 2 ++ packet
        events := []
        stats := [⟨statsSlot tun.remoteTeid, .rxPkts, 1⟩,
          ⟨statsSlot tun.remoteTeid, .rxBytes, packet.length⟩] } ∧
      Recovers inner (skb.bytes.drop ethHlen) packet := by
  obtain ⟨inner', tun', cfg, route, parsed', selected', bounded, built⟩ :=
    gtpuEncap_redirect redirected
  rw [parsed] at parsed'
  obtain rfl := Option.some.inj parsed'
  rw [selected] at selected'
  obtain rfl := Option.some.inj selected'
  obtain ⟨long, l4⟩ := parseInner_l4Off parsed
  obtain ⟨check, packet, _, zero, rfl, refinished⟩ := encapFrame_shape long l4 bounded built
  obtain rfl := zero v4
  have recovers := refinished.recovers parsed
  refine ⟨packet, ?_, recovers⟩
  have delivers := recovers.delivers parsed isIp
  have macs : (outerHeaders cfg tun route (skb.bytes.length - ethHlen) [0, 0] ++
      packet).take 12 = route.dmac.toList ++ route.smac.toList := by
    simp only [outerHeaders, ethHeader, List.append_assoc]
    rw [← List.append_assoc, List.take_left' (by simp)]
  have ethertype : slice skb.bytes 12 2 =
      beBytes 2 (if inner.family = afInet then ethPIp else ethPIpv6) := by
    rcases (parseInner_accepted parsed).2 with ⟨read, family, _⟩ | ⟨read, family, _⟩
    · rw [family, if_pos rfl, ← read, beBytes_beNat (length_slice long)]
    · rw [family, if_neg (by decide), ← read, beBytes_beNat (length_slice long)]
  rw [gtpuDecap_outerHeaders v4 port strips version arrives linear held delivers matching
    unchecked, macs, ethertype]

def softDecap : DecapEnv where
  ringbufReserve := true
  adjustRoom frame size decap :=
    size ≤ 0xfff ∧ ethHlen + size + AdjRoomDecap.least decap frame ≤ frame.length

def peerEntry : GtpuRxTun where
  innerFamily := afInet
  ebi := 5
  innerAddr := Vector.replicate 16 0
  ifindex := 0

def peerRx : BoundedMap UInt32 GtpuRxTun :=
  (bpfMapUpdateElem (.empty 4) homeBearer.remoteTeid peerEntry .any).1

theorem unfinished_datagram_recovered :
    ∃ inner packet, parseInner (udpDatagram [0, 0]) = some inner ∧
      gtpuDecap softDecap peerRx (some v6Config)
          (.ofBytes (v4Emitted (udpDatagram [0, 0]))) = {
        act := .ok
        frame := (v4Emitted (udpDatagram [0, 0])).take 12 ++
          slice (udpDatagram [0, 0]).bytes 12 2 ++ packet
        events := []
        stats := [⟨statsSlot homeBearer.remoteTeid, .rxPkts, 1⟩,
          ⟨statsSlot homeBearer.remoteTeid, .rxBytes, packet.length⟩] } ∧
      Recovers inner ((udpDatagram [0, 0]).bytes.drop ethHlen) packet := by
  have checked : ((parseInner (udpDatagram [0, 0])).all fun inner =>
      decide (selectTunnel v4Maps (fun _ => none) (udpDatagram [0, 0]).bytes inner =
        some (tunToTx homeBearer)) && decide (inner.family = afInet)) = true := by
    decide
  obtain ⟨frag', redirected⟩ := exists_pair_of_snd v4Emitted_sent
  cases parsed : parseInner (udpDatagram [0, 0]) with
  | none => exact absurd parsed (by decide)
  | some inner =>
    rw [parsed, Option.all_some, Bool.and_eq_true, decide_eq_true_eq, decide_eq_true_eq] at checked
    have strips : softDecap.Strips := by
      intro frame size decap short long
      exact decide_eq_true ⟨short, long⟩
    have version : v6Config.abiVersion = gtpuAbiVersion := rfl
    have arrives : (SkBuff.ofBytes (v4Emitted (udpDatagram [0, 0]))).bytes =
      v4Emitted (udpDatagram [0, 0]) := rfl
    have linear : ethHlen + sizeofIphdr ≤
        (SkBuff.ofBytes (v4Emitted (udpDatagram [0, 0]))).linear := by
      decide
    have held : peerRx.lookup (tunToTx homeBearer).remoteTeid = some peerEntry := by
      decide
    obtain ⟨packet, delivered, recovers⟩ := decap_recovers_inner redirected parsed
      (by decide) checked.1 rfl rfl strips version arrives linear held
      (.inl checked.2.symm) rfl
    exact ⟨inner, packet, rfl, delivered, recovers⟩

end Pro2Call.Gtpu

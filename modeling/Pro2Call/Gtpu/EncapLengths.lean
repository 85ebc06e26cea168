import Pro2Call.Gtpu.EncapChecksum

namespace Pro2Call.Gtpu

open Pro2Call.Data

def OuterIsV4 (frame : List UInt8) : Prop := beNat (slice frame 12 2) = ethPIp

instance (frame : List UInt8) : Decidable (OuterIsV4 frame) := inferInstanceAs (Decidable (_ = _))

def outerUdpOff (frame : List UInt8) : Nat :=
  ethHlen + if OuterIsV4 frame then sizeofIphdr else sizeofIpv6hdr

/-- Every length field of the outer headers says how many bytes of the frame it
covers: the IPv4 total length counts from its own header on, the UDP length from
the UDP header on, the other two count what follows their header. -/
structure LengthsMatch (frame : List UInt8) : Prop where
  ip : if OuterIsV4 frame then beNat (slice frame 16 2) = frame.length - ethHlen
    else beNat (slice frame 18 2) = frame.length - (ethHlen + sizeofIpv6hdr)
  udp : beNat (slice frame (outerUdpOff frame + 4) 2) = frame.length - outerUdpOff frame
  gtpu : beNat (slice frame (outerUdpOff frame + sizeofUdphdr + 2) 2) =
    frame.length - (outerUdpOff frame + sizeofUdphdr + gtpuHdrMin)

def FitsLengths (maps : ForwardingMaps) (frag : TxFragMap) (skb : SkBuff) : Prop :=
  ∀ inner tun, parseInner skb = some inner → selectTunnel maps frag skb.bytes inner = some tun →
      outerL3 tun + udpLen tun (skb.bytes.length - ethHlen) < 2 ^ 16

def outerHeaders (cfg : GtpuConfig) (tun : GtpuTxTun) (route : EncapRoute)
    (innerLen : Nat) (check : List UInt8) : List UInt8 :=
  ethHeader tun route ++ (if tun.outerFamily = afInet then outerIp4Header cfg tun innerLen
    else outerIp6Header cfg tun innerLen) ++
    (outerUdp tun innerLen check ++ gtpuHeader tun innerLen)

theorem length_outerHeaders (cfg : GtpuConfig) (tun : GtpuTxTun)
    (route : EncapRoute) (innerLen : Nat) {check : List UInt8}
    (sized : check.length = 2) :
    (outerHeaders cfg tun route innerLen check).length = ethHlen + outerLen tun := by
  rw [outerHeaders, outerUdp_eq, outerLen]
  simp only [List.length_append, length_ethHeader, length_outerL3Header,
    length_outerUdp_nil, length_gtpuHeader, sized, sizeofUdphdr]
  omega

/-- An inner packet before and after its L4 checksum was finished, if it was:
the checksum field is replaced and the result verifies. -/
inductive Refinished (inner : InnerPacket) : List UInt8 → List UInt8 → Prop where
  | kept (packet : List UInt8) (notFinished : ¬ inner.finished) :
      Refinished inner packet packet
  | replaced {before old new after : List UInt8} (finished : inner.finished)
      (position : before.length = inner.l4Off - ethHlen + inner.checkOff)
      (oldSized : old.length = 2) (newSized : new.length = 2)
      (total : (leWordSum inner.pseudo + leWordSum (slice (before ++ new ++ after)
        (inner.l4Off - ethHlen) inner.innerL4Len)) % 65535 = 0) :
      Refinished inner (before ++ old ++ after) (before ++ new ++ after)

theorem Refinished.length_eq {inner : InnerPacket} {packet result : List UInt8}
    (refinished : Refinished inner packet result) :
    result.length = packet.length := by
  cases refinished with
  | kept => rfl
  | replaced _ _ oldSized newSized _ => simp [oldSized, newSized]

theorem innerChecksum_refinished {inner : InnerPacket} {front data frame : List UInt8}
    (l4 : inner.l4Off = 0 ∨ ethHlen ≤ inner.l4Off ∧ inner.l4Off % 2 = 0)
    (frontSized : front.length = ethHlen + grown)
    (stored : innerChecksum helpers inner grown (front ++ data) = some frame) :
    ∃ result, frame = front ++ result ∧ Refinished inner data result := by
  by_cases finished : inner.finished
  · obtain ⟨l4Long, l4Even⟩ := l4.resolve_left finished.1
    obtain ⟨before, old, new, after, rfl, rfl, position, oldSized, newSized,
      total, _⟩ := innerChecksum_sum finished l4Even l4Long frontSized stored
    exact ⟨_, rfl, .replaced finished position oldSized newSized total⟩
  · rw [innerChecksum_of_not_finished finished] at stored
    exact ⟨data, (Option.some.inj stored).symm, .kept data finished⟩

theorem encapFrame_shape {cfg : GtpuConfig}
    {tun : GtpuTxTun} {route : EncapRoute} {inner : InnerPacket}
    {bytes frame : List UInt8} (long : ethHlen ≤ bytes.length)
    (l4 : inner.l4Off = 0 ∨ ethHlen ≤ inner.l4Off ∧ inner.l4Off % 2 = 0)
    (bounded : tun.outerFamily ≠ afInet → udpLen tun (bytes.length - ethHlen) ≤ csumMaxLen)
    (built : encapFrame helpers cfg tun route inner bytes = some frame) :
    ∃ check packet, check.length = 2 ∧ (tun.outerFamily = afInet → check = [0, 0]) ∧
      frame = outerHeaders cfg tun route (bytes.length - ethHlen) check ++ packet ∧
      Refinished inner (bytes.drop ethHlen) packet := by
  rw [encapFrame_eq helpers cfg tun route inner long] at built
  obtain ⟨_, _, built⟩ := Option.bind_eq_some_iff.mp built
  obtain ⟨checked, outer, built⟩ := Option.bind_eq_some_iff.mp built
  have shape : ∃ check : List UInt8, check.length = 2 ∧
      (tun.outerFamily = afInet → check = [0, 0]) ∧
      checked = outerHeaders cfg tun route (bytes.length - ethHlen) check ++
        bytes.drop ethHlen := by
    by_cases v4 : tun.outerFamily = afInet
    · rw [outerChecksum, if_pos v4] at outer
      refine ⟨[0, 0], rfl, fun _ => rfl, ?_⟩
      rw [← Option.some.inj outer, encapHeaders, outerHeaders, outerUdpHeader]
      simp only [List.append_assoc]
    · obtain ⟨check, checkSized, rfl, _⟩ :=
        outerChecksum_sum v4 (bounded v4) List.length_drop outer
      refine ⟨check, checkSized, fun v4' => absurd v4' v4, ?_⟩
      rw [outerHeaders, if_neg v4]
  obtain ⟨check, checkSized, zero, rfl⟩ := shape
  obtain ⟨packet, framed, refinished⟩ := innerChecksum_refinished l4
    (length_outerHeaders cfg tun route _ checkSized) built
  exact ⟨check, packet, checkSized, zero, framed, refinished⟩

section Fields

variable (cfg : GtpuConfig) (tun : GtpuTxTun) (route : EncapRoute) (innerLen : Nat)
  (check packet : List UInt8)

theorem outerIsV4_outerHeaders :
    OuterIsV4 (outerHeaders cfg tun route innerLen check ++ packet) ↔ tun.outerFamily = afInet := by
  rw [OuterIsV4, outerHeaders, List.append_assoc, List.append_assoc, ethHeader_ethertype]
  by_cases v4 : tun.outerFamily = afInet
  · simp [v4]
  · simp [v4, ethPIp, ethPIpv6]

theorem outerUdpOff_outerHeaders :
    outerUdpOff (outerHeaders cfg tun route innerLen check ++ packet) = ethHlen + outerL3 tun := by
  rw [outerUdpOff, if_congr
    (outerIsV4_outerHeaders cfg tun route innerLen check packet) rfl rfl, outerL3]

theorem totLen_outerHeaders (v4 : tun.outerFamily = afInet) :
    slice (outerHeaders cfg tun route innerLen check ++ packet) 16 2 =
      beBytes 2 (outerL3 tun + udpLen tun innerLen) := by
  have cut : outerHeaders cfg tun route innerLen check ++ packet =
      ethHeader tun route ++ [0x45, 0] ++ beBytes 2 (outerL3 tun + udpLen tun innerLen) ++
        ((outerIp4Header cfg tun innerLen).drop 4 ++
          (outerUdp tun innerLen check ++ gtpuHeader tun innerLen) ++ packet) := by
    simp [outerHeaders, v4, outerIp4Header, outerIp4, beBytes]
  rw [cut, slice_part (by simp [ethHlen]) (by simp)]

theorem payloadLen_outerHeaders (notV4 : tun.outerFamily ≠ afInet) :
    slice (outerHeaders cfg tun route innerLen check ++ packet) 18 2 =
      beBytes 2 (udpLen tun innerLen) := by
  have cut : outerHeaders cfg tun route innerLen check ++ packet =
      ethHeader tun route ++ [0x60, 0, 0, 0] ++ beBytes 2 (udpLen tun innerLen) ++
        ((outerIp6Header cfg tun innerLen).drop 6 ++
          (outerUdp tun innerLen check ++ gtpuHeader tun innerLen) ++ packet) := by
    simp [outerHeaders, notV4, outerIp6Header, beBytes]
  rw [cut, slice_part (by simp [ethHlen]) (by simp)]

theorem udpLen_outerHeaders :
    slice (outerHeaders cfg tun route innerLen check ++ packet)
        (ethHlen + outerL3 tun + 4) 2 = beBytes 2 (udpLen tun innerLen) := by
  have cut : outerHeaders cfg tun route innerLen check ++ packet = ethHeader tun route ++
        (if tun.outerFamily = afInet then outerIp4Header cfg tun innerLen
          else outerIp6Header cfg tun innerLen) ++
        (beBytes 2 gtpuPort.toNat ++ leBytes 2 tun.remotePort.toNat) ++
        beBytes 2 (udpLen tun innerLen) ++
        (check ++ gtpuHeader tun innerLen ++ packet) := by
    simp only [outerHeaders, outerUdp, List.append_assoc]
  rw [cut, slice_part _ (by simp)]
  simp only [List.length_append, length_ethHeader, length_outerL3Header,
    length_beBytes, length_leBytes]

def gtpuLength (tun : GtpuTxTun) (innerLen : Nat) : Nat := gtpuLen tun - gtpuHdrMin + innerLen

def gtpuFlags (tun : GtpuTxTun) : UInt8 :=
  if tun.flags &&& gtpuTxfQfi ≠ 0 then gtpuFVersionPt ||| gtpuFExt else gtpuFVersionPt

def gtpuOptions (tun : GtpuTxTun) : List UInt8 :=
  if tun.flags &&& gtpuTxfQfi ≠ 0 then
    [0, 0, 0, gtpuExtPduSession, 1, 0, tun.qfi &&& 0x3f, gtpuExtNone]
  else []

theorem gtpuHeader_eq :
    gtpuHeader tun innerLen = [gtpuFlags tun, gtpuMtGpdu] ++ beBytes 2 (gtpuLength tun innerLen) ++
        (beBytes 4 tun.remoteTeid.toNat ++ gtpuOptions tun) := by
  unfold gtpuHeader gtpuLength gtpuFlags gtpuOptions gtpuLen
  split
  · have counted : innerLen + gtpuHdrOpt + 4 =
        gtpuHdrMin + (gtpuHdrOpt + 4) - gtpuHdrMin + innerLen := by
      simp only [gtpuHdrMin, gtpuHdrOpt]
      omega
    rw [counted, List.append_assoc _ (beBytes 4 _)]
  · rw [Nat.sub_self, Nat.zero_add, List.append_nil]

theorem gtpuLength_outerHeaders (sized : check.length = 2) :
    slice (outerHeaders cfg tun route innerLen check ++ packet)
        (ethHlen + outerL3 tun + sizeofUdphdr + 2) 2 =
      beBytes 2 (gtpuLength tun innerLen) := by
  have cut : outerHeaders cfg tun route innerLen check ++ packet = ethHeader tun route ++
        (if tun.outerFamily = afInet then outerIp4Header cfg tun innerLen
          else outerIp6Header cfg tun innerLen) ++
        (outerUdp tun innerLen [] ++ check ++ [gtpuFlags tun, gtpuMtGpdu]) ++
        beBytes 2 (gtpuLength tun innerLen) ++
        (beBytes 4 tun.remoteTeid.toNat ++ gtpuOptions tun ++ packet) := by
    rw [outerHeaders, gtpuHeader_eq, outerUdp_eq tun innerLen check]
    simp only [List.append_assoc]
  rw [cut, slice_part _ (by simp)]
  simp only [List.length_append, length_ethHeader, length_outerL3Header,
    length_outerUdp_nil, sized, List.length_cons, List.length_nil, sizeofUdphdr]

end Fields

theorem beNat_beBytes_two_iff (value : Nat) : beNat (beBytes 2 value) = value ↔ value < 2 ^ 16 := by
  constructor
  · intro same
    rw [← same]
    simpa using beNat_lt (beBytes 2 value)
  · exact fun fits => beNat_beBytes (by simpa using fits)

theorem lengthsMatch_outerHeaders_iff (cfg : GtpuConfig) (tun : GtpuTxTun)
    (route : EncapRoute) {innerLen : Nat} {check packet : List UInt8}
    (checkSized : check.length = 2) (packetSized : packet.length = innerLen) :
    LengthsMatch (outerHeaders cfg tun route innerLen check ++ packet) ↔
      (if tun.outerFamily = afInet then outerL3 tun + udpLen tun innerLen
        else udpLen tun innerLen) < 2 ^ 16 := by
  have isV4 := outerIsV4_outerHeaders cfg tun route innerLen check packet
  have udpAt := outerUdpOff_outerHeaders cfg tun route innerLen check packet
  have udpField := udpLen_outerHeaders cfg tun route innerLen check packet
  have gtpuField := gtpuLength_outerHeaders cfg tun route innerLen check packet checkSized
  have frameSized : (outerHeaders cfg tun route innerLen check ++ packet).length =
      ethHlen + (outerL3 tun + udpLen tun innerLen) := by
    rw [List.length_append, length_outerHeaders cfg tun route innerLen checkSized,
      packetSized, outerLen, udpLen]
    omega
  have gtpuShorter : gtpuLength tun innerLen =
      udpLen tun innerLen - (sizeofUdphdr + gtpuHdrMin) := by
    unfold gtpuLength udpLen gtpuLen
    split <;> simp only [gtpuHdrMin, gtpuHdrOpt, sizeofUdphdr] <;> omega
  have udpFits : udpLen tun innerLen < 2 ^ 16 →
      beNat (beBytes 2 (udpLen tun innerLen)) = udpLen tun innerLen ∧
        beNat (beBytes 2 (gtpuLength tun innerLen)) = gtpuLength tun innerLen := by
    intro fits
    refine ⟨(beNat_beBytes_two_iff _).mpr fits, (beNat_beBytes_two_iff _).mpr ?_⟩
    omega
  constructor
  · intro lengths
    have ip := lengths.ip
    rw [if_congr isV4 rfl rfl, frameSized] at ip
    split
    · next v4 =>
        rw [if_pos v4, totLen_outerHeaders cfg tun route innerLen check packet v4,
          Nat.add_sub_cancel_left] at ip
        exact (beNat_beBytes_two_iff _).mp ip
    · next notV4 =>
        rw [if_neg notV4, payloadLen_outerHeaders cfg tun route innerLen check packet
          notV4, outerL3_of_not_v4 notV4, ← Nat.add_assoc, Nat.add_sub_cancel_left] at ip
        exact (beNat_beBytes_two_iff _).mp ip
  · intro fits
    obtain ⟨udpKept, gtpuKept⟩ := udpFits (by split at fits <;> omega)
    constructor
    · rw [if_congr isV4 rfl rfl, frameSized]
      split
      · next v4 =>
          rw [if_pos v4] at fits
          rw [totLen_outerHeaders cfg tun route innerLen check packet v4, Nat.add_sub_cancel_left]
          exact (beNat_beBytes_two_iff _).mpr fits
      · next notV4 =>
          rw [payloadLen_outerHeaders cfg tun route innerLen check packet notV4, udpKept,
            outerL3_of_not_v4 notV4]
          omega
    · rw [udpAt, udpField, udpKept, frameSized]
      omega
    · rw [udpAt, gtpuField, gtpuKept, frameSized, gtpuShorter]
      omega

/-- The length fields of a frame that leaves are right exactly when the outer
packet fits them: nothing keeps a longer one, which only an IPv4 outer header
lets through, from being sent with its lengths cut off. -/
theorem lengths_match_iff_fit {helpers : BpfHelpers} {maps : ForwardingMaps}
    {config : Option GtpuConfig} {frag frag' : TxFragMap} {skb : SkBuff}
    {oif : UInt32} {frame : List UInt8}
    (redirected : gtpuEncap helpers maps config frag skb = (frag', .redirect oif frame)) :
    LengthsMatch frame ↔ FitsLengths maps frag skb := by
  obtain ⟨inner, tun, cfg, route, parsed, selected, bounded, built⟩ := gtpuEncap_redirect redirected
  obtain ⟨long, l4⟩ := parseInner_l4Off parsed
  obtain ⟨check, packet, checkSized, _, rfl, refinished⟩ := encapFrame_shape long l4 bounded built
  have packetSized : packet.length = skb.bytes.length - ethHlen := by
    rw [refinished.length_eq, List.length_drop]
  have fits : FitsLengths maps frag skb ↔
      outerL3 tun + udpLen tun (skb.bytes.length - ethHlen) < 2 ^ 16 := by
    constructor
    · exact fun every => every inner tun parsed selected
    · intro short other tun' parsed' selected'
      rw [parsed] at parsed'
      obtain rfl := Option.some.inj parsed'
      rw [selected] at selected'
      obtain rfl := Option.some.inj selected'
      exact short
  rw [fits]
  generalize skb.bytes.length - ethHlen = innerLen at *
  rw [lengthsMatch_outerHeaders_iff cfg tun route checkSized packetSized]
  split
  · rfl
  · next notV4 =>
      have short := bounded notV4
      rw [outerL3_of_not_v4 notV4]
      simp only [csumMaxLen, csumChunk, csumChunks, sizeofIpv6hdr] at short ⊢
      omega

def v4Maps : ForwardingMaps := (gtpuTeidAdd (.empty 4 4) homeBearer).1

def v4Route : EncapRoute where
  smac := homeBearer.srcMac
  dmac := homeBearer.dstMac
  oif := homeBearer.txIfindex

def v4Emitted (skb : SkBuff) : List UInt8 :=
  match (gtpuEncap softHelpers v4Maps (some v6Config) (fun _ => none) skb).2 with
  | .redirect _ frame => frame
  | _ => []

theorem v4Emitted_sent : (gtpuEncap softHelpers v4Maps (some v6Config) (fun _ => none)
    (udpDatagram [0, 0])).2 = .redirect 2 (v4Emitted (udpDatagram [0, 0])) := by
  decide

theorem short_datagram_lengths_match :
    ∃ frag', gtpuEncap softHelpers v4Maps (some v6Config) (fun _ => none)
        (udpDatagram [0, 0]) = (frag', .redirect 2 (v4Emitted (udpDatagram [0, 0]))) ∧
      LengthsMatch (v4Emitted (udpDatagram [0, 0])) := by
  have checked : ((parseInner (udpDatagram [0, 0])).all fun inner =>
      (selectTunnel v4Maps (fun _ => none) (udpDatagram [0, 0]).bytes inner).all
        fun tun => outerL3 tun +
          udpLen tun ((udpDatagram [0, 0]).bytes.length - ethHlen) < 2 ^ 16) = true := by
    decide
  obtain ⟨frag', redirected⟩ := exists_pair_of_snd v4Emitted_sent
  refine ⟨frag', redirected, (lengths_match_iff_fit redirected).mpr ?_⟩
  intro inner tun parsed selected
  rw [parsed, Option.all_some, selected, Option.all_some] at checked
  exact of_decide_eq_true checked

def espHeaders : List UInt8 :=
  [2, 2, 2, 2, 2, 2, 2, 2, 2, 2, 2, 2, 0x08, 0x00, 0x45, 0, 0xFF, 0xF0, 0, 7, 0, 0,
    64, 50, 0, 0, 10, 0, 0, 1, 10, 45, 0, 1]

def espPacket (payload : List UInt8) : SkBuff := .ofBytes (espHeaders ++ payload)

def espInner : InnerPacket where
  family := afInet
  proto := 50
  ueAddr := addr16 [10, 45, 0, 1]
  innerSaddr := addr16 [10, 0, 0, 1]
  l4Off := 34
  innerL4Len := 65500
  fragId := 0
  fragHead := false
  fragTail := false

theorem parseInner_espPacket (payload : List UInt8) :
    parseInner (espPacket payload) = some espInner := by
  have inside : ∀ pos len, pos + len ≤ 34 →
      slice (espHeaders ++ payload) pos len = slice espHeaders pos len :=
    fun pos len fits => slice_append_left fits
  have byteAt : ∀ pos, pos < 34 → (espHeaders ++ payload).getD pos 0 = espHeaders.getD pos 0 := by
    intro pos fits
    rw [List.getD_eq_getElem?_getD, List.getElem?_append_left fits, List.getD_eq_getElem?_getD]
  have linear : ¬ ethHlen + sizeofIphdr > (espHeaders ++ payload).length := by
    simp [espHeaders, ethHlen, sizeofIphdr]
  have linear' : ¬ ethHlen > (espHeaders ++ payload).length := by
    simp [espHeaders, ethHlen]
  simp only [parseInner, parseInner4, espPacket, SkBuff.ofBytes, linear, linear',
    if_false, inside 12 2 (by decide), inside 20 2 (by decide),
    inside 16 2 (by decide), inside 30 4 (by decide), inside 26 4 (by decide),
    inside 18 2 (by decide), byteAt 14 (by decide), byteAt 23 (by decide)]
  rw [if_pos (by decide)]
  decide +kernel

theorem length_espPacket (payload : List UInt8) :
    (espPacket payload).bytes.length = ethHlen + (20 + payload.length) := by
  simp only [espPacket, SkBuff.ofBytes, List.length_append]
  rw [show espHeaders.length = ethHlen + 20 from rfl, Nat.add_assoc]

theorem espPacket_redirected (payload : List UInt8) :
    (gtpuEncap softHelpers v4Maps (some v6Config) (fun _ => none) (espPacket payload)).2 =
      .redirect 2 (outerHeaders v6Config (tunToTx homeBearer) v4Route
        (20 + payload.length) [0, 0] ++ (espPacket payload).bytes.drop ethHlen) := by
  have noPorts : innerPorts (espPacket payload).bytes espInner = (0, 0) := if_neg (by decide)
  have selected : selectTunnel v4Maps (fun _ => none) (espPacket payload).bytes
      espInner = some (tunToTx homeBearer) := by
    simp only [selectTunnel, noPorts]
    decide
  have sized : (espPacket payload).bytes.length - ethHlen = 20 + payload.length := by
    rw [length_espPacket, Nat.add_sub_cancel_left]
  have routed : encapRoute softHelpers v6Config (tunToTx homeBearer)
      (espPacket payload) (20 + payload.length) = v4Route := by
    rw [encapRoute, if_pos (by decide)]
    rfl
  have built : encapFrame softHelpers v6Config (tunToTx homeBearer) v4Route espInner
      (espPacket payload).bytes =
        some (outerHeaders v6Config (tunToTx homeBearer) v4Route (20 + payload.length)
          [0, 0] ++ (espPacket payload).bytes.drop ethHlen) := by
    rw [encapFrame_eq _ _ _ _ _ (by rw [length_espPacket]; omega), sized]
    simp only [softHelpers, Option.bind_some]
    rw [outerChecksum, if_pos (by rfl), Option.bind_some,
      innerChecksum_of_not_finished (by decide), encapHeaders, outerHeaders,
      outerUdpHeader]
    simp only [List.append_assoc]
  simp only [gtpuEncap, parseInner_espPacket, selected, encapTunnel, sized, routed, built]
  rw [if_neg (by decide), if_neg (by decide), if_neg (fun long => long.1 (by rfl))]
  rfl

theorem oversized_packet_lengths_cut :
    ∃ frame, (gtpuEncap softHelpers v4Maps (some v6Config) (fun _ => none)
        (espPacket (List.replicate 65500 0))).2 = .redirect 2 frame ∧
      ¬ LengthsMatch frame := by
  refine ⟨_, espPacket_redirected _, ?_⟩
  have sized : ((espPacket (List.replicate 65500 0)).bytes.drop ethHlen).length =
      20 + (List.replicate 65500 (0 : UInt8)).length := by
    rw [List.length_drop, length_espPacket, Nat.add_sub_cancel_left]
  rw [lengthsMatch_outerHeaders_iff v6Config (tunToTx homeBearer) v4Route rfl sized,
    List.length_replicate]
  decide

end Pro2Call.Gtpu

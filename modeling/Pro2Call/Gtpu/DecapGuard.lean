import Pro2Call.Gtpu.Decap
import Pro2Call.Gtpu.EncapChecksum

namespace Pro2Call.Gtpu

open Pro2Call.Data

/-! What a frame must be for its headers to be taken off. The conditions are
stated on the bytes of the frame as it arrived. -/

inductive UdpAt (frame : List UInt8) : Nat → Prop
  | ipv4 (etherType : beNat (slice frame 12 2) = ethPIp) (whole : 34 ≤ frame.length)
      (version : (frame.getD 14 0).toNat / 16 = 4)
      (noOptions : (frame.getD 14 0).toNat % 16 = 5)
      (protocol : frame.getD 23 0 = ipprotoUdp)
      (unfragmented : beNat (slice frame 20 2) % 2 ^ 14 = 0) : UdpAt frame 34
  | ipv6 (etherType : beNat (slice frame 12 2) = ethPIpv6) (whole : 54 ≤ frame.length)
      (nextHeader : frame.getD 20 0 = ipprotoUdp) : UdpAt frame 54

/-- The extension headers from `off` on, the first of them of type `next`. Each
begins with its length in words of four bytes and ends with the type of the
next one; type 0 ends the chain in front of the byte at `past`. -/
inductive ExtChain (frame : List UInt8) : Nat → UInt8 → Nat → Prop
  | done (off : Nat) : ExtChain frame off 0 off
  | header {off past : Nat} {next words following : UInt8} (more : next ≠ 0)
      (length : frame[off]? = some words)
      (nonempty : words ≠ 0)
      (last : frame[off + words.toNat * 4 - 1]? = some following)
      (rest : ExtChain frame (off + words.toNat * 4) following past) :
      ExtChain frame off next past

inductive PayloadAt (frame : List UInt8) (gtpuOff : Nat) : Nat → Prop
  | mandatory (bare : frame.getD gtpuOff 0 &&& 0x07 = 0) :
      PayloadAt frame gtpuOff (gtpuOff + 8)
  | optional (present : frame.getD gtpuOff 0 &&& 0x07 ≠ 0)
      (noChain : frame.getD gtpuOff 0 &&& 0x04 = 0) :
      PayloadAt frame gtpuOff (gtpuOff + 12)
  | extended {next : UInt8} {past : Nat} (flagged : frame.getD gtpuOff 0 &&& 0x04 ≠ 0)
      (type : frame[gtpuOff + 11]? = some next)
      (chain : ExtChain frame (gtpuOff + 12) next past) :
      PayloadAt frame gtpuOff past

structure GPduAt (frame : List UInt8) (gtpuOff : Nat) (teid : UInt32) (past : Nat) : Prop where
  whole : gtpuOff + 8 ≤ frame.length
  versionAndPt : frame.getD gtpuOff 0 &&& 0xf0 = 0x30
  messageType : frame.getD (gtpuOff + 1) 0 = 0xFF
  teid : teid.toNat = beNat (slice frame (gtpuOff + 4) 4)
  payload : PayloadAt frame gtpuOff past

inductive IpVersion where
  | v4
  | v6
  deriving DecidableEq, Repr

namespace IpVersion

def number : IpVersion → Nat
  | v4 => 4
  | v6 => 6

def headerLength : IpVersion → Nat
  | v4 => 20
  | v6 => 40

def etherType : IpVersion → Nat
  | v4 => 0x0800
  | v6 => 0x86DD

def destination : IpVersion → List UInt8 → List UInt8
  | v4, packet => slice packet 16 4
  | v6, packet => slice packet 24 16

def address : IpVersion → Vector UInt8 16 → List UInt8
  | v4, field => field.toList.take 4
  | v6, field => field.toList

end IpVersion

def GtpuRxTun.Allows (tun : GtpuRxTun) (version : IpVersion) : Prop :=
  (tun.innerFamily = afInet → version = .v4) ∧ (tun.innerFamily = afInet6 → version = .v6)

structure Admits (tun : GtpuRxTun) (version : IpVersion) (packet : List UInt8) : Prop where
  number : ∃ first rest, packet = first :: rest ∧ first.toNat / 16 = version.number
  allowed : tun.Allows version
  whole : version.headerLength ≤ packet.length
  destination : tun.innerAddr ≠ Vector.replicate 16 0 →
    version.destination packet = version.address tun.innerAddr

/-- Everything that is checked before the headers of `frame` are taken off, up
to the inner packet at `past`. -/
structure Deliverable (rx : BoundedMap UInt32 GtpuRxTun) (frame : List UInt8)
    (tun : GtpuRxTun) (version : IpVersion) (past : Nat) : Prop where
  datagram : ∃ udpOff teid, UdpAt frame udpOff ∧ udpOff + 8 ≤ frame.length ∧
    beNat (slice frame (udpOff + 2) 2) = 2152 ∧
    GPduAt frame (udpOff + 8) teid past ∧
    rx.lookup teid = some tun
  inner : Admits tun version (frame.drop past)

inductive Handled (rx : BoundedMap UInt32 GtpuRxTun) (frame : List UInt8) :
    TcAct → List UInt8 → Prop
  | dropped (left : List UInt8) : Handled rx frame .shot left
  | unmodified : Handled rx frame .ok frame
  | delivered {tun : GtpuRxTun} {version : IpVersion} {past : Nat}
      (checked : Deliverable rx frame tun version past) :
      Handled rx frame (if tun.ifindex ≠ 0 then .redirect tun.ifindex else .ok)
        (frame.take 12 ++ (beBytes 2 version.etherType ++ frame.drop past))

variable {packet : OuterPacket} {frame : List UInt8} {off : Nat} {env : DecapEnv}
    {rx : BoundedMap UInt32 GtpuRxTun} {source : DecapSource}

theorem parseOuter4_udpAt {skb : SkBuff} (etherType : beNat (slice skb.bytes 12 2) = ethPIp)
    (parsed : parseOuter4 skb = .outer packet) :
    UdpAt skb.bytes packet.udpOff := by
  have linear := skb.linear_le
  rw [parseOuter4] at parsed
  split at parsed
  · cases parsed
  · rename_i whole
    simp only [ethHlen, sizeofIphdr] at whole
    simp only at parsed
    split at parsed
    · cases parsed
    · rename_i first
      obtain ⟨version, noOptions⟩ := not_or.mp first
      split at parsed
      · cases parsed
      · rename_i protocol
        split at parsed
        · cases parsed
        · rename_i fragment
          split at parsed
          · cases parsed
          · cases parsed
            refine .ipv4 etherType (by omega) (not_not.mp version)
              (not_not.mp noOptions) (not_not.mp protocol) ?_
            rw [← Nat.and_two_pow_sub_one_eq_mod]
            exact not_not.mp fragment

theorem parseOuter6_udpAt {skb : SkBuff} (etherType : beNat (slice skb.bytes 12 2) = ethPIpv6)
    (parsed : parseOuter6 skb = .outer packet) :
    UdpAt skb.bytes packet.udpOff := by
  have linear := skb.linear_le
  rw [parseOuter6] at parsed
  split at parsed
  · cases parsed
  · rename_i whole
    simp only [ethHlen, sizeofIpv6hdr] at whole
    split at parsed
    · cases parsed
    · rename_i nextHeader
      cases parsed
      exact .ipv6 etherType (by omega) (not_not.mp nextHeader)

theorem parseOuter_udpAt (parsed : parseOuter skb = .outer packet) :
    UdpAt skb.bytes packet.udpOff := by
  rw [parseOuter] at parsed
  split at parsed
  · cases parsed
  · split at parsed
    · rename_i etherType
      exact parseOuter4_udpAt etherType parsed
    · split at parsed
      · rename_i etherType
        exact parseOuter6_udpAt etherType parsed
      · cases parsed

theorem extWalk_extChain {next : UInt8} (walked : extWalk frame hops off next = some past) :
    ExtChain frame off next past := by
  induction hops generalizing off next with
  | zero =>
    rw [extWalk] at walked
    split at walked
    · rename_i last
      cases walked
      rw [last]
      exact .done past
    · cases walked
  | succ hops ih =>
    rw [extWalk] at walked
    split at walked
    · rename_i last
      cases walked
      rw [last]
      exact .done past
    · rename_i more
      split at walked
      · cases walked
      · rename_i words length
        split at walked
        · cases walked
        · rename_i nonempty
          split at walked
          · cases walked
          · rename_i following last
            exact .header more length nonempty last (ih walked)

theorem payloadOff_payloadAt (found : payloadOff frame gtpuOff (frame.getD gtpuOff 0) = some past) :
    PayloadAt frame gtpuOff past := by
  rw [payloadOff] at found
  split at found
  · rename_i present
    split at found
    · rename_i flagged
      split at found
      · cases found
      · rename_i next type
        exact .extended flagged type (extWalk_extChain found)
    · rename_i noChain
      cases found
      exact .optional present (not_not.mp noChain)
  · rename_i bare
    cases found
    exact .mandatory (not_not.mp bare)

theorem getD_slice (bytes : List UInt8) (pos : Nat) {len i : Nat} (inside : i < len) :
    (slice bytes pos len).getD i 0 = bytes.getD (pos + i) 0 := by
  rw [slice, List.getD_eq_getElem?_getD, List.getD_eq_getElem?_getD,
    List.getElem?_take_of_lt inside, List.getElem?_drop]

theorem slice_slice (bytes : List UInt8) (pos : Nat) {len count : Nat}
    (inside : off + count ≤ len) :
    slice (slice bytes pos len) off count = slice bytes (pos + off) count := by
  rw [slice, slice, slice, List.drop_take, List.take_take, List.drop_drop,
    Nat.min_eq_left (by omega)]

theorem cons_of_drop (inside : off < frame.length) :
    frame.drop off = frame.getD off 0 :: frame.drop (off + 1) := by
  rw [List.drop_eq_getElem_cons inside, List.getD_eq_getElem?_getD,
    List.getElem?_eq_getElem inside, Option.getD_some]

theorem destination_drop {pos len : Nat}
    (read : skbLoadBytes frame (off + pos) len = some expected) :
    slice (frame.drop off) pos len = expected := by
  obtain ⟨_, rfl⟩ := skbLoadBytes_eq_some read
  rw [slice, slice, List.drop_drop]

theorem admits_of_checks {tun : GtpuRxTun} {version : IpVersion} {pos len : Nat}
    (reads : ∀ packet, version.destination packet = slice packet pos len)
    (inside : off < frame.length)
    (number : (frame.getD off 0).toNat / 16 = version.number)
    (allowed : tun.Allows version)
    (whole : version.headerLength ≤ frame.length - off)
    (matched : tun.innerAddr = Vector.replicate 16 0 ∨ skbLoadBytes frame (off + pos) len =
        some (version.address tun.innerAddr)) :
    Admits tun version (frame.drop off) where
  number := ⟨_, _, cons_of_drop inside, number⟩
  allowed := allowed
  whole := by rwa [List.length_drop]
  destination := by
    intro checked
    rw [reads]
    exact destination_drop (matched.resolve_left checked)

theorem of_addressCheck [Decidable unchecked] [Decidable matched] {delivered family : UInt8}
    (found : (if unchecked then some delivered
      else if matched then some delivered else none) = some family) :
    family = delivered ∧ (unchecked ∨ matched) := by
  split at found
  · rename_i free
    exact ⟨(Option.some.inj found).symm, .inl free⟩
  · split at found
    · rename_i same
      exact ⟨(Option.some.inj found).symm, .inr same⟩
    · cases found

theorem innerFamily_admits {family : UInt8} (found : innerFamily frame off tun = some family) :
    ∃ version, Admits tun version (frame.drop off) ∧
      (if family = afInet then ethPIp else ethPIpv6) = version.etherType := by
  rw [innerFamily] at found
  split at found
  · cases found
  · rename_i inside
    simp only at found
    generalize chosen : (if tun.innerFamily = afUnspec then
      if (frame.getD off 0).toNat / 16 = 6 then afInet6 else afInet
      else tun.innerFamily) = delivered at found
    -- an entry of one family has its own branch
    have fixed : ∀ {only}, tun.innerFamily = only → only ≠ afUnspec → delivered = only := by
      rintro only same named
      rw [same, if_neg named] at chosen
      exact chosen.symm
    split at found
    · rename_i isInet
      split at found
      · cases found
      · rename_i header
        obtain ⟨number, whole⟩ := not_or.mp header
        obtain ⟨rfl, matched⟩ := of_addressCheck found
        have allowed : tun.Allows .v4 := by
          refine ⟨fun _ => rfl, ?_⟩
          intro only
          cases (fixed only (by decide)).symm.trans isInet
        refine ⟨.v4, ?_, by rw [if_pos isInet]; rfl⟩
        exact admits_of_checks (fun _ => rfl) (Nat.not_le.mp inside)
          (not_not.mp number) allowed (Nat.not_lt.mp whole) matched
    · rename_i other
      split at found
      · cases found
      · rename_i header
        obtain ⟨number, whole⟩ := not_or.mp header
        obtain ⟨rfl, matched⟩ := of_addressCheck found
        have allowed : tun.Allows .v6 := by
          refine ⟨?_, fun _ => rfl⟩
          intro only
          exact absurd (fixed only (by decide)) other
        refine ⟨.v6, ?_, by rw [if_neg other]; rfl⟩
        exact admits_of_checks (fun _ => rfl) (Nat.not_le.mp inside)
          (not_not.mp number) allowed (Nat.not_lt.mp whole) matched

theorem reported_shot {kind : GtpuEventKind} :
    Handled rx arrived (reported env .shot frame kind teid source stat).act
      (reported env .shot frame kind teid source stat).frame := by
  simp only [reported]
  split <;> exact .dropped frame

theorem reported_ok {kind : GtpuEventKind} :
    Handled rx frame (reported env .ok frame kind teid source stat).act
      (reported env .ok frame kind teid source stat).frame := by
  simp only [reported]
  split <;> exact .unmodified

theorem skbStoreBytes_stripped (long : ethHlen ≤ frame.length)
    (stored : skbStoreBytes (frame.take ethHlen ++ frame.drop past) 12
      (beBytes 2 proto) = some delivered) :
    delivered = frame.take 12 ++ (beBytes 2 proto ++ frame.drop past) := by
  have split : frame.take ethHlen = frame.take 12 ++ slice frame 12 2 := by
    rw [ethHlen, slice, ← List.take_add]
  have front : (frame.take 12).length = 12 := by
    rw [ethHlen] at long
    rw [List.length_take]
    omega
  have middle : (slice frame 12 2).length = (beBytes 2 proto).length := by
    rw [ethHlen] at long
    rw [length_slice (by omega), length_beBytes]
  rw [split, skbStoreBytes_replace _ middle.symm _ front.symm] at stored
  cases stored
  rw [List.append_assoc]

theorem decapInner_handled (long : ethHlen ≤ frame.length)
    (checked : ∀ version, Admits tun version (frame.drop off) →
      Deliverable rx frame tun version off) :
    Handled rx frame (decapInner env frame off teid source tun).act
      (decapInner env frame off teid source tun).frame := by
  rw [decapInner]
  split
  · exact reported_shot
  · rename_i family found
    simp only
    generalize (if family ≠ source.family then
      if family = afInet6 then AdjRoomDecap.l3Ipv6 else .l3Ipv4
      else .same) = decap
    split
    · exact reported_shot
    · split
      · exact .dropped _
      · rename_i delivered stored
        obtain ⟨version, admitted, etherType⟩ := innerFamily_admits found
        rw [skbStoreBytes_stripped long stored, etherType]
        exact .delivered (checked version admitted)

theorem decapMessage_handled (udp : UdpAt frame udpOff) (whole : udpOff + 8 ≤ frame.length)
    (port : beNat (slice frame (udpOff + 2) 2) = 2152) :
    Handled rx frame (decapMessage env rx frame (udpOff + 8) source).act
      (decapMessage env rx frame (udpOff + 8) source).frame := by
  rw [decapMessage]
  split
  · exact .unmodified
  · rename_i g read
    obtain ⟨header, rfl⟩ := skbLoadBytes_eq_some read
    rw [gtpuHdrMin] at header
    simp only [gtpuHdrMin, getD_slice _ _ (show 0 < 8 by decide),
      getD_slice _ _ (show 1 < 8 by decide),
      slice_slice _ _ (show 4 + 4 ≤ 8 by decide), Nat.add_zero]
    split
    · exact .unmodified
    · rename_i versionAndPt
      split
      · exact reported_ok
      · split
        · exact .unmodified
        · rename_i messageType
          split
          · exact .unmodified
          · rename_i past found
            split
            · exact reported_ok
            · rename_i tun entry
              apply decapInner_handled
              · rw [ethHlen]
                omega
              · intro version admitted
                refine ⟨⟨udpOff, _, udp, whole, port, ?_, entry⟩, admitted⟩
                refine ⟨header, not_not.mp versionAndPt, not_not.mp messageType,
                  ?_, payloadOff_payloadAt found⟩
                rw [UInt32.toNat_ofNat', Nat.mod_eq_of_lt]
                have bound := beNat_lt (slice frame (udpOff + 8 + 4) 4)
                rwa [length_slice (by omega)] at bound

/-- Headers are taken off only a frame that passed every check; every other
frame is passed on as it arrived or dropped. -/
theorem gtpuDecap_handled (env : DecapEnv) (rx : BoundedMap UInt32 GtpuRxTun)
    (config : Option GtpuConfig) (skb : SkBuff) :
    Handled rx skb.bytes (gtpuDecap env rx config skb).act (gtpuDecap env rx config skb).frame := by
  rw [gtpuDecap]
  split
  · exact .unmodified
  · exact .dropped _
  · rename_i outer parsed
    split
    · exact .unmodified
    · rename_i udp read
      obtain ⟨whole, rfl⟩ := skbLoadBytes_eq_some read
      rw [sizeofUdphdr] at whole
      simp only [sizeofUdphdr, slice_slice _ _ (show 2 + 2 ≤ 8 by decide)]
      split
      · exact .unmodified
      · rename_i port
        split
        · exact reported_shot
        · exact decapMessage_handled (parseOuter_udpAt parsed) whole (not_not.mp port)

end Pro2Call.Gtpu

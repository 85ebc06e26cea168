import Pro2Call.Gtpu.Encap
import Pro2Call.Gtpu.TableStep

namespace Pro2Call.Gtpu

open Pro2Call.Data

/-- The checksum as the receiver verifies it: the pseudo header of the outer
IPv6 header and everything behind that header sum to 0xFFFF. -/
def OuterVerifies (frame : List UInt8) : Prop :=
  onesSum (pseudoHeader6 (slice frame 22 16) (slice frame 38 16)
        (frame.length - 54) (frame.getD 20 0) ++ frame.drop 54) = 0xFFFF

instance (frame : List UInt8) : Decidable (OuterVerifies frame) := by
  unfold OuterVerifies
  infer_instance

/-- The inner L4 checksum of a packet, if the program finishes it, is complete
already when the packet arrives. -/
def InnerComplete (skb : SkBuff) : Prop :=
  ∀ inner, parseInner skb = some inner → inner.finished →
    onesSum (inner.pseudo ++ slice skb.bytes inner.l4Off inner.innerL4Len) = 0xFFFF

variable {frame pseudo front data : List UInt8} {len : Nat} {helpers : BpfHelpers} {tun : GtpuTxTun}
    {skb : SkBuff} {inner : InnerPacket}

theorem skbLoadBytes_eq_some (read : skbLoadBytes frame off len = some loaded) :
    off + len ≤ frame.length ∧ loaded = slice frame off len := by
  unfold skbLoadBytes at read
  split at read
  · rename_i inside
    exact ⟨inside, (Option.some.inj read).symm⟩
  · cases read

theorem leWordSum_round (inside : off + min csumChunk remain ≤ frame.length) :
    leWordSum (slice frame off remain) = leWordSum (slice frame off (min csumChunk remain)) +
        leWordSum (slice frame (off + min csumChunk remain) (remain - min csumChunk remain)) := by
  by_cases last : remain ≤ csumChunk
  · rw [Nat.min_eq_right last, Nat.sub_self]
    simp [slice, leWordSum]
  · have whole : min csumChunk remain = csumChunk := by omega
    rw [whole] at inside ⊢
    have cut := slice_add frame off csumChunk (remain - csumChunk)
    rw [Nat.add_sub_of_le (by omega)] at cut
    rw [cut, leWordSum_append (by rw [length_slice inside]; rfl)]

theorem sameOnes_empty (frame : List UInt8) (off : Nat) (spent : remain = 0) (seed : Nat) :
    SameOnes seed (leWordSum (slice frame off remain) + seed) := by
  simpa [spent, slice, leWordSum] using SameOnes.refl seed

theorem csumPktRange_round (left : remain ≠ 0) (chunks off seed : Nat) :
    csumPktRange helpers frame (chunks + 1) off remain seed =
      (skbLoadBytes frame off (min csumChunk remain)).bind fun loaded =>
        (helpers.csumDiff (loaded ++ List.replicate (csumChunk - min csumChunk remain) 0)
            seed).bind fun sum =>
          csumPktRange helpers frame chunks (off + min csumChunk remain)
            (remain - min csumChunk remain) sum := by
  have part : (if remain > csumChunk then csumChunk else remain) = min csumChunk remain := by
    split <;> omega
  rw [csumPktRange, if_neg left, part]
  dsimp only
  cases skbLoadBytes frame off (min csumChunk remain) with
  | none => rfl
  | some loaded =>
    dsimp only [Option.bind_some]
    cases helpers.csumDiff (loaded ++ List.replicate (csumChunk - min csumChunk remain) 0) seed with
    | none => rfl
    | some sum => rfl

theorem csumPktRange_sum (bounded : remain ≤ csumChunk * chunks) (narrow : seed < 2 ^ 32)
    (computed : csumPktRange helpers frame chunks off remain seed = some sum) :
    sum < 2 ^ 32 ∧ SameOnes sum (leWordSum (slice frame off remain) + seed) := by
  induction chunks generalizing off remain seed with
  | zero =>
    obtain rfl := Option.some.inj computed
    exact ⟨narrow, sameOnes_empty frame off (by omega) seed⟩
  | succ chunks ih =>
    by_cases spent : remain = 0
    · rw [csumPktRange, if_pos spent] at computed
      obtain rfl := Option.some.inj computed
      exact ⟨narrow, sameOnes_empty frame off spent seed⟩
    · rw [csumPktRange_round spent] at computed
      obtain ⟨loaded, read, summed⟩ := Option.bind_eq_some_iff.mp computed
      obtain ⟨inside, rfl⟩ := skbLoadBytes_eq_some read
      obtain ⟨partSum, added, later⟩ := Option.bind_eq_some_iff.mp summed
      obtain ⟨partNarrow, partSame⟩ := helpers.csumDiff_sum added
      rw [leWordSum_append_zeros] at partSame
      have fewer : remain - min csumChunk remain ≤ csumChunk * chunks := by
        rw [Nat.mul_succ] at bounded
        omega
      obtain ⟨sumNarrow, same⟩ := ih fewer partNarrow later
      refine ⟨sumNarrow, same.trans ?_⟩
      rw [leWordSum_round inside]
      have both := partSame.add (leWordSum (slice frame (off + min csumChunk remain)
          (remain - min csumChunk remain)))
      rw [Nat.add_comm partSum, Nat.add_right_comm] at both
      exact both

theorem csumPktRange_isSome (adds : ∀ block start, (helpers.csumDiff block start).isSome)
    (chunks : Nat) (inside : off + remain ≤ frame.length) (seed : Nat) :
    (csumPktRange helpers frame chunks off remain seed).isSome := by
  induction chunks generalizing off remain seed with
  | zero => rfl
  | succ chunks ih =>
    by_cases spent : remain = 0
    · rw [csumPktRange, if_pos spent]
      rfl
    · have loaded : skbLoadBytes frame off (min csumChunk remain) =
          some (slice frame off (min csumChunk remain)) := if_pos (by omega)
      obtain ⟨sum, added⟩ := Option.isSome_iff_exists.mp (adds
        (slice frame off (min csumChunk remain) ++
          List.replicate (csumChunk - min csumChunk remain) 0) seed)
      rw [csumPktRange_round spent, loaded, Option.bind_some, added, Option.bind_some]
      exact ih (by omega) sum

/-- What the walk over a range returns folds to the sum of the seed and the words of the
range, and it returns a sum for every range inside the packet. -/
theorem csumPktRange_folds (helpers : BpfHelpers) (frame : List UInt8) (off len seed : Nat)
    (bounded : len ≤ csumMaxLen) (narrow : seed < 2 ^ 32) :
    (∀ sum, csumPktRange helpers frame csumChunks off len seed = some sum →
      sum < 2 ^ 32 ∧ foldCarry (foldCarry sum) =
        onesFold (seed + leWordSum (slice frame off len ++ List.replicate (len % 2) 0))) ∧
    ((∀ block start, (helpers.csumDiff block start).isSome) → off + len ≤ frame.length →
      (csumPktRange helpers frame csumChunks off len seed).isSome) := by
  refine ⟨fun sum computed => ?_, fun adds inside => csumPktRange_isSome adds _ inside seed⟩
  obtain ⟨sumNarrow, same⟩ := csumPktRange_sum bounded narrow computed
  have folded := (sameOnes_foldCarry (foldCarry sum)).trans (sameOnes_foldCarry sum)
  refine ⟨sumNarrow, ?_⟩
  rw [leWordSum_append_zeros, Nat.add_comm]
  exact (folded.trans same).eq_onesFold (foldCarry_twice_le sumNarrow)

theorem csumPktRange_folds_odd : ∃ sum,
    csumPktRange softHelpers [0x45, 0x10, 0xFF] csumChunks 0 3 0xFFFFFFFF = some sum ∧
      foldCarry (foldCarry sum) = onesFold (0xFFFFFFFF + leWordSum [0x45, 0x10, 0xFF, 0]) := by
  obtain ⟨folds, returns⟩ := csumPktRange_folds softHelpers [0x45, 0x10, 0xFF] 0 3 0xFFFFFFFF
    (by decide) (by decide)
  obtain ⟨sum, computed⟩ := Option.isSome_iff_exists.mp (returns (fun _ _ => rfl) (by decide))
  exact ⟨sum, computed, (folds sum computed).2⟩

theorem csumComplement_sum {off check : Nat} (bounded : len ≤ csumMaxLen)
    (computed : csumComplement helpers frame pseudo off len = some check) :
    check ≤ 65535 ∧ (leWordSum pseudo + leWordSum (slice frame off len) + check) % 65535 = 0 := by
  unfold csumComplement at computed
  cases seeded : helpers.csumDiff pseudo 0 with
  | none =>
    rw [seeded] at computed
    cases computed
  | some seed =>
    rw [seeded] at computed
    dsimp only at computed
    obtain ⟨seedNarrow, seedSame⟩ := helpers.csumDiff_sum seeded
    cases walked : csumPktRange helpers frame csumChunks off len seed with
    | none =>
      rw [walked] at computed
      cases computed
    | some sum =>
      rw [walked] at computed
      obtain rfl := Option.some.inj computed
      obtain ⟨sumNarrow, sumSame⟩ := csumPktRange_sum bounded seedNarrow walked
      have folded := (sameOnes_foldCarry (foldCarry sum)).trans (sameOnes_foldCarry sum)
      have word := foldCarry_twice_le sumNarrow
      have total := folded.mod_eq.trans sumSame.mod_eq
      have start := seedSame.mod_eq
      refine ⟨Nat.sub_le _ _, ?_⟩
      omega

theorem leWordSum_word {word : List UInt8}
    (frontEven : front.length % 2 = 0) (wordSize : word.length = 2)
    (back : List UInt8) :
    leWordSum (front ++ word ++ back) = leWordSum front + leWordSum word + leWordSum back := by
  rw [leWordSum_append (by simp only [List.length_append]; omega), leWordSum_append frontEven]

theorem slice_with_word {lead middle word : List UInt8}
    (inside : middle.length + word.length ≤ len) (after : List UInt8) :
    slice (lead ++ middle ++ word ++ after) lead.length len =
      middle ++ word ++ after.take (len - (middle.length + word.length)) := by
  have split : lead ++ middle ++ word ++ after = lead ++ (middle ++ word ++ after) := by
    simp only [List.append_assoc]
  rw [split, slice, List.drop_left, List.take_append, List.length_append,
    List.take_of_length_le (by rw [List.length_append]; exact inside)]

/-- The complement of a range summed with a zero word in it, stored in the
place of that word, makes the range verify. A stored 0xFFFF for 0 is no
difference to the sum. -/
theorem storeChecksum_sum {middle after : List UInt8} {start pos : Nat}
    {check value : Nat} (even : middle.length % 2 = 0)
    (inside : middle.length + 2 ≤ len) (bounded : len ≤ csumMaxLen)
    (begins : start = front.length) (position : pos = (front ++ middle).length)
    (computed : csumComplement helpers (front ++ middle ++ [0, 0] ++ after)
      pseudo start len = some check)
    (filled : value = check ∨ check = 0 ∧ value = 0xffff)
    (stored : skbStoreBytes (front ++ middle ++ [0, 0] ++ after) pos
      (leBytes 2 value) = some frame) :
    frame = front ++ middle ++ leBytes 2 value ++ after ∧
      (leWordSum pseudo + leWordSum (middle ++ leBytes 2 value ++
        after.take (len - (middle.length + 2)))) % 65535 = 0 := by
  obtain ⟨word, total⟩ := csumComplement_sum bounded computed
  have replaced := skbStoreBytes_replace (front ++ middle)
    (show (leBytes 2 value).length = [(0 : UInt8), 0].length from
      length_leBytes 2 value) after position
  rw [replaced] at stored
  refine ⟨(Option.some.inj stored).symm, ?_⟩
  rw [begins, slice_with_word inside, leWordSum_word even rfl] at total
  rw [leWordSum_word even (length_leBytes 2 value), leWordSum_leBytes (by omega)]
  have zero : leWordSum [0, 0] = 0 := rfl
  simp only [List.length_cons, List.length_nil, Nat.zero_add, Nat.reduceAdd] at total
  omega

theorem outerUdp_eq (tun : GtpuTxTun) (innerLen : Nat) (check : List UInt8) :
    outerUdp tun innerLen check = outerUdp tun innerLen [] ++ check := by
  simp [outerUdp]

theorem length_outerUdp_nil (tun : GtpuTxTun) (innerLen : Nat) :
    (outerUdp tun innerLen []).length = 6 := by
  simp [outerUdp]

theorem outerL3_of_not_v4 (notV4 : tun.outerFamily ≠ afInet) : outerL3 tun = sizeofIpv6hdr :=
  if_neg notV4

theorem encapHeaders_of_not_v4
    (notV4 : tun.outerFamily ≠ afInet) (cfg : GtpuConfig) (route : EncapRoute)
    (innerLen : Nat) :
    encapHeaders cfg tun route innerLen = ethHeader tun route ++ outerIp6Header cfg tun innerLen ++
        (outerUdp tun innerLen [] ++ [0, 0] ++ gtpuHeader tun innerLen) := by
  rw [encapHeaders, if_neg notV4, outerUdpHeader, outerUdp_eq]
  simp only [List.append_assoc]

theorem outerChecksum_sum (notV4 : tun.outerFamily ≠ afInet)
    (bounded : udpLen tun innerLen ≤ csumMaxLen)
    (sized : data.length = innerLen)
    (stored : outerChecksum helpers cfg tun innerLen
      (encapHeaders cfg tun route innerLen ++ data) = some frame) :
    ∃ check : List UInt8, check.length = 2 ∧
      frame = ethHeader tun route ++ outerIp6Header cfg tun innerLen ++
        (outerUdp tun innerLen check ++ gtpuHeader tun innerLen) ++ data ∧
      (leWordSum (pseudoHeader6 cfg.localV6.toList tun.remoteAddr.toList
          (udpLen tun innerLen) ipprotoUdp) +
        leWordSum (outerUdp tun innerLen check ++ gtpuHeader tun innerLen ++
          data)) % 65535 = 0 := by
  rw [outerChecksum, if_neg notV4, outerL3_of_not_v4 notV4, encapHeaders_of_not_v4 notV4] at stored
  have regroup : ethHeader tun route ++ outerIp6Header cfg tun innerLen ++
      (outerUdp tun innerLen [] ++ [0, 0] ++ gtpuHeader tun innerLen) ++ data =
      ethHeader tun route ++ outerIp6Header cfg tun innerLen ++
        outerUdp tun innerLen [] ++ [0, 0] ++ (gtpuHeader tun innerLen ++ data) := by
    simp only [List.append_assoc]
  have dataSized : udpLen tun innerLen - ((outerUdp tun innerLen []).length + 2) =
      (gtpuHeader tun innerLen ++ data).length := by
    simp only [List.length_append, length_outerUdp_nil, length_gtpuHeader,
      sized, udpLen, sizeofUdphdr]
    omega
  have inside : (outerUdp tun innerLen []).length + 2 ≤ udpLen tun innerLen := by
    simp only [length_outerUdp_nil, udpLen, sizeofUdphdr]
    omega
  rw [regroup] at stored
  dsimp only at stored
  split at stored
  · cases stored
  · rename_i check computed
    generalize filled : (if check = 0 then 0xffff else check) = value at stored
    obtain ⟨rfl, total⟩ := storeChecksum_sum (by rw [length_outerUdp_nil])
      inside bounded (by simp) (by simp [length_outerUdp_nil, Nat.add_assoc])
      computed (by rw [← filled]; split <;> omega) stored
    refine ⟨leBytes 2 value, length_leBytes 2 value, ?_, ?_⟩
    · rw [outerUdp_eq tun innerLen (leBytes 2 value)]
      simp only [List.append_assoc]
    · rw [dataSized, List.take_length] at total
      rw [outerUdp_eq, List.append_assoc]
      exact total

theorem parseInner_l4Off (parsed : parseInner skb = some inner) :
    ethHlen ≤ skb.bytes.length ∧
      (inner.l4Off = 0 ∨ ethHlen ≤ inner.l4Off ∧ inner.l4Off % 2 = 0) := by
  obtain ⟨accepted, ⟨_, _, long⟩ | ⟨_, _, long⟩⟩ := parseInner_accepted parsed
  · exact ⟨by omega, accepted.l4⟩
  · exact ⟨by omega, accepted.l4⟩

theorem finished_checkOff (finished : inner.finished) :
    inner.checkOff % 2 = 0 ∧ inner.checkOff + 2 ≤ inner.innerL4Len := by
  obtain ⟨_, proto, least, _⟩ := finished
  unfold InnerPacket.checkOff
  rcases proto with udp | tcp
  · rw [if_pos udp] at least ⊢
    exact ⟨rfl, least⟩
  · have notUdp : inner.proto ≠ ipprotoUdp := by
      rw [tcp]
      decide
    rw [if_neg notUdp] at least ⊢
    omega

/-- Finishing the inner checksum replaces the word of the checksum field and
makes the packet verify. The new word and the old one are congruent exactly as
far as the packet that arrived already verified. -/
theorem innerChecksum_sum (finished : inner.finished)
    (l4Even : inner.l4Off % 2 = 0) (l4Long : ethHlen ≤ inner.l4Off)
    (frontSized : front.length = ethHlen + grown)
    (stored : innerChecksum helpers inner grown (front ++ data) = some frame) :
    ∃ before old new after, data = before ++ old ++ after ∧
      frame = front ++ (before ++ new ++ after) ∧
      before.length = inner.l4Off - ethHlen + inner.checkOff ∧
      old.length = 2 ∧ new.length = 2 ∧
      (leWordSum inner.pseudo + leWordSum (slice (before ++ new ++ after)
          (inner.l4Off - ethHlen) inner.innerL4Len)) % 65535 = 0 ∧
      (leWordSum inner.pseudo + leWordSum (slice data (inner.l4Off - ethHlen) inner.innerL4Len) +
          leWordSum new) % 65535 = leWordSum old % 65535 := by
  obtain ⟨checkEven, checkInside⟩ := finished_checkOff finished
  unfold innerChecksum at stored
  rw [if_pos finished] at stored
  dsimp only at stored
  have room : inner.l4Off + grown + inner.checkOff + [(0 : UInt8), 0].length ≤
      (front ++ data).length := by
    by_contra short
    rw [skbStoreBytes, if_neg short] at stored
    cases stored
  rw [List.length_append, List.length_cons, List.length_singleton] at room
  have dataSized : data.length = inner.l4Off - ethHlen + (inner.checkOff +
      (2 + (data.length - (inner.l4Off - ethHlen) - inner.checkOff - 2))) := by
    omega
  obtain ⟨lead, rest, rfl, leadSized, restSized⟩ := exists_append_of_length dataSized
  obtain ⟨middle, rest, rfl, middleSized, restSized⟩ := exists_append_of_length restSized
  obtain ⟨old, after, rfl, oldSized, _⟩ := exists_append_of_length restSized
  have position : inner.l4Off + grown + inner.checkOff = (front ++ lead ++ middle).length := by
    simp only [List.length_append]
    omega
  have start : inner.l4Off + grown = (front ++ lead).length := by
    rw [List.length_append]
    omega
  have regroup : front ++ (lead ++ (middle ++ (old ++ after))) =
      front ++ lead ++ middle ++ old ++ after := by
    simp only [List.append_assoc]
  have zeroed := skbStoreBytes_replace (front ++ lead ++ middle)
    (show [(0 : UInt8), 0].length = old.length from oldSized.symm) after position
  rw [regroup, zeroed] at stored
  dsimp only at stored
  split at stored
  · cases stored
  · rename_i check computed
    generalize filled : (if inner.proto = ipprotoUdp ∧ check = 0 then 0xffff
      else check) = value at stored
    have middleEven : middle.length % 2 = 0 := by omega
    have inside : middle.length + 2 ≤ inner.innerL4Len := by omega
    obtain ⟨rfl, total⟩ := storeChecksum_sum middleEven inside
      finished.2.2.2 start position computed
      (by rw [← filled]; split <;> omega) stored
    refine ⟨lead ++ middle, old, leBytes 2 value, after, ?_, ?_, ?_, oldSized,
      length_leBytes 2 value, ?_, ?_⟩
    · simp only [List.append_assoc]
    · simp only [List.append_assoc]
    · rw [List.length_append, leadSized, middleSized]
    · rw [← leadSized, slice_with_word (by rw [length_leBytes]; exact inside), length_leBytes]
      exact total
    · rw [← leadSized, ← List.append_assoc, ← List.append_assoc,
        slice_with_word (by omega), leWordSum_word middleEven oldSized,
        oldSized]
      rw [leWordSum_word middleEven (length_leBytes 2 value)] at total
      omega

theorem innerChecksum_of_not_finished (notFinished : ¬ inner.finished) (grown : Nat)
    (frame : List UInt8) :
    innerChecksum helpers inner grown frame = some frame :=
  if_neg notFinished

theorem gtpuLen_even (tun : GtpuTxTun) : gtpuLen tun % 2 = 0 := by
  unfold gtpuLen
  split <;> rfl

theorem length_pseudoHeader6 {src dst : List UInt8} (srcSized : src.length = 16)
    (dstSized : dst.length = 16) (len : Nat) (nexthdr : UInt8) :
    (pseudoHeader6 src dst len nexthdr).length = 40 := by
  simp [pseudoHeader6, srcSized, dstSized]

theorem onesSum_pseudo_iff (even : pseudo.length % 2 = 0) (member : proto ∈ pseudo)
    (nonzero : proto ≠ 0) (payload : List UInt8) :
    onesSum (pseudo ++ payload) = 0xFFFF ↔ (leWordSum pseudo + leWordSum payload) % 65535 = 0 := by
  rw [onesSum_eq_full_iff, leWordSum_append even]
  constructor
  · exact fun verified => verified.2
  · intro multiple
    refine ⟨?_, multiple⟩
    intro zero
    exact nonzero (leWordSum_eq_zero (by omega) member)

theorem slice_part {part : List UInt8} (position : pos = front.length) (sized : len = part.length)
    (tail : List UInt8) : slice (front ++ part ++ tail) pos len = part := by
  rw [position, sized, slice_append_length]

theorem outerVerifies_iff {datagram : List UInt8} (sized : datagram.length = udpLen tun innerLen) :
    OuterVerifies (ethHeader tun route ++ outerIp6Header cfg tun innerLen ++ datagram) ↔
      (leWordSum (pseudoHeader6 cfg.localV6.toList tun.remoteAddr.toList
          (udpLen tun innerLen) ipprotoUdp) + leWordSum datagram) % 65535 =
        0 := by
  have head : (ethHeader tun route ++ outerIp6Header cfg tun innerLen).length = 54 := by
    simp [ethHlen, sizeofIpv6hdr]
  have bySrc : ethHeader tun route ++ outerIp6Header cfg tun innerLen ++ datagram =
      (ethHeader tun route ++ [0x60, 0, 0, 0] ++
        beBytes 2 (udpLen tun innerLen) ++ [ipprotoUdp, 64]) ++
        cfg.localV6.toList ++ (tun.remoteAddr.toList ++ datagram) := by
    simp [outerIp6Header]
  have byDst : ethHeader tun route ++ outerIp6Header cfg tun innerLen ++ datagram =
      (ethHeader tun route ++ [0x60, 0, 0, 0] ++
        beBytes 2 (udpLen tun innerLen) ++ [ipprotoUdp, 64] ++
        cfg.localV6.toList) ++ tun.remoteAddr.toList ++ datagram := by
    simp [outerIp6Header]
  have byProto : ethHeader tun route ++ outerIp6Header cfg tun innerLen ++ datagram =
      (ethHeader tun route ++ [0x60, 0, 0, 0] ++ beBytes 2 (udpLen tun innerLen)) ++ ipprotoUdp ::
        (64 :: (cfg.localV6.toList ++ tun.remoteAddr.toList ++ datagram)) := by
    simp [outerIp6Header]
  have src : slice (ethHeader tun route ++ outerIp6Header cfg tun innerLen ++
      datagram) 22 16 = cfg.localV6.toList := by
    rw [bySrc]
    exact slice_part (by simp [ethHlen]) (by simp) _
  have dst : slice (ethHeader tun route ++ outerIp6Header cfg tun innerLen ++
      datagram) 38 16 = tun.remoteAddr.toList := by
    rw [byDst]
    exact slice_part (by simp [ethHlen]) (by simp) _
  have nexthdr : (ethHeader tun route ++ outerIp6Header cfg tun innerLen ++
      datagram).getD 20 0 = ipprotoUdp := by
    have front : (ethHeader tun route ++ [0x60, 0, 0, 0] ++
        beBytes 2 (udpLen tun innerLen)).length = 20 := by
      simp [ethHlen]
    rw [byProto, List.getD_eq_getElem?_getD, List.getElem?_append_right (by omega), front]
    rfl
  have payload : (ethHeader tun route ++ outerIp6Header cfg tun innerLen ++
      datagram).drop 54 = datagram := by
    rw [← head, List.drop_left]
  have length : (ethHeader tun route ++ outerIp6Header cfg tun innerLen ++
      datagram).length - 54 = udpLen tun innerLen := by
    rw [List.length_append, head, sized]
    omega
  have member : ipprotoUdp ∈ pseudoHeader6 cfg.localV6.toList
      tun.remoteAddr.toList (udpLen tun innerLen) ipprotoUdp := by
    simp [pseudoHeader6]
  rw [OuterVerifies, src, dst, nexthdr, payload, length]
  refine onesSum_pseudo_iff ?_ member (by decide) datagram
  rw [length_pseudoHeader6 (by simp) (by simp)]

theorem pseudo_even (inner : InnerPacket) : inner.pseudo.length % 2 = 0 := by
  unfold InnerPacket.pseudo
  split
  · simp [pseudoHeader4]
  · rw [length_pseudoHeader6 (by simp) (by simp)]

theorem proto_mem_pseudo (inner : InnerPacket) : inner.proto ∈ inner.pseudo := by
  unfold InnerPacket.pseudo
  split
  · simp [pseudoHeader4]
  · simp [pseudoHeader6]

theorem finished_proto_ne_zero (finished : inner.finished) : inner.proto ≠ 0 := by
  rcases finished.2.1 with udp | tcp
  · rw [udp]
    decide
  · rw [tcp]
    decide

theorem gtpuEncap_redirect
    (redirected : gtpuEncap helpers maps config frag skb = (frag', .redirect oif frame)) :
    ∃ inner tun cfg route, parseInner skb = some inner ∧
      selectTunnel maps frag skb.bytes inner = some tun ∧
      (tun.outerFamily ≠ afInet → udpLen tun (skb.bytes.length - ethHlen) ≤ csumMaxLen) ∧
      encapFrame helpers cfg tun route inner skb.bytes = some frame := by
  unfold gtpuEncap at redirected
  cases parsed : parseInner skb with
  | none =>
    rw [parsed] at redirected
    cases redirected
  | some inner =>
    rw [parsed] at redirected
    dsimp only at redirected
    cases selected : selectTunnel maps frag skb.bytes inner with
    | none =>
      rw [selected] at redirected
      cases redirected
    | some tun =>
      rw [selected] at redirected
      have verdict := (Prod.mk.inj redirected).2
      unfold encapTunnel at verdict
      cases config with
      | none => cases verdict
      | some cfg =>
        dsimp only at verdict
        split at verdict
        · cases verdict
        · split at verdict
          · cases verdict
          · split at verdict
            · cases verdict
            · rename_i accepted
              split at verdict
              · cases verdict
              · rename_i built
                cases verdict
                refine ⟨inner, tun, cfg, _, rfl, selected, ?_, built⟩
                intro notV4
                by_contra long
                exact accepted ⟨notV4, by omega⟩

theorem ethHeader_ethertype (tun : GtpuTxTun) (route : EncapRoute) (tail : List UInt8) :
    beNat (slice (ethHeader tun route ++ tail) 12 2) =
      if tun.outerFamily = afInet then ethPIp else ethPIpv6 := by
  have cut : ethHeader tun route ++ tail = (route.dmac.toList ++ route.smac.toList) ++
        beBytes 2 (if tun.outerFamily = afInet then ethPIp else ethPIpv6) ++ tail := by
    simp [ethHeader]
  rw [cut, slice_part (by simp) (by simp), beNat_beBytes]
  split <;> decide

theorem innerChecksum_front (l4 : inner.l4Off = 0 ∨ ethHlen ≤ inner.l4Off ∧ inner.l4Off % 2 = 0)
    (frontSized : front.length = ethHlen + grown)
    (stored : innerChecksum helpers inner grown (front ++ data) = some frame) :
    ∃ back, frame = front ++ back := by
  by_cases finished : inner.finished
  · obtain ⟨l4Long, l4Even⟩ := l4.resolve_left finished.1
    obtain ⟨before, _, new, after, _, framed, _⟩ :=
      innerChecksum_sum finished l4Even l4Long frontSized stored
    exact ⟨before ++ new ++ after, framed⟩
  · rw [innerChecksum_of_not_finished finished] at stored
    exact ⟨data, (Option.some.inj stored).symm⟩

theorem not_v4_of_ethertype {checked : List UInt8}
    (l4 : inner.l4Off = 0 ∨ ethHlen ≤ inner.l4Off ∧ inner.l4Off % 2 = 0)
    (outer : outerChecksum helpers cfg tun innerLen
      (encapHeaders cfg tun route innerLen ++ data) = some checked)
    (built : innerChecksum helpers inner (outerLen tun) checked = some frame)
    (ipv6 : beNat (slice frame 12 2) = ethPIpv6) :
    tun.outerFamily ≠ afInet := by
  intro v4
  rw [outerChecksum, if_pos v4] at outer
  rw [← Option.some.inj outer] at built
  obtain ⟨back, rfl⟩ := innerChecksum_front l4 (length_encapHeaders cfg tun route innerLen) built
  rw [encapHeaders, List.append_assoc, List.append_assoc, List.append_assoc,
    ethHeader_ethertype, if_pos v4] at ipv6
  exact absurd ipv6 (by decide)

theorem innerComplete_iff (parsed : parseInner skb = some inner) (finished : inner.finished) :
    InnerComplete skb ↔ (leWordSum inner.pseudo +
        leWordSum (slice skb.bytes inner.l4Off inner.innerL4Len)) % 65535 = 0 := by
  rw [← onesSum_pseudo_iff (pseudo_even inner) (proto_mem_pseudo inner)
    (finished_proto_ne_zero finished)]
  constructor
  · intro complete
    exact complete inner parsed finished
  · intro verified other otherParsed _
    rw [parsed] at otherParsed
    obtain rfl := Option.some.inj otherParsed
    exact verified

/-- A frame that leaves with an outer IPv6 header has a valid outer checksum
exactly when the program had nothing to change in the inner packet: finishing
the inner checksum after the outer one was computed invalidates it. -/
theorem outer_verifies_iff_inner_complete {helpers : BpfHelpers}
    {maps : ForwardingMaps} {config : Option GtpuConfig}
    {frag frag' : TxFragMap} {skb : SkBuff} {oif : UInt32}
    {frame : List UInt8}
    (redirected : gtpuEncap helpers maps config frag skb = (frag', .redirect oif frame))
    (ipv6 : beNat (slice frame 12 2) = ethPIpv6) :
    OuterVerifies frame ↔ InnerComplete skb := by
  obtain ⟨inner, tun, cfg, route, parsed, _, bounded, built⟩ := gtpuEncap_redirect redirected
  obtain ⟨long, l4⟩ := parseInner_l4Off parsed
  rw [encapFrame_eq helpers cfg tun route inner long] at built
  obtain ⟨_, _, built⟩ := Option.bind_eq_some_iff.mp built
  obtain ⟨checked, outer, built⟩ := Option.bind_eq_some_iff.mp built
  have notV4 := not_v4_of_ethertype l4 outer built ipv6
  have dataSized : (skb.bytes.drop ethHlen).length = skb.bytes.length - ethHlen := List.length_drop
  obtain ⟨check, checkSized, rfl, total⟩ := outerChecksum_sum notV4 (bounded notV4) dataSized outer
  generalize skb.bytes.length - ethHlen = innerLen at *
  have datagramSized : ∀ data : List UInt8, data.length = innerLen →
      (outerUdp tun innerLen check ++ gtpuHeader tun innerLen ++ data).length =
        udpLen tun innerLen := by
    intro data sized
    rw [outerUdp_eq]
    simp only [List.length_append, length_outerUdp_nil, length_gtpuHeader,
      checkSized, sized, udpLen, sizeofUdphdr]
  by_cases finished : inner.finished
  · obtain ⟨l4Long, l4Even⟩ := l4.resolve_left finished.1
    have frontSized : (ethHeader tun route ++ outerIp6Header cfg tun innerLen ++
        (outerUdp tun innerLen check ++ gtpuHeader tun innerLen)).length =
          ethHlen + outerLen tun := by
      rw [outerUdp_eq, outerLen, outerL3_of_not_v4 notV4]
      simp only [List.length_append, length_ethHeader, length_outerIp6Header,
        length_outerUdp_nil, length_gtpuHeader, checkSized, sizeofUdphdr]
      omega
    obtain ⟨before, old, new, after, split, rfl, beforeSized, oldSized, newSized,
      _, changed⟩ := innerChecksum_sum finished l4Even l4Long frontSized built
    have arrived : slice (skb.bytes.drop ethHlen) (inner.l4Off - ethHlen)
        inner.innerL4Len = slice skb.bytes inner.l4Off inner.innerL4Len := by
      rw [slice, List.drop_drop, Nat.add_sub_of_le l4Long, slice]
    have newDataSized : (before ++ new ++ after).length = innerLen := by
      rw [split] at dataSized
      simp only [List.length_append] at dataSized ⊢
      omega
    have even : (outerUdp tun innerLen check ++ gtpuHeader tun innerLen ++
        before).length % 2 = 0 := by
      have gtpuEven := gtpuLen_even tun
      have checkEven := (finished_checkOff finished).1
      have header : ethHlen % 2 = 0 := rfl
      rw [outerUdp_eq]
      simp only [List.length_append, length_outerUdp_nil, length_gtpuHeader,
        checkSized, beforeSized]
      omega
    have oldSum := leWordSum_word even oldSized after
    have newSum := leWordSum_word even newSized after
    rw [innerComplete_iff parsed finished, List.append_assoc,
      outerVerifies_iff (datagramSized _ newDataSized)]
    rw [split] at total
    rw [arrived] at changed
    simp only [List.append_assoc] at total oldSum newSum ⊢
    omega
  · rw [innerChecksum_of_not_finished finished] at built
    rw [← Option.some.inj built, List.append_assoc, outerVerifies_iff (datagramSized _ dataSized)]
    refine ⟨fun _ => ?_, fun _ => total⟩
    intro other otherParsed otherFinished
    rw [parsed] at otherParsed
    obtain rfl := Option.some.inj otherParsed
    exact absurd otherFinished finished

def v6Maps : ForwardingMaps :=
  (gtpuTeidAdd (.empty 4 4) {
    homeBearer with
    outerFamily := afInet6
    remoteAddr := #v[0x20, 1, 0x0D, 0xB8, 0, 0, 0, 0, 0, 0, 0, 0, 0, 0, 0, 2] }).1

def v6Config : GtpuConfig where
  abiVersion := gtpuAbiVersion
  uplinkIfindex := 2
  localV4 := #v[192, 0, 2, 2]
  localV6 := #v[0x20, 1, 0x0D, 0xB8, 0, 0, 0, 0, 0, 0, 0, 0, 0, 0, 0, 1]

def udpDatagram (check : List UInt8) : SkBuff :=
  .ofBytes (List.replicate 12 2 ++ [0x08, 0x00] ++
    [0x45, 0, 0, 30, 0, 7, 0, 0, 64, 17, 0, 0, 10, 0, 0, 1, 10, 45, 0, 1] ++
    [0x13, 0xC4, 0x13, 0xC4, 0, 10] ++ check ++ [1, 2])

def emitted (skb : SkBuff) : List UInt8 :=
  match (gtpuEncap softHelpers v6Maps (some v6Config) (fun _ => none) skb).2 with
  | .redirect _ frame => frame
  | _ => []

theorem exists_pair_of_snd {pair : α × β} (equation : pair.2 = second) :
    ∃ first, pair = (first, second) :=
  ⟨pair.1, Prod.ext rfl equation⟩

theorem complete_datagram_verifies :
    (∃ frag', gtpuEncap softHelpers v6Maps (some v6Config) (fun _ => none)
        (udpDatagram [0xC3, 0x21]) = (frag', .redirect 2 (emitted (udpDatagram [0xC3, 0x21])))) ∧
      beNat (slice (emitted (udpDatagram [0xC3, 0x21])) 12 2) = ethPIpv6 ∧
      OuterVerifies (emitted (udpDatagram [0xC3, 0x21])) := by
  have sent : (gtpuEncap softHelpers v6Maps (some v6Config) (fun _ => none)
      (udpDatagram [0xC3, 0x21])).2 = .redirect 2 (emitted (udpDatagram [0xC3, 0x21])) := by
    decide +kernel
  have ipv6 : beNat (slice (emitted (udpDatagram [0xC3, 0x21])) 12 2) = ethPIpv6 := by
    decide +kernel
  have checked : ((parseInner (udpDatagram [0xC3, 0x21])).all fun inner =>
      onesSum (inner.pseudo ++ slice (udpDatagram [0xC3, 0x21]).bytes
        inner.l4Off inner.innerL4Len) == 0xFFFF) = true := by
    decide
  have complete : InnerComplete (udpDatagram [0xC3, 0x21]) := by
    intro inner parsed _
    rw [parsed] at checked
    exact eq_of_beq checked
  obtain ⟨frag', redirected⟩ := exists_pair_of_snd sent
  exact ⟨⟨frag', redirected⟩, ipv6,
    (outer_verifies_iff_inner_complete redirected ipv6).mpr complete⟩

/-- A datagram whose checksum is still to be filled in, as the stack hands it
over, leaves with an outer checksum that does not verify. -/
theorem finished_inner_breaks_outer :
    (gtpuEncap softHelpers v6Maps (some v6Config) (fun _ => none) (udpDatagram [0, 0])).2 =
          .redirect 2 (emitted (udpDatagram [0, 0])) ∧
      beNat (slice (emitted (udpDatagram [0, 0])) 12 2) = ethPIpv6 ∧
      ¬ OuterVerifies (emitted (udpDatagram [0, 0])) := by
  decide +kernel

end Pro2Call.Gtpu

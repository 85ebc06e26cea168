import Pro2Call.Rtp.Rtcp

namespace Pro2Call.Rtp

open Pro2Call.Data

/-! The items of an SDES packet, chunk by chunk. -/

structure SdesChunk where
  ssrc : UInt32
  items : List (UInt8 × Bytes)
  deriving DecidableEq, Repr

def itemOctets (item : UInt8 × Bytes) : Bytes := item.1 :: .ofNat item.2.length :: item.2

/-- The items end with at least one null octet, and with as many as it takes to the
next 32-bit boundary. -/
def SdesChunk.octets (chunk : SdesChunk) : Bytes :=
  let items := chunk.items.flatMap itemOctets
  rtpWr32 chunk.ssrc ++ (items ++ List.replicate (4 - items.length % 4) 0)

structure SdesChunk.Plain (chunk : SdesChunk) : Prop where
  types : ∀ item ∈ chunk.items, item.1 ≠ rtcpSdesEnd
  lengths : ∀ item ∈ chunk.items, item.2.length ≤ 255

def SdesChunk.said (chunk : SdesChunk) : List (UInt32 × UInt8 × Bytes) :=
  chunk.items.map fun item => (chunk.ssrc, item.1, item.2)

/-- Calls of `rtcp_sdes_next` until one returns no item: the items, and the error it
ends with, if any. -/
inductive SdesReads : RtcpSdesIter → List (UInt32 × UInt8 × Bytes) → Option RtpErr → Prop
  | ended {it} : rtcpSdesNext it = .ended → SdesReads it [] none
  | failed {it err} : rtcpSdesNext it = .failed err → SdesReads it [] (some err)
  | item {it it' ssrc item value rest err} : rtcpSdesNext it = .item it' ssrc item value →
      SdesReads it' rest err → SdesReads it ((ssrc, item, value) :: rest) err

section Loop

variable {it it' : RtcpSdesIter} {turns : Nat} {ssrc : UInt32} {item : UInt8} {value : Bytes}

theorem sdesItem_item (found : sdesItem it = .item it' ssrc item value) :
    ∃ len : UInt8, len.toNat = value.length ∧ it.p = item :: len :: (value ++ it'.p) := by
  unfold sdesItem at found
  dsimp only at found
  split at found
  · cases found
  rename_i fits
  rw [not_or, Nat.not_lt, Nat.not_lt] at fits
  cases found
  obtain ⟨first, len, rest, shape⟩ : ∃ first len rest, it.p = first :: len :: rest := by
    match it.p, fits.1 with
    | first :: len :: rest, _ => exact ⟨first, len, rest, rfl⟩
  rw [shape] at fits ⊢
  simp only [List.length_cons, List.getD_cons_succ, List.getD_cons_zero] at fits ⊢
  refine ⟨len, ?_, ?_⟩
  · simp [slice]
    omega
  · simp [slice, Nat.add_comm 2]

def Stands (p : Bytes) (item : UInt8) (value back : Bytes) : Prop :=
  ∃ front len, UInt8.toNat len = value.length ∧ p = front ++ item :: len :: (value ++ back)

theorem sdesLoop_succ (it : RtcpSdesIter) :
    (∃ next, (∀ turns, sdesLoop (turns + 1) it = next) ∧ ∀ it' ssrc item value,
        next = .item it' ssrc item value → Stands it.p item value it'.p) ∨
      ∃ it' front, it.p = front ++ it'.p ∧ front ≠ [] ∧
        ∀ turns, sdesLoop (turns + 1) it = sdesLoop turns it' := by
  by_cases done : it.inChunk = false ∧ it.chunksLeft = 0
  · exact .inl ⟨.ended, fun turns => by rw [sdesLoop, if_pos done], by simp⟩
  by_cases short : it.inChunk = false ∧ it.p.length < 4
  · exact .inl ⟨.failed .short, fun turns => by rw [sdesLoop, if_neg done, if_pos short], by simp⟩
  obtain ⟨chunk, entered⟩ : ∃ chunk : RtcpSdesIter, (if it.inChunk then it
      else ⟨it.p.drop 4, rtpRd32 it.p 0, it.chunksLeft - 1, true⟩) = chunk := ⟨_, rfl⟩
  obtain ⟨head, behind⟩ : ∃ head, it.p = head ++ chunk.p := by
    rw [← entered]
    split
    · exact ⟨[], rfl⟩
    · exact ⟨it.p.take 4, (List.take_append_drop 4 it.p).symm⟩
  have turn : ∀ turns, sdesLoop (turns + 1) it =
      if chunk.p.length < 1 then .failed .short
      else if chunk.p.getD 0 0 = rtcpSdesEnd then
        sdesLoop turns { chunk with p := chunk.p.drop ((chunk.p.length - 1) % 4 + 1)
                                    inChunk := false }
      else sdesItem chunk := by
    intro turns
    rw [sdesLoop, if_neg done, if_neg short]
    simp only [entered]
  by_cases empty : chunk.p.length < 1
  · exact .inl ⟨.failed .short, fun turns => by rw [turn, if_pos empty], by simp⟩
  by_cases stop : chunk.p.getD 0 0 = rtcpSdesEnd
  · refine .inr ⟨_, head ++ chunk.p.take ((chunk.p.length - 1) % 4 + 1), ?_, ?_,
      fun turns => by rw [turn, if_neg empty, if_pos stop]⟩
    · rw [List.append_assoc, List.take_append_drop, behind]
    · cases shape : chunk.p with
      | nil => exact absurd (by simp [shape]) empty
      | cons first rest => simp
  · refine .inl ⟨sdesItem chunk, fun turns => by rw [turn, if_neg empty, if_neg stop], ?_⟩
    intro it' ssrc item value found
    obtain ⟨len, sized, shape⟩ := sdesItem_item found
    exact ⟨head, len, sized, by rw [behind, shape]⟩

theorem sdesLoop_eq_next (enough : it.p.length < turns) : sdesLoop turns it = rtcpSdesNext it := by
  induction turns using Nat.strong_induction_on generalizing it with
  | _ turns ih =>
    obtain ⟨turns, rfl⟩ := Nat.exists_eq_add_one.mpr (Nat.zero_lt_of_lt enough)
    rw [rtcpSdesNext]
    obtain ⟨next, every, _⟩ | ⟨it', front, shape, filled, every⟩ := sdesLoop_succ it
    · rw [every, every]
    · have shorter : it'.p.length < it.p.length := by
        rw [shape, List.length_append]
        have := List.length_pos_of_ne_nil filled
        omega
      rw [every, every, ih turns (by omega) (by omega), ih it.p.length (by omega) shorter]

theorem sdesLoop_item (found : sdesLoop turns it = .item it' ssrc item value) :
    Stands it.p item value it'.p := by
  induction turns generalizing it with
  | zero => cases found
  | succ turns ih =>
    obtain ⟨next, every, stands⟩ | ⟨later, front, shape, _, every⟩ := sdesLoop_succ it
    · rw [every] at found
      exact stands _ _ _ _ found
    · rw [every] at found
      obtain ⟨front', len, sized, inside⟩ := ih found
      exact ⟨front ++ front', len, sized, by rw [shape, inside, List.append_assoc]⟩

theorem exists_sdesReads (it : RtcpSdesIter) : ∃ said err, SdesReads it said err ∧
    ∀ entry ∈ said, ∃ back, Stands it.p entry.2.1 entry.2.2 back := by
  induction measure : it.p.length using Nat.strong_induction_on generalizing it with
  | _ size ih =>
    cases next : rtcpSdesNext it with
    | ended => exact ⟨[], none, .ended next, by simp⟩
    | failed err => exact ⟨[], some err, .failed next, by simp⟩
    | item it' ssrc item value =>
      have stands := sdesLoop_item next
      obtain ⟨front, len, sized, shape⟩ := stands
      have shorter : it'.p.length < size := by
        rw [← measure, shape]
        simp only [List.length_append, List.length_cons]
        omega
      obtain ⟨said, err, reads, inside⟩ := ih _ shorter it' rfl
      refine ⟨(ssrc, item, value) :: said, err, .item next reads, ?_⟩
      intro entry member
      rcases List.mem_cons.mp member with rfl | later
      · exact ⟨it'.p, front, len, sized, shape⟩
      · obtain ⟨back, front', len', sized', shape'⟩ := inside entry later
        refine ⟨back, front ++ item :: len :: (value ++ front'), len', sized', ?_⟩
        rw [shape, shape']
        simp

end Loop

section Chunks

variable {ssrc last : UInt32} {left : Nat} {rest : Bytes}

theorem rtcpSdesNext_item {item : UInt8 × Bytes} (type : item.1 ≠ rtcpSdesEnd)
    (short : item.2.length ≤ 255) :
    rtcpSdesNext ⟨itemOctets item ++ rest, ssrc, left, true⟩ =
      .item ⟨rest, ssrc, left, true⟩ ssrc item.1 item.2 := by
  rw [rtcpSdesNext, sdesLoop, if_neg (by simp), if_neg (by simp)]
  simp only [if_true]
  rw [if_neg (by simp [itemOctets]), if_neg (by simpa [itemOctets] using type)]
  have item := sdesItem_written item.1 short ssrc left rest
  simpa [itemOctets] using item

theorem rtcpSdesNext_pad {pad : Nat} (positive : 1 ≤ pad) (few : pad ≤ 4)
    (aligned : rest.length % 4 = 0) :
    rtcpSdesNext ⟨List.replicate pad 0 ++ rest, ssrc, left, true⟩ =
      rtcpSdesNext ⟨rest, ssrc, left, false⟩ := by
  obtain ⟨pad, rfl⟩ := Nat.exists_eq_add_one.mpr positive
  have size : (List.replicate (pad + 1) (0 : UInt8) ++ rest).length = pad + 1 + rest.length := by
    simp
  have skip : (pad + 1 + rest.length - 1) % 4 + 1 = pad + 1 := by omega
  rw [rtcpSdesNext, sdesLoop, if_neg (by simp), if_neg (by simp)]
  simp only [if_true, size, skip]
  rw [if_neg (by omega), if_pos (by simp [List.replicate_succ, rtcpSdesEnd]),
    List.drop_left' (by simp)]
  exact sdesLoop_eq_next (by simp only; omega)

theorem rtcpSdesNext_chunk :
    rtcpSdesNext ⟨rtpWr32 ssrc ++ rest, last, left + 1, false⟩ =
      rtcpSdesNext ⟨rest, ssrc, left, true⟩ := by
  have behind : (rtpWr32 ssrc ++ rest).drop 4 = rest := List.drop_left' (length_rtpWr32 ssrc)
  have enough : rest.length < (rtpWr32 ssrc ++ rest).length + 1 := by
    rw [List.length_append]
    omega
  rw [← @sdesLoop_eq_next ⟨rest, ssrc, left, true⟩ _ enough, rtcpSdesNext, sdesLoop, sdesLoop]
  simp [behind, rtpRd32_here]

theorem SdesReads.of_next {it it' : RtcpSdesIter} (same : rtcpSdesNext it = rtcpSdesNext it')
    {said : List (UInt32 × UInt8 × Bytes)} (reads : SdesReads it' said err) :
    SdesReads it said err := by
  cases reads with
  | ended next => exact .ended (same.trans next)
  | failed next => exact .failed (same.trans next)
  | item next rest => exact .item (same.trans next) rest

theorem sdesReads_items {items : List (UInt8 × Bytes)}
    (types : ∀ item ∈ items, item.1 ≠ rtcpSdesEnd)
    (lengths : ∀ item ∈ items, item.2.length ≤ 255) {tail : Bytes}
    {said : List (UInt32 × UInt8 × Bytes)} (reads : SdesReads ⟨tail, ssrc, left, true⟩ said err) :
    SdesReads ⟨items.flatMap itemOctets ++ tail, ssrc, left, true⟩
      (items.map (fun item => (ssrc, item.1, item.2)) ++ said) err := by
  induction items with
  | nil => exact reads
  | cons item items ih =>
    rw [List.forall_mem_cons] at types lengths
    rw [List.flatMap_cons, List.append_assoc]
    exact .item (rtcpSdesNext_item types.1 lengths.1) (ih types.2 lengths.2)

theorem length_octets_mod (chunks : List SdesChunk) :
    (chunks.flatMap SdesChunk.octets).length % 4 = 0 := by
  induction chunks with
  | nil => rfl
  | cons chunk chunks ih =>
    simp only [List.flatMap_cons, List.length_append, SdesChunk.octets, length_rtpWr32,
      List.length_replicate]
    omega

theorem sdesReads_chunks {chunks : List SdesChunk} (plain : ∀ chunk ∈ chunks, chunk.Plain)
    (last : UInt32) : SdesReads ⟨chunks.flatMap SdesChunk.octets, last, chunks.length, false⟩
      (chunks.flatMap SdesChunk.said) none := by
  induction chunks generalizing last with
  | nil => exact .ended rfl
  | cons chunk chunks ih =>
    obtain ⟨first, later⟩ := List.forall_mem_cons.mp plain
    have pad : ∀ n, 1 ≤ 4 - n % 4 ∧ 4 - n % 4 ≤ 4 := by omega
    have rest := (ih later chunk.ssrc).of_next (rtcpSdesNext_pad
      (pad (chunk.items.flatMap itemOctets).length).1 (pad _).2 (length_octets_mod chunks))
    have reads := sdesReads_items first.types first.lengths rest
    rw [List.flatMap_cons, SdesChunk.octets, List.append_assoc, List.append_assoc]
    exact reads.of_next rtcpSdesNext_chunk

end Chunks

/-- The iterator yields the items of chunks that are laid out as they should be, and
stops on any body, with every value inside it. -/
theorem rtcpSdes_reads (v : RtcpView) (type : v.type = rtcpSdes) :
    ∃ it, rtcpSdesInit v = .ok it ∧ (∀ chunks : List SdesChunk, (∀ chunk ∈ chunks, chunk.Plain) →
        v.count.toNat = chunks.length → v.body = chunks.flatMap SdesChunk.octets →
        SdesReads it (chunks.flatMap SdesChunk.said) none) ∧
      (∃ said err, SdesReads it said err ∧
        ∀ entry ∈ said, ∃ back, Stands v.body entry.2.1 entry.2.2 back) ∧
      ∀ (it : RtcpSdesIter) turns, it.p.length < turns → sdesLoop turns it = rtcpSdesNext it := by
  refine ⟨_, by rw [rtcpSdesInit, if_neg (not_not.mpr type)], ?_, exists_sdesReads _,
    fun it turns => sdesLoop_eq_next⟩
  intro chunks plain count body
  rw [count, body]
  exact sdesReads_chunks plain 0

theorem rtcpSdes_reads_two : ∃ it, rtcpSdesInit ⟨rtcpSdes, 2,
      [0, 0, 0, 1, 0, 0, 0, 0, 0, 0, 0, 2, 1, 1, 97, 0]⟩ = .ok it ∧
    SdesReads it [(2, 1, [97])] none := by
  obtain ⟨it, started, reads, _⟩ := rtcpSdes_reads ⟨rtcpSdes, 2,
    [0, 0, 0, 1, 0, 0, 0, 0, 0, 0, 0, 2, 1, 1, 97, 0]⟩ rfl
  exact ⟨it, started, reads [⟨1, []⟩, ⟨2, [(1, [97])]⟩]
    (List.forall_mem_cons.mpr ⟨⟨by simp, by simp⟩,
      List.forall_mem_singleton.mpr ⟨by simp [rtcpSdesEnd], by simp⟩⟩) rfl rfl⟩

end Pro2Call.Rtp

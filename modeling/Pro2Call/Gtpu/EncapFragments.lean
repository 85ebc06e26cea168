import Pro2Call.Gtpu.Encap
import Pro2Call.Gtpu.TableStep
import Mathlib.Data.List.Induction

namespace Pro2Call.Gtpu

open Pro2Call.Data

structure Sighting (Datagram : Type) where
  datagram : Datagram
  skb : SkBuff

def fragHeadOf (skb : SkBuff) : Option GtpuFragKey :=
  (parseInner skb).bind fun inner =>
    if inner.fragHead then some inner.fragKey else none

def fragTailOf (skb : SkBuff) : Option GtpuFragKey :=
  (parseInner skb).bind fun inner =>
    if inner.fragTail then some inner.fragKey else none

def disposition (maps : ForwardingMaps) (frag : TxFragMap) (skb : SkBuff) : Option GtpuTxTun :=
  (parseInner skb).bind fun inner => selectTunnel maps frag skb.bytes inner

variable {Datagram : Type}

def fragStep (helpers : BpfHelpers) (maps : ForwardingMaps)
    (config : Option GtpuConfig) (frag : TxFragMap)
    (seen : Sighting Datagram) : TxFragMap :=
  (gtpuEncap helpers maps config frag seen.skb).1

def noHeads : TxFragMap := fun _ => none

/-- Two packets of a history: the first fragment of a datagram and a later
fragment of the same datagram. -/
structure OwnHead (history before between after : List (Sighting Datagram))
    (head tail : Sighting Datagram) (key : GtpuFragKey) : Prop where
  order : history = before ++ head :: (between ++ tail :: after)
  datagram : head.datagram = tail.datagram
  isHead : fragHeadOf head.skb = some key
  isTail : fragTailOf tail.skb = some key

def TailsFollowHeads (helpers : BpfHelpers) (maps : ForwardingMaps)
    (config : Option GtpuConfig) (history : List (Sighting Datagram)) : Prop :=
  ∀ before between after head tail key, OwnHead history before between after head tail key →
      disposition maps (run (fragStep helpers maps config) noHeads
            (before ++ head :: between)) tail.skb =
        disposition maps (run (fragStep helpers maps config) noHeads before) head.skb

def lastTunnel (maps : ForwardingMaps) (key : GtpuFragKey)
    (history : List (Sighting Datagram)) : Option GtpuTxTun :=
  history.foldl (fun last seen =>
    if fragHeadOf seen.skb = some key then
      disposition maps noHeads seen.skb <|> last
    else last) none

/-- No other datagram with the same key comes between: the last first fragment
with the key that matched a tunnel, whosever it is, chose the tunnel that the
datagram's own first fragment chose, and none did when that one matched
none. -/
def HeadsUndisturbed (maps : ForwardingMaps) (history : List (Sighting Datagram)) : Prop :=
  ∀ before between after head tail key, OwnHead history before between after head tail key →
      lastTunnel maps key (before ++ head :: between) = disposition maps noHeads head.skb

variable {skb : SkBuff} {inner : InnerPacket} {key : GtpuFragKey} {maps : ForwardingMaps}

theorem fragHeadOf_eq_some (found : fragHeadOf skb = some key) :
    ∃ inner, parseInner skb = some inner ∧ inner.fragHead = true ∧ inner.fragKey = key := by
  obtain ⟨inner, parsed, chosen⟩ := Option.bind_eq_some_iff.mp found
  split at chosen
  · rename_i first
    exact ⟨inner, parsed, first, Option.some.inj chosen⟩
  · cases chosen

theorem fragTailOf_eq_some (found : fragTailOf skb = some key) :
    ∃ inner, parseInner skb = some inner ∧ inner.fragTail = true ∧ inner.fragKey = key := by
  obtain ⟨inner, parsed, chosen⟩ := Option.bind_eq_some_iff.mp found
  split at chosen
  · rename_i later
    exact ⟨inner, parsed, later, Option.some.inj chosen⟩
  · cases chosen

theorem selectTunnel_of_not_tail (notTail : inner.fragTail = false) (frag : TxFragMap)
    (frame : List UInt8) :
    selectTunnel maps frag frame inner = selectTunnel maps noHeads frame inner := by
  simp [selectTunnel, notTail]

theorem disposition_head (isHead : fragHeadOf skb = some key) (maps : ForwardingMaps)
    (frag : TxFragMap) :
    disposition maps frag skb = disposition maps noHeads skb := by
  obtain ⟨inner, parsed, first, _⟩ := fragHeadOf_eq_some isHead
  simp only [disposition, parsed, Option.bind_some]
  exact selectTunnel_of_not_tail ((parseInner_accepted parsed).1.head first) frag _

/-! A packet without ports matches nothing that the same packet with ports
would not match. -/

theorem tftProbePorts_eq_none (missed : tftProbePorts tft k uePort remotePort = none) :
    tftProbePorts tft k 0 0 = none := by
  have wildcard : tft.lookup { k with uePort := 0, remotePort := 0 } = none := by
    unfold tftProbePorts at missed
    obtain ⟨whole, rest⟩ := (Option.orElse_eq_none _ _).mp missed
    obtain ⟨_, rest⟩ := (Option.orElse_eq_none _ _).mp rest
    obtain ⟨_, last⟩ := (Option.orElse_eq_none _ _).mp rest
    split at last
    · exact last
    · rename_i zero
      rw [not_or, not_not, not_not] at zero
      rwa [zero.1, zero.2] at whole
  simp [tftProbePorts, wildcard]

theorem txClassify_eq_none {family proto : UInt8}
    (missed : txClassify maps family ueAddr ueSaddr proto uePort remotePort = none) :
    txClassify maps family ueAddr ueSaddr proto 0 0 = none := by
  unfold txClassify at missed ⊢
  obtain ⟨source, rest⟩ := (Option.orElse_eq_none _ _).mp missed
  obtain ⟨anySource, default⟩ := (Option.orElse_eq_none _ _).mp rest
  refine (Option.orElse_eq_none _ _).mpr ⟨tftProbePorts_eq_none source, ?_⟩
  exact (Option.orElse_eq_none _ _).mpr ⟨tftProbePorts_eq_none anySource, default⟩

theorem disposition_tail_of_none {head tail : SkBuff}
    (isHead : fragHeadOf head = some key) (isTail : fragTailOf tail = some key)
    (missed : disposition maps noHeads head = none) (unknown : frag key = none) :
    disposition maps frag tail = none := by
  obtain ⟨headInner, headParsed, first, rfl⟩ := fragHeadOf_eq_some isHead
  obtain ⟨inner, parsed, later, same⟩ := fragTailOf_eq_some isTail
  have noPorts : innerPorts tail.bytes inner = (0, 0) := by
    simp [innerPorts, (parseInner_accepted parsed).1.tail.mpr later]
  simp only [disposition, headParsed, parsed, Option.bind_some] at missed ⊢
  have notTail := (parseInner_accepted headParsed).1.head first
  simp only [selectTunnel, notTail, Bool.false_eq_true, if_false] at missed
  obtain ⟨_, classified⟩ := (Option.orElse_eq_none _ _).mp missed
  have wildcard := txClassify_eq_none classified
  simp only [selectTunnel, later, if_true, same, unknown, noPorts]
  simp only [InnerPacket.fragKey, GtpuFragKey.mk.injEq] at same
  obtain ⟨family, proto, _, saddr, daddr⟩ := same
  rw [family, proto, saddr, daddr]
  exact (Option.orElse_eq_none _ _).mpr ⟨rfl, wildcard⟩

theorem disposition_tail_of_some {tail : SkBuff} (isTail : fragTailOf tail = some key)
    (known : frag key = some tun) :
    disposition maps frag tail = some tun := by
  obtain ⟨inner, parsed, later, rfl⟩ := fragTailOf_eq_some isTail
  simp [disposition, parsed, selectTunnel, later, known]

theorem fragStep_eq (helpers : BpfHelpers) (maps : ForwardingMaps)
    (config : Option GtpuConfig) (frag : TxFragMap)
    (seen : Sighting Datagram) (key : GtpuFragKey) :
    fragStep helpers maps config frag seen key =
      if fragHeadOf seen.skb = some key then
        disposition maps noHeads seen.skb <|> frag key
      else frag key := by
  unfold fragStep gtpuEncap
  cases parsed : parseInner seen.skb with
  | none => simp [fragHeadOf, parsed]
  | some inner =>
    simp only [fragHeadOf, disposition, parsed, Option.bind_some]
    cases first : inner.fragHead with
    | false =>
      simp only [Bool.false_eq_true, if_false, reduceCtorEq]
      split <;> rfl
    | true =>
      have notTail := (parseInner_accepted parsed).1.head first
      rw [selectTunnel_of_not_tail notTail frag]
      cases selectTunnel maps noHeads seen.skb.bytes inner with
      | none => simp
      | some tun =>
        simp only [if_true, TxFragMap.update, Option.some.injEq]
        by_cases same : inner.fragKey = key
        · simp [same]
        · simp [same, Ne.symm same]

theorem run_fragStep (helpers : BpfHelpers) (maps : ForwardingMaps)
    (config : Option GtpuConfig) (history : List (Sighting Datagram))
    (key : GtpuFragKey) :
    run (fragStep helpers maps config) noHeads history key = lastTunnel maps key history := by
  induction history using List.reverseRecOn with
  | nil => rfl
  | append_singleton front seen ih =>
    unfold run lastTunnel at ih ⊢
    rw [List.foldl_append, List.foldl_append, List.foldl_cons,
      List.foldl_cons, List.foldl_nil, List.foldl_nil, fragStep_eq, ih]

theorem lastTunnel_isSome {head : Sighting Datagram} (isHead : fragHeadOf head.skb = some key)
    (matched : (disposition maps noHeads head.skb).isSome)
    (before between : List (Sighting Datagram)) :
    (lastTunnel maps key (before ++ head :: between)).isSome := by
  induction between using List.reverseRecOn with
  | nil =>
    unfold lastTunnel
    rw [List.foldl_append, List.foldl_cons, List.foldl_nil, if_pos isHead]
    cases found : disposition maps noHeads head.skb with
    | none =>
      rw [found] at matched
      cases matched
    | some tun => rfl
  | append_singleton front seen ih =>
    unfold lastTunnel at ih ⊢
    rw [← List.cons_append, ← List.append_assoc, List.foldl_append, List.foldl_cons, List.foldl_nil]
    split
    · cases disposition maps noHeads seen.skb with
      | none => exact ih
      | some tun => rfl
    · exact ih

theorem tail_follows_iff {head tail : Sighting Datagram} (isHead : fragHeadOf head.skb = some key)
    (isTail : fragTailOf tail.skb = some key)
    (recorded : frag key = lastTunnel maps key (before ++ head :: between)) :
    disposition maps frag tail.skb = disposition maps noHeads head.skb ↔
      lastTunnel maps key (before ++ head :: between) = disposition maps noHeads head.skb := by
  cases last : lastTunnel maps key (before ++ head :: between) with
  | some tun =>
    rw [disposition_tail_of_some isTail (recorded.trans last)]
  | none =>
    have missed : disposition maps noHeads head.skb = none := by
      cases found : disposition maps noHeads head.skb with
      | none => rfl
      | some tun =>
        have known := lastTunnel_isSome isHead (by rw [found]; rfl) before between
        rw [last] at known
        cases known
    rw [missed, disposition_tail_of_none isHead isTail missed (recorded.trans last)]

/-- Over every history: all later fragments follow their own first fragments
exactly when no other datagram with the same key disturbs them. -/
theorem tails_follow_iff_heads_undisturbed (helpers : BpfHelpers)
    (maps : ForwardingMaps) (config : Option GtpuConfig)
    (history : List (Sighting Datagram)) :
    TailsFollowHeads helpers maps config history ↔ HeadsUndisturbed maps history := by
  have pair : ∀ before between after head tail key,
      OwnHead history before between after head tail key → (disposition maps
            (run (fragStep helpers maps config) noHeads (before ++ head :: between)) tail.skb =
          disposition maps (run (fragStep helpers maps config) noHeads before) head.skb ↔
        lastTunnel maps key (before ++ head :: between) = disposition maps noHeads head.skb) := by
    intro before between after head tail key own
    rw [disposition_head own.isHead maps (run (fragStep helpers maps config) noHeads before)]
    exact tail_follows_iff own.isHead own.isTail (run_fragStep helpers maps config _ key)
  constructor
  · intro follow before between after head tail key own
    exact (pair before between after head tail key own).mp
      (follow before between after head tail key own)
  · intro undisturbed before between after head tail key own
    exact (pair before between after head tail key own).mpr
      (undisturbed before between after head tail key own)

/-- An IPv4 UDP fragment with identification 7, from 10.0.0.1 to 10.45.0.1;
`offset` is its fragment word and `data` begins with the ports in a first
fragment. -/
def udpFragment (offset data : List UInt8) : SkBuff :=
  .ofBytes (List.replicate 12 2 ++ [0x08, 0x00] ++ [0x45, 0, 0, 28, 0, 7] ++
    offset ++ [64, 17, 0, 0, 10, 0, 0, 1, 10, 45, 0, 1] ++ data)

def sipMaps : ForwardingMaps :=
  (gtpuTftAdd (.empty 4 4) {
    tunnel := homeBearer
    proto := ipprotoUdp
    uePort := 5060
    remotePort := 0
    innerSaddr := Vector.replicate 16 0 }).1

def sipHead : Sighting Nat := ⟨0, udpFragment [0x20, 0x00] [0x13, 0xC4, 0x13, 0xC4, 0, 0, 0, 0]⟩

def otherHead : Sighting Nat := ⟨1, udpFragment [0x20, 0x00] [0x27, 0x0F, 0x27, 0x0F, 0, 0, 0, 0]⟩

def otherTail : Sighting Nat := ⟨1, udpFragment [0x00, 0x01] [1, 2, 3, 4, 5, 6, 7, 8]⟩

/-- A datagram that reuses the identification of one that was tunnelled: its
first fragment matches nothing, and the rest of it is put on the tunnel of the
other datagram. -/
theorem reused_id_splits_datagram :
    disposition sipMaps (run (fragStep softHelpers sipMaps none) noHeads
        [sipHead]) otherHead.skb = none ∧
      disposition sipMaps (run (fragStep softHelpers sipMaps none) noHeads
        [sipHead, otherHead]) otherTail.skb = some (tunToTx homeBearer) ∧
      ¬ TailsFollowHeads softHelpers sipMaps none [sipHead, otherHead, otherTail] := by
  have headLeft : disposition sipMaps (run (fragStep softHelpers sipMaps none) noHeads [sipHead])
        otherHead.skb = none := by
    decide
  have tailTaken : disposition sipMaps
      (run (fragStep softHelpers sipMaps none) noHeads [sipHead, otherHead])
        otherTail.skb = some (tunToTx homeBearer) := by
    decide
  refine ⟨headLeft, tailTaken, ?_⟩
  intro follow
  have own : OwnHead [sipHead, otherHead, otherTail] [sipHead] [] [] otherHead otherTail
      { family := afInet
        proto := ipprotoUdp
        id := 1792
        saddr := #v[10, 0, 0, 1, 0, 0, 0, 0, 0, 0, 0, 0, 0, 0, 0, 0]
        daddr := #v[10, 45, 0, 1, 0, 0, 0, 0, 0, 0, 0, 0, 0, 0, 0, 0] } :=
    ⟨rfl, rfl, by decide, by decide⟩
  have same := follow _ _ _ _ _ _ own
  rw [List.singleton_append, tailTaken, headLeft] at same
  cases same

end Pro2Call.Gtpu

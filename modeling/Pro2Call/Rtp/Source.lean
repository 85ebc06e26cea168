import Pro2Call.Rtp.Rtcp

namespace Pro2Call.Rtp

/-! The receiver's statistics of one sender: sequence numbers of 16 bits are
followed through wraps, loss and reordering. -/

def rtpSeqMod : Nat := 0x10000
def rtpMaxDropout : Nat := 3000
def rtpMaxMisorder : Nat := 100
def rtpMinSequential : UInt32 := 2

structure RtpSource where
  ssrc : UInt32
  maxSeq : UInt16
  cycles : UInt32
  baseSeq : UInt32
  badSeq : UInt32
  probation : UInt32
  received : UInt32
  expectedPrior : UInt32
  receivedPrior : UInt32
  jitter : UInt32
  hasTransit : Bool
  transit : UInt32
  deriving DecidableEq, Repr

def sourceReset (s : RtpSource) (seq : UInt16) : RtpSource :=
  { s with
    baseSeq := seq.toUInt32, maxSeq := seq, badSeq := .ofNat (rtpSeqMod + 1), cycles := 0
    received := 0, receivedPrior := 0, expectedPrior := 0 }

def rtpSourceInit (ssrc : UInt32) (seq : UInt16) : RtpSource :=
  { sourceReset ⟨ssrc, 0, 0, 0, 0, 0, 0, 0, 0, 0, false, 0⟩ seq with
    maxSeq := seq - 1, probation := rtpMinSequential }

def countReceived (s : RtpSource) : RtpSource × Int := ({ s with received := s.received + 1 }, 1)

def rtpSourceUpdate (s : RtpSource) (seq : UInt16) : RtpSource × Int :=
  let udelta := (seq - s.maxSeq).toNat
  if s.probation ≠ 0 then
    if seq = s.maxSeq + 1 then
      let s := { s with probation := s.probation - 1, maxSeq := seq }
      if s.probation = 0 then countReceived (sourceReset s seq) else (s, 0)
    else ({ s with probation := rtpMinSequential - 1, maxSeq := seq }, 0)
  else if udelta < rtpMaxDropout then
    let cycles := if seq < s.maxSeq then s.cycles + .ofNat rtpSeqMod else s.cycles
    countReceived { s with cycles := cycles, maxSeq := seq }
  else if udelta ≤ rtpSeqMod - rtpMaxMisorder then
    if seq.toUInt32 = s.badSeq then countReceived (sourceReset s seq)
    else ({ s with badSeq := (seq + 1).toUInt32 }, 0)
  else countReceived s

def clamp24 (lost : Int) : Int :=
  let lost := if 0x7FFFFF < lost then 0x7FFFFF else lost
  if lost < -0x800000 then -0x800000 else lost

def extMax (s : RtpSource) : UInt32 := s.cycles + s.maxSeq.toUInt32

def rtpSourceReport (s : RtpSource) : RtpSource × RtcpReport :=
  let expected := extMax s - s.baseSeq + 1
  let lost := clamp24 (expected - s.received).toBitVec.toInt
  let expectedInterval := expected - s.expectedPrior
  let lostInterval := expectedInterval - (s.received - s.receivedPrior)
  let fraction : UInt8 := if expectedInterval ≠ 0 ∧ 0 < lostInterval.toBitVec.toInt then
    ((lostInterval <<< 8) / expectedInterval).toUInt8 else 0
  ({ s with expectedPrior := expected, receivedPrior := s.received },
    { ssrc := s.ssrc, fraction := fraction, lost := lost, lastSeq := extMax s
      jitter := s.jitter >>> 4 })

def seqOf (x : Int) : UInt16 := .ofNat (x % 0x10000).toNat

/-- Each packet is less than a hundred behind the largest number so far and less
than three thousand ahead of it. -/
def InWindow (m : Int) : List Int → Prop
  | [] => True
  | x :: rest => (m - 99 ≤ x ∧ x ≤ m + 2999) ∧ InWindow (max m x) rest

def arrivals (s : RtpSource) : List Int → RtpSource × List Int
  | [] => (s, [])
  | x :: rest =>
    let (s, counted) := rtpSourceUpdate s (seqOf x)
    let (s, later) := arrivals s rest
    (s, counted :: later)

/-- The source is valid since the packet `b`, the largest number since is `m`,
and `n` packets came in; 32-bit counters are known up to their width. -/
structure Follows (s : RtpSource) (b m : Int) (n : Nat) : Prop where
  valid : s.probation = 0
  le : b ≤ m
  base : (s.baseSeq.toNat : Int) = b % 0x10000
  max : (s.maxSeq.toNat : Int) = m % 0x10000
  cycles : (s.cycles.toNat : Int) = (m - m % 0x10000 - (b - b % 0x10000)) % 0x100000000
  received : s.received.toNat = n % 0x100000000

theorem toNat_seqOf (x : Int) : ((seqOf x).toNat : Int) = x % 0x10000 := by
  rw [seqOf, UInt16.toNat_ofNat']
  omega

theorem Follows.countReceived (follows : Follows s b m n) :
    Follows (countReceived s).1 b m (n + 1) := by
  refine { follows with received := ?_ }
  have count := follows.received
  rw [Rtp.countReceived, UInt32.toNat_add]
  simp only [UInt32.reduceToNat]
  omega

theorem follows_sourceReset {s : RtpSource} (valid : s.probation = 0) (b : Int) :
    Follows (sourceReset s (seqOf b)) b b 0 where
  valid := valid
  le := Int.le_refl b
  base := by simpa [sourceReset] using toNat_seqOf b
  max := toNat_seqOf b
  cycles := by simp [sourceReset]
  received := rfl

theorem follows_of_passed {s : RtpSource} (waiting : s.probation ≠ 0)
    (passed : (rtpSourceUpdate s (seqOf b)).1.probation = 0) :
    Follows (rtpSourceUpdate s (seqOf b)).1 b b 1 := by
  rw [rtpSourceUpdate, if_pos waiting] at passed ⊢
  dsimp only at passed ⊢
  split at passed
  next sequential =>
    rw [if_pos sequential]
    split at passed
    next last =>
      have fresh : { s with probation := s.probation - 1, maxSeq := seqOf b }.probation = 0 := last
      rw [if_pos last]
      exact (follows_sourceReset fresh b).countReceived
    next more => exact absurd passed more
  next => exact absurd passed (show ¬ rtpMinSequential - 1 = 0 by decide)

theorem toNat_cycles (cycles : UInt32) (seq last : UInt16) :
    (if seq < last then cycles + .ofNat rtpSeqMod else cycles).toNat =
      if seq.toNat < last.toNat then (cycles.toNat + 0x10000) % 2 ^ 32 else cycles.toNat := by
  rw [apply_ite UInt32.toNat, UInt32.toNat_add]
  rfl

theorem Follows.update (follows : Follows s b m n) (near : m - 99 ≤ x ∧ x ≤ m + 2999) :
    (rtpSourceUpdate s (seqOf x)).2 = 1 ∧
      Follows (rtpSourceUpdate s (seqOf x)).1 b (Max.max m x) (n + 1) := by
  have wire := toNat_seqOf x
  have highest := follows.max
  have udelta : (((seqOf x) - s.maxSeq).toNat : Int) = (x - m) % 0x10000 := by
    rw [UInt16.toNat_sub]
    omega
  rw [rtpSourceUpdate, if_neg (not_not.mpr follows.valid)]
  dsimp only
  by_cases ahead : m ≤ x
  · rw [if_pos (by simp only [rtpMaxDropout]; omega), Int.max_eq_right ahead]
    refine ⟨rfl,
      Follows.countReceived ⟨follows.valid, follows.le.trans ahead, follows.base, wire, ?_,
        follows.received⟩⟩
    have cycles := follows.cycles
    have le := follows.le
    dsimp only
    rw [toNat_cycles]
    split <;> omega
  · rw [if_neg (by simp only [rtpMaxDropout]; omega),
      if_neg (by simp only [rtpSeqMod, rtpMaxMisorder]; omega), Int.max_eq_left (by omega)]
    exact ⟨rfl, follows.countReceived⟩

theorem Follows.arrivals (follows : Follows s b m n) (window : InWindow m xs) :
    (∀ counted ∈ (arrivals s xs).2, counted = 1) ∧
      Follows (Rtp.arrivals s xs).1 b (xs.foldl Max.max m) (n + xs.length) := by
  induction xs generalizing s m n with
  | nil => exact ⟨by simp [Rtp.arrivals], follows⟩
  | cons x rest ih =>
    obtain ⟨counted, next⟩ := follows.update window.1
    obtain ⟨others, last⟩ := ih next window.2
    rw [Nat.add_right_comm] at last
    exact ⟨List.forall_mem_cons.mpr ⟨counted, others⟩, last⟩

/-- A source that passes its probation with packet `b` follows the true numbers
of all that come in the window, and reports what is missing. -/
theorem rtpSource_tracks {s : RtpSource} {b : Int} {xs : List Int} (waiting : s.probation ≠ 0)
    (passed : (rtpSourceUpdate s (seqOf b)).1.probation = 0) (window : InWindow b xs)
    (few : xs.length < 0x80000000) (span : xs.foldl max b - b < 0x80000000) :
    let (t, counts) := arrivals (rtpSourceUpdate s (seqOf b)).1 xs
    ((extMax t).toNat : Int) = xs.foldl max b - 0x10000 * (b / 0x10000) ∧
      ((t.cycles.toNat + t.maxSeq.toNat : Nat) : Int) = xs.foldl max b - 0x10000 * (b / 0x10000) ∧
      t.received.toNat = 1 + xs.length ∧ (∀ counted ∈ counts, counted = 1) ∧
      (rtpSourceReport t).2.lost = clamp24 ((xs.foldl max b - b + 1) - (1 + xs.length)) := by
  obtain ⟨counts, follows⟩ := (follows_of_passed waiting passed).arrivals window
  dsimp only
  generalize (arrivals (rtpSourceUpdate s (seqOf b)).1 xs).1 = t at follows
  generalize xs.foldl max b = m at *
  obtain ⟨_, le, base, highest, cycles, received⟩ := follows
  have ext : ((extMax t).toNat : Int) = m - 0x10000 * (b / 0x10000) := by
    rw [extMax, UInt32.toNat_add, UInt16.toNat_toUInt32]
    omega
  refine ⟨ext, by omega, by omega, counts, ?_⟩
  have missing : ((extMax t - t.baseSeq + 1 - t.received).toBitVec.toInt) =
      (m - b + 1) - (1 + xs.length) := by
    rw [BitVec.toInt_eq_toNat_cond, UInt32.toNat_toBitVec, UInt32.toNat_sub, UInt32.toNat_add,
      UInt32.toNat_sub]
    simp only [UInt32.reduceToNat]
    split <;> omega
  rw [rtpSourceReport, missing]

/-- Two packets make the source valid; it then loses one, has one late and one
twice, and the numbers wrap. -/
theorem rtpSource_tracks_wrap :
    let s := (rtpSourceUpdate (rtpSourceInit 7 65533) (seqOf 65533)).1
    let t := (arrivals (rtpSourceUpdate s (seqOf 65534)).1 [65537, 65535, 65537]).1
    ((extMax t).toNat : Int) = 65537 ∧ (rtpSourceReport t).2.lost = 0 := by
  have tracks := @rtpSource_tracks (rtpSourceUpdate (rtpSourceInit 7 65533) (seqOf 65533)).1 65534
    [65537, 65535, 65537] (by decide) (by decide) (by simp [InWindow]) (by decide) (by decide)
  exact ⟨tracks.1, tracks.2.2.2.2⟩

end Pro2Call.Rtp

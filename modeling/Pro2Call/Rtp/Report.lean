import Pro2Call.Data.Run
import Pro2Call.Rtp.Source

namespace Pro2Call.Rtp

open Pro2Call.Data

/-! What a report says after any calls: the loss since the report before, and the
jitter. -/

def rtpSourceJitter (s : RtpSource) (rtpTs arrival : UInt32) : RtpSource :=
  let transit := arrival - rtpTs
  if s.hasTransit = false then { s with hasTransit := true, transit := transit }
  else
    let d := transit - s.transit
    let d := if d.toBitVec.toInt < 0 then -d else d
    { s with transit := transit, jitter := s.jitter + (d - (s.jitter + 8) >>> 4) }

inductive SourceCall where
  | update (seq : UInt16)
  | jitter (rtpTs arrival : UInt32)
  | report
  deriving DecidableEq, Repr

def sourceStep (s : RtpSource) : SourceCall → RtpSource
  | .update seq => (rtpSourceUpdate s seq).1
  | .jitter rtpTs arrival => rtpSourceJitter s rtpTs arrival
  | .report => (rtpSourceReport s).1

/-- The packets expected and received since the last report, or since the source
became valid or began anew. -/
structure Interval where
  expected : Nat
  received : Nat
  deriving DecidableEq, Repr

def Interval.after (i : Interval) (s : RtpSource) : SourceCall → Interval
  | .report => ⟨0, 0⟩
  | .jitter _ _ => i
  | .update seq =>
    let ahead := (seq - s.maxSeq).toNat
    if s.probation ≠ 0 then ⟨1, 1⟩
    else if ahead < rtpMaxDropout then ⟨i.expected + ahead, i.received + 1⟩
    else if ahead ≤ rtpSeqMod - rtpMaxMisorder then
      if seq.toUInt32 = s.badSeq then ⟨1, 1⟩ else i
    else ⟨i.expected, i.received + 1⟩

def sourceRun (ssrc : UInt32) (seq : UInt16) (calls : List SourceCall) : RtpSource × Interval :=
  run (fun (s, i) call => (sourceStep s call, i.after s call)) (rtpSourceInit ssrc seq, ⟨0, 0⟩)
    calls

def expectedInterval (s : RtpSource) : UInt32 := extMax s - s.baseSeq + 1 - s.expectedPrior

def lostInterval (s : RtpSource) : Int :=
  (expectedInterval s - (s.received - s.receivedPrior)).toBitVec.toInt

def Interval.fraction (i : Interval) : Nat :=
  if i.received < i.expected then 256 * (i.expected - i.received) / i.expected else 0

/-- The field is the share, and the differences and the shift it is computed
from are exact. -/
structure Reported (s : RtpSource) (i : Interval) : Prop where
  expected : (expectedInterval s).toNat = i.expected
  lost : lostInterval s = i.expected - i.received
  shifted : lostInterval s * 256 < 2 ^ 31
  fraction : (rtpSourceReport s).2.fraction.toNat = i.fraction

structure Counts (s : RtpSource) (i : Interval) : Prop where
  expected : (expectedInterval s).toNat = i.expected % 2 ^ 32
  received : (s.received - s.receivedPrior).toNat = i.received % 2 ^ 32
  come : 0 < i.expected → 0 < i.received

theorem counts_reset (s : RtpSource) (seq : UInt16) :
    Counts (countReceived (sourceReset s seq)).1 ⟨1, 1⟩ where
  expected := by
    simp [expectedInterval, extMax, countReceived, sourceReset]
  received := by simp [countReceived, sourceReset]
  come := fun _ => Nat.one_pos

theorem Counts.countReceived (counts : Counts s i) :
    Counts (countReceived s).1 ⟨i.expected, i.received + 1⟩ where
  expected := counts.expected
  received := by
    have received := counts.received
    rw [UInt32.toNat_sub] at received ⊢
    rw [Rtp.countReceived, UInt32.toNat_add]
    simp only [UInt32.reduceToNat]
    omega
  come := fun _ => Nat.succ_pos _

theorem Counts.ahead (counts : Counts s i) (seq : UInt16) :
    let cycles := if seq < s.maxSeq then s.cycles + .ofNat rtpSeqMod else s.cycles
    Counts (Rtp.countReceived { s with cycles := cycles, maxSeq := seq }).1
      ⟨i.expected + (seq - s.maxSeq).toNat, i.received + 1⟩ := by
  refine ⟨?_, counts.countReceived.received, fun _ => Nat.succ_pos _⟩
  have before := counts.expected
  simp only [expectedInterval, extMax, Rtp.countReceived, UInt32.toNat_sub, UInt32.toNat_add,
    UInt16.toNat_toUInt32, UInt32.reduceToNat, UInt16.toNat_sub] at before ⊢
  have small := seq.toNat_lt
  have smaller := s.maxSeq.toNat_lt
  rw [toNat_cycles]
  split <;> omega

theorem counts_report (s : RtpSource) : Counts (rtpSourceReport s).1 ⟨0, 0⟩ where
  expected := by simp [expectedInterval, extMax, rtpSourceReport]
  received := by simp [rtpSourceReport]
  come := fun early => absurd early (Nat.lt_irrefl 0)

theorem Counts.update {s : RtpSource} (counts : s.probation = 0 → Counts s i)
    (seq : UInt16) (valid : (rtpSourceUpdate s seq).1.probation = 0) :
    Counts (rtpSourceUpdate s seq).1 (i.after s (.update seq)) := by
  rw [rtpSourceUpdate, Interval.after] at *
  dsimp only at valid ⊢
  by_cases waiting : s.probation ≠ 0
  · rw [if_pos waiting] at valid ⊢
    rw [if_pos waiting]
    split at valid
    next sequential =>
      rw [if_pos sequential]
      split at valid
      next last =>
        rw [if_pos last]
        exact counts_reset _ seq
      next more => exact absurd valid more
    next => exact absurd valid (show ¬ rtpMinSequential - 1 = 0 by decide)
  · have counts := counts (not_not.mp waiting)
    rw [if_neg waiting, if_neg waiting]
    split
    next => exact counts.ahead seq
    next =>
      split
      next =>
        split
        next => exact counts_reset _ seq
        next => exact { counts with }
      next => exact counts.countReceived

theorem counts_of_run (ssrc : UInt32) (seq : UInt16) (calls : List SourceCall) :
    (sourceRun ssrc seq calls).1.probation = 0 →
      Counts (sourceRun ssrc seq calls).1 (sourceRun ssrc seq calls).2 := by
  refine run_of_invariant (fun now : RtpSource × Interval => now.1.probation = 0 →
    Counts now.1 now.2) ?_
    (fun passed => absurd passed (show ¬ rtpMinSequential = 0 by decide)) calls
  intro (s, i) call counts valid
  cases call with
  | update seq => exact Counts.update counts seq valid
  | jitter rtpTs arrival =>
    have same : expectedInterval (rtpSourceJitter s rtpTs arrival) = expectedInterval s ∧
        (rtpSourceJitter s rtpTs arrival).received = s.received ∧
        (rtpSourceJitter s rtpTs arrival).receivedPrior = s.receivedPrior ∧
        (rtpSourceJitter s rtpTs arrival).probation = s.probation := by
      rw [rtpSourceJitter]
      split <;> exact ⟨rfl, rfl, rfl, rfl⟩
    obtain ⟨expected, received, prior, probation⟩ := same
    have counts := counts (probation.symm.trans valid)
    refine ⟨expected ▸ counts.expected, ?_, counts.come⟩
    change ((rtpSourceJitter s rtpTs arrival).received -
      (rtpSourceJitter s rtpTs arrival).receivedPrior).toNat = _
    rw [received, prior]
    exact counts.received
  | report => exact counts_report s

theorem fraction_eq (s : RtpSource) :
    (rtpSourceReport s).2.fraction =
      if expectedInterval s ≠ 0 ∧ 0 < lostInterval s then
        (((expectedInterval s - (s.received - s.receivedPrior)) <<< 8) / expectedInterval s).toUInt8
      else 0 := rfl

theorem Counts.fraction (counts : Counts s i)
    (fits : i.expected < 2 ^ 32) (lost : lostInterval s = i.expected - i.received)
    (few : i.expected < i.received + 2 ^ 23) :
    (rtpSourceReport s).2.fraction.toNat = i.fraction := by
  have expected := counts.expected
  rw [Nat.mod_eq_of_lt fits] at expected
  rw [fraction_eq, Interval.fraction]
  by_cases missing : i.received < i.expected
  · have nonzero : expectedInterval s ≠ 0 := by
      intro zero
      rw [zero] at expected
      simp only [UInt32.toNat_zero] at expected
      omega
    have come := counts.come (by omega)
    rw [if_pos ⟨nonzero, by omega⟩, if_pos missing]
    have difference : (expectedInterval s - (s.received - s.receivedPrior)).toNat =
        i.expected - i.received := by
      rw [UInt32.toNat_sub, expected, counts.received]
      omega
    have share : 256 * (i.expected - i.received) / i.expected < 256 := by
      rw [Nat.div_lt_iff_lt_mul (by omega)]
      omega
    rw [UInt32.toNat_toUInt8, UInt32.toNat_div, UInt32.toNat_shiftLeft, difference, expected]
    simp only [UInt32.reduceToNat, Nat.reduceMod, Nat.shiftLeft_eq, Nat.reducePow]
    have shifted : (i.expected - i.received) * 256 % 4294967296 =
        256 * (i.expected - i.received) := by omega
    rw [shifted, Nat.mod_eq_of_lt share]
  · rw [if_neg (by omega), if_neg missing]
    rfl

/-- In every state a valid source reaches the report's share is right and comes
from no overflow, as long as fewer than `2 ^ 23` packets were lost since the
report before and the counts of the interval fit their types. -/
theorem rtpSourceReport_fraction_iff (ssrc : UInt32) (seq : UInt16) (calls : List SourceCall)
    (valid : (sourceRun ssrc seq calls).1.probation = 0) :
    let (s, i) := sourceRun ssrc seq calls
    Reported s i ↔ i.expected < 2 ^ 32 ∧ i.expected < i.received + 2 ^ 23 ∧
      i.received ≤ i.expected + 2 ^ 31 := by
  have counts := counts_of_run ssrc seq calls valid
  generalize sourceRun ssrc seq calls = now at *
  obtain ⟨s, i⟩ := now
  dsimp only at counts ⊢
  have expected := counts.expected
  have signed : lostInterval s = (expectedInterval s -
      (s.received - s.receivedPrior)).toBitVec.toInt := rfl
  rw [BitVec.toInt_eq_toNat_cond, UInt32.toNat_toBitVec, UInt32.toNat_sub, expected,
    counts.received] at signed
  constructor
  · intro reported
    obtain ⟨whole, lost, shifted, -⟩ := reported
    split at signed <;> omega
  · intro ⟨fits, few, least⟩
    have lost : lostInterval s = i.expected - i.received := by
      split at signed <;> omega
    exact ⟨by omega, lost, by omega, counts.fraction fits lost few⟩

/-- One of three packets is lost. -/
theorem rtpSourceReport_fraction_third :
    (rtpSourceReport (sourceRun 7 1 [.update 1, .update 2, .update 4]).1).2.fraction.toNat = 85 :=
  ((rtpSourceReport_fraction_iff 7 1 [.update 1, .update 2, .update 4] (by decide)).mpr
    (by decide)).fraction

def jumps (seq : UInt16) : Nat → List SourceCall
  | 0 => []
  | n + 1 => .update (seq + 2999) :: jumps (seq + 2999) n

theorem run_jumps {s : RtpSource} {i : Interval} (valid : s.probation = 0) (n : Nat) :
    let (t, j) := run (fun (s, i) call => (sourceStep s call, i.after s call)) (s, i)
      (jumps s.maxSeq n)
    t.probation = 0 ∧ j = ⟨i.expected + 2999 * n, i.received + n⟩ := by
  induction n generalizing s i with
  | zero => exact ⟨valid, rfl⟩
  | succ n ih =>
    have ahead : (s.maxSeq + 2999 - s.maxSeq).toNat = 2999 := by
      rw [UInt16.toNat_sub, UInt16.toNat_add]
      simp only [UInt16.reduceToNat]
      have small := s.maxSeq.toNat_lt
      omega
    have step : sourceStep s (.update (s.maxSeq + 2999)) = (Rtp.countReceived { s with
        cycles := if s.maxSeq + 2999 < s.maxSeq then s.cycles + .ofNat rtpSeqMod else s.cycles
        maxSeq := s.maxSeq + 2999 }).1 := by
      rw [sourceStep, rtpSourceUpdate, if_neg (not_not.mpr valid), if_pos (ahead ▸ by decide)]
    have counted : i.after s (.update (s.maxSeq + 2999)) = ⟨i.expected + 2999, i.received + 1⟩ := by
      rw [Interval.after, if_neg (not_not.mpr valid), ahead, if_pos (by decide)]
    have rest := @ih (sourceStep s (.update (s.maxSeq + 2999)))
      ⟨i.expected + 2999, i.received + 1⟩ (by simp only [step, Rtp.countReceived, valid])
    rw [jumps, run_cons]
    dsimp only
    rw [counted]
    rw [step] at rest ⊢
    refine ⟨rest.1, rest.2.trans ?_⟩
    rw [Interval.mk.injEq]
    dsimp only
    omega

theorem sourceRun_jumps (n : Nat) :
    let now := sourceRun 7 1 (.update 1 :: .update 2 :: jumps 2 n)
    now.1.probation = 0 ∧ now.2 = ⟨1 + 2999 * n, 1 + n⟩ :=
  run_jumps (s := sourceStep (sourceStep (rtpSourceInit 7 1) (.update 1)) (.update 2))
    (i := ⟨1, 1⟩) (by decide) n

theorem Counts.fraction_overflows (counts : Counts s ⟨16794401, 5601⟩) :
    (rtpSourceReport s).2.fraction = 0 := by
  have expected : expectedInterval s = 16794401 := UInt32.toNat_inj.mp counts.expected
  have received : s.received - s.receivedPrior = 5601 := UInt32.toNat_inj.mp counts.received
  rw [fraction_eq, lostInterval, expected, received]
  decide

/-- Of every 2999 packets one arrives, for 5600 of them, and the report says that
nothing was lost. -/
theorem rtpSourceReport_fraction_overflows :
    let now := sourceRun 7 1 (.update 1 :: .update 2 :: jumps 2 5600)
    now.1.probation = 0 ∧ now.2 = ⟨16794401, 5601⟩ ∧ now.2.fraction = 255 ∧
      (rtpSourceReport now.1).2.fraction = 0 := by
  obtain ⟨valid, interval⟩ := sourceRun_jumps 5600
  have counts := counts_of_run 7 1 _ valid
  rw [interval] at counts
  refine ⟨valid, interval, ?_, counts.fraction_overflows⟩
  rw [interval]
  decide

def jitterFrom (before : UInt32) (jitter : Int) : List UInt32 → Int
  | [] => jitter
  | transit :: rest =>
    jitterFrom transit (jitter + (transit - before).toBitVec.toInt.natAbs - (jitter + 8) / 16) rest

def exactJitter : List UInt32 → Int
  | [] => 0
  | transit :: rest => jitterFrom transit 0 rest

def transits (calls : List SourceCall) : List UInt32 :=
  calls.filterMap fun
    | .jitter rtpTs arrival => some (arrival - rtpTs)
    | _ => none

/-- The transit times are at most `M` apart, modulo `2 ^ 32`. -/
def Near (M : Nat) (before transit : UInt32) : Prop := (transit - before).toBitVec.toInt.natAbs ≤ M

theorem rtpSourceUpdate_jitter (s : RtpSource) (seq : UInt16) :
    (rtpSourceUpdate s seq).1.jitter = s.jitter ∧
      (rtpSourceUpdate s seq).1.hasTransit = s.hasTransit ∧
      (rtpSourceUpdate s seq).1.transit = s.transit := by
  rw [rtpSourceUpdate]
  dsimp only
  split_ifs <;> exact ⟨rfl, rfl, rfl⟩

theorem toNat_abs (d : UInt32) :
    (if d.toBitVec.toInt < 0 then -d else d).toNat = d.toBitVec.toInt.natAbs := by
  have small := d.toNat_lt
  rw [BitVec.toInt_eq_toNat_cond, UInt32.toNat_toBitVec]
  by_cases half : 2 * d.toNat < 2 ^ 32
  · rw [if_pos half, if_neg (by omega)]
    omega
  · rw [if_neg half, if_pos (by omega), UInt32.toNat_neg]
    simp only [UInt32.size]
    omega

theorem rtpSourceJitter_exact (bound : M < 2 ^ 28) {s : RtpSource} (began : s.hasTransit = true)
    (near : Near M s.transit (arrival - rtpTs)) (small : s.jitter.toNat ≤ 16 * M + 7) :
    ((rtpSourceJitter s rtpTs arrival).jitter.toNat : Int) = s.jitter.toNat +
        (arrival - rtpTs - s.transit).toBitVec.toInt.natAbs - (s.jitter.toNat + 8 : Int) / 16 ∧
      (rtpSourceJitter s rtpTs arrival).jitter.toNat ≤ 16 * M + 7 := by
  rw [Near] at near
  rw [rtpSourceJitter, if_neg (by simp [began])]
  dsimp only
  rw [UInt32.toNat_add, UInt32.toNat_sub, toNat_abs, UInt32.toNat_shiftRight, UInt32.toNat_add]
  simp only [UInt32.reduceToNat, Nat.reduceMod, Nat.shiftRight_eq_div_pow, Nat.reducePow]
  generalize (arrival - rtpTs - s.transit).toBitVec.toInt.natAbs = d at *
  generalize s.jitter.toNat = j at *
  rw [Nat.mod_eq_of_lt (by omega : j + 8 < 4294967296), Nat.add_mod_mod]
  have rounded : (j + 8) / 16 ≤ j := by omega
  have most : j + d ≤ 16 * M + 7 + (j + 8) / 16 := by omega
  omega

theorem run_jitterFrom {M : Nat} (bound : M < 2 ^ 28) {s : RtpSource} {calls : List SourceCall}
    (began : s.hasTransit = true) (near : List.IsChain (Near M) (s.transit :: transits calls))
    (small : s.jitter.toNat ≤ 16 * M + 7) :
    ((run sourceStep s calls).jitter.toNat : Int) =
        jitterFrom s.transit s.jitter.toNat (transits calls) ∧
      (run sourceStep s calls).jitter.toNat ≤ 16 * M + 7 := by
  induction calls generalizing s with
  | nil => exact ⟨rfl, small⟩
  | cons call rest ih =>
    rw [run_cons]
    cases call with
    | update seq =>
      obtain ⟨jitter, has, transit⟩ := rtpSourceUpdate_jitter s seq
      rw [← transit] at near
      rw [← jitter] at small
      have later := ih (s := (rtpSourceUpdate s seq).1) (has.trans began) near small
      rw [jitter, transit] at later
      exact later
    | jitter rtpTs arrival =>
      obtain ⟨first, others⟩ := List.isChain_cons_cons.mp near
      obtain ⟨fits, small⟩ := rtpSourceJitter_exact bound began first small
      have fields : (rtpSourceJitter s rtpTs arrival).hasTransit = true ∧
          (rtpSourceJitter s rtpTs arrival).transit = arrival - rtpTs := by
        rw [rtpSourceJitter, if_neg (by simp [began])]
        exact ⟨began, rfl⟩
      obtain ⟨has, transit⟩ := fields
      rw [← transit] at others
      have later := ih (s := rtpSourceJitter s rtpTs arrival) has others small
      rw [fits, transit] at later
      exact later
    | report => exact ih (s := (rtpSourceReport s).1) began near small

theorem run_exactJitter {M : Nat} (bound : M < 2 ^ 28) {s : RtpSource} {calls : List SourceCall}
    (fresh : s.hasTransit = false) (zero : s.jitter = 0)
    (near : List.IsChain (Near M) (transits calls)) :
    ((run sourceStep s calls).jitter.toNat : Int) = exactJitter (transits calls) ∧
      (run sourceStep s calls).jitter.toNat ≤ 16 * M + 7 := by
  induction calls generalizing s with
  | nil =>
    rw [run_nil, zero]
    exact ⟨rfl, Nat.zero_le _⟩
  | cons call rest ih =>
    rw [run_cons]
    cases call with
    | update seq =>
      obtain ⟨jitter, has, -⟩ := rtpSourceUpdate_jitter s seq
      exact ih (s := (rtpSourceUpdate s seq).1) (has.trans fresh) (jitter.trans zero) near
    | jitter rtpTs arrival =>
      have begins : sourceStep s (.jitter rtpTs arrival) =
          { s with hasTransit := true, transit := arrival - rtpTs } := by
        rw [sourceStep, rtpSourceJitter, if_pos fresh]
      rw [begins]
      have later := @run_jitterFrom M bound
        { s with hasTransit := true, transit := arrival - rtpTs } rest rfl near
        (by rw [zero]; exact Nat.zero_le _)
      refine ⟨later.1.trans ?_, later.2⟩
      change jitterFrom (arrival - rtpTs) s.jitter.toNat (transits rest) = _
      rw [zero]
      rfl
    | report => exact ih (s := (rtpSourceReport s).1) fresh zero near

/-- Packets whose transit times are at most `M` apart keep the jitter exact and
below `16 * M + 8`, whatever other calls come between. -/
theorem rtpSourceJitter_bounded {M : Nat} (bound : M < 2 ^ 28) (ssrc : UInt32) (seq : UInt16)
    (calls : List SourceCall) (near : List.IsChain (Near M) (transits calls)) :
    let s := run sourceStep (rtpSourceInit ssrc seq) calls
    (s.jitter.toNat : Int) = exactJitter (transits calls) ∧ s.jitter.toNat ≤ 16 * M + 7 ∧
      (rtpSourceReport s).2.jitter.toNat ≤ M := by
  obtain ⟨fits, small⟩ := @run_exactJitter M bound (rtpSourceInit ssrc seq) calls rfl rfl near
  refine ⟨fits, small, ?_⟩
  change ((run sourceStep (rtpSourceInit ssrc seq) calls).jitter >>> 4).toNat ≤ M
  rw [UInt32.toNat_shiftRight]
  simp only [UInt32.reduceToNat, Nat.reduceMod, Nat.shiftRight_eq_div_pow, Nat.reducePow]
  omega

/-- The clocks wrap between the packets, one of which is early. -/
theorem rtpSourceJitter_bounded_wrap :
    (rtpSourceReport (run sourceStep (rtpSourceInit 7 1)
      [.jitter 10 5, .jitter 170 175, .update 2, .jitter 330 325])).2.jitter.toNat ≤ 10 :=
  (rtpSourceJitter_bounded (M := 10) (by decide) 7 1
    [.jitter 10 5, .jitter 170 175, .update 2, .jitter 330 325]
    (by simp [transits, Near])).2.2

end Pro2Call.Rtp

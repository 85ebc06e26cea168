import Pro2Call.Data.Run
import Pro2Call.Task.Tlv

namespace Pro2Call.Task

open Pro2Call.Data

/-! Overflow of a write buffer over a whole sequence of calls. A caller that
checks only the last result relies on every call after an overflow failing. -/

inductive TlvCall where
  | put (p : TlvProf) (type : Nat) (metaOctet : UInt8) (val : List UInt8)
  | begin (p : TlvProf) (type : Nat) (metaOctet : UInt8)
  | finish (p : TlvProf) (handle : Int)
  deriving DecidableEq, Repr

def TlvCall.exec (w : TlvWbuf) : TlvCall → TlvWbuf × Int
  | .put p type metaOctet val => tlvPut w p type metaOctet val
  | .begin p type metaOctet => tlvBegin w p type metaOctet
  | .finish p handle => tlvEnd w p handle

def tlvStep (w : TlvWbuf) (call : TlvCall) : TlvWbuf := (call.exec w).1

def tlvResults (w : TlvWbuf) : List TlvCall → List Int
  | [] => []
  | call :: rest => (call.exec w).2 :: tlvResults (tlvStep w call) rest

/-- The contents of an entry that is ended fit its length field, and a nested
entry does not start at an offset whose handle reads as the overflow code. -/
def LengthInRange (w : TlvWbuf) : TlvCall → Prop
  | .put _ _ _ _ => True
  | .begin p _ _ => w.overflow = false → p.hdrLen ≤ w.cap - w.off → toInt w.off ≠ tlvEOverflow
  | .finish p handle => w.overflow = false → 0 ≤ handle → handle.toNat + p.hdrLen ≤ w.off →
        tlvEndLength w p handle.toNat ≤ tlvLenMax p.lenSize

theorem exec_of_overflow {w : TlvWbuf} (flagged : w.overflow = true)
    (call : TlvCall) : (call.exec w).2 < 0 ∧ (call.exec w).1 = w := by
  have refused : ∀ n, tlvWbufReserve w n = (w, some tlvEOverflow) := by
    intro n
    simp [tlvWbufReserve, flagged]
  cases call with
  | put p type metaOctet val =>
    by_cases inside : tlvPutLength p val.length < val.length ∨
        tlvPutLength p val.length > tlvLenMax p.lenSize
    · rw [TlvCall.exec, tlvPut_of_length_range type metaOctet inside]
      exact ⟨(by decide : tlvEInval < 0), rfl⟩
    · rw [TlvCall.exec, tlvPut_of_refused type metaOctet inside (refused _)]
      exact ⟨(by decide : tlvEOverflow < 0), rfl⟩
  | begin p type metaOctet =>
    rw [TlvCall.exec, tlvBegin_of_refused type metaOctet (refused _)]
    exact ⟨(by decide : tlvEOverflow < 0), rfl⟩
  | finish p handle =>
    simp only [TlvCall.exec, tlvEnd, flagged, if_true]
    exact ⟨(by decide : tlvEOverflow < 0), trivial⟩

theorem tlvPut_overflow_flagged (w : TlvWbuf) (p : TlvProf) (type : Nat)
    (metaOctet : UInt8) (val : List UInt8)
    (overflowed : (tlvPut w p type metaOctet val).2 = tlvEOverflow) :
    (tlvPut w p type metaOctet val).1.overflow = true := by
  by_cases inside : tlvPutLength p val.length < val.length ∨
      tlvPutLength p val.length > tlvLenMax p.lenSize
  · rw [tlvPut_of_length_range type metaOctet inside] at overflowed
    exact absurd overflowed (by decide : tlvEInval ≠ tlvEOverflow)
  · rcases tlvWbufReserve_cases w (tlvAlign p.align (p.hdrLen + val.length)) with
      ⟨flagged, refused⟩ | ⟨_, _, refused⟩ | ⟨_, _, reserved⟩
    · rw [tlvPut_of_refused type metaOctet inside refused]
      exact flagged
    · rw [tlvPut_of_refused type metaOctet inside refused]
    · rw [tlvPut_of_reserved type metaOctet inside reserved] at overflowed
      exact absurd overflowed (by decide : tlvOk ≠ tlvEOverflow)

theorem tlvBegin_overflow_flagged_iff (w : TlvWbuf) (p : TlvProf) (type : Nat) (metaOctet : UInt8) :
    ((tlvBegin w p type metaOctet).2 = tlvEOverflow →
        (tlvBegin w p type metaOctet).1.overflow = true) ↔
      LengthInRange w (.begin p type metaOctet) := by
  rcases tlvWbufReserve_cases w p.hdrLen with
    ⟨flagged, refused⟩ | ⟨clear, short, refused⟩ | ⟨clear, room, reserved⟩
  · rw [tlvBegin_of_refused type metaOctet refused]
    simp [LengthInRange, flagged]
  · rw [tlvBegin_of_refused type metaOctet refused]
    simp [LengthInRange, short]
  · rw [tlvBegin_of_reserved type metaOctet reserved]
    simp [LengthInRange, clear, room]

theorem tlvEnd_in_range_flagged (opened : EntryOpen w p handle)
    (inRange : tlvEndLength w p handle.toNat ≤ tlvLenMax p.lenSize)
    (overflowed : (tlvEnd w p handle).2 = tlvEOverflow) :
    (tlvEnd w p handle).1.overflow = true := by
  rw [tlvEnd_of_in_range opened inRange] at overflowed ⊢
  dsimp only at overflowed ⊢
  split at overflowed
  · exact absurd overflowed (by decide : tlvOk ≠ tlvEOverflow)
  · next padded =>
      rw [if_neg padded]
      rcases tlvWbufReserve_cases (tlvPatched w p handle.toNat)
          (tlvAlign p.align (w.off - handle.toNat) - (w.off - handle.toNat))
        with ⟨flagged, refused⟩ | ⟨_, _, refused⟩ | ⟨_, _, reserved⟩
      · rw [refused]
        exact flagged
      · rw [refused]
      · rw [reserved] at overflowed
        exact absurd overflowed (by decide : tlvOk ≠ tlvEOverflow)

theorem tlvEnd_overflow_flagged_iff (w : TlvWbuf) (p : TlvProf) (handle : Int) :
    ((tlvEnd w p handle).2 = tlvEOverflow → (tlvEnd w p handle).1.overflow = true) ↔
      LengthInRange w (.finish p handle) := by
  cases flag : w.overflow with
  | true => simp [tlvEnd, LengthInRange, flag]
  | false =>
    by_cases opened : EntryOpen w p handle
    · by_cases inRange :
          tlvEndLength w p handle.toNat ≤ tlvLenMax p.lenSize
      · exact ⟨fun _ _ _ _ => inRange, fun _ => tlvEnd_in_range_flagged opened inRange⟩
      · rw [tlvEnd_of_length_range opened inRange]
        simp [LengthInRange, flag, opened.nonneg, opened.within, inRange]
    · rw [tlvEnd_of_not_open flag opened]
      constructor
      · intro _ _ nonneg within
        exact absurd ⟨flag, nonneg, within⟩ opened
      · intro _ overflowed
        exact absurd overflowed (by decide : tlvEInval ≠ tlvEOverflow)

theorem overflow_flagged_iff (w : TlvWbuf) (call : TlvCall) :
    ((call.exec w).2 = tlvEOverflow → (tlvStep w call).overflow = true) ↔ LengthInRange w call := by
  cases call with
  | put p type metaOctet val =>
    exact ⟨fun _ => trivial, fun _ => tlvPut_overflow_flagged w p type metaOctet val⟩
  | begin p type metaOctet =>
    exact tlvBegin_overflow_flagged_iff w p type metaOctet
  | finish p handle => exact tlvEnd_overflow_flagged_iff w p handle

theorem tlvResults_of_overflow {w : TlvWbuf} (flagged : w.overflow = true)
    (calls : List TlvCall) : ∀ rc ∈ tlvResults w calls, rc < 0 := by
  induction calls with
  | nil => simp [tlvResults]
  | cons call rest ih =>
    obtain ⟨failed, kept⟩ := exec_of_overflow flagged call
    intro rc member
    rw [tlvResults, tlvStep, kept, List.mem_cons] at member
    rcases member with rfl | later
    · exact failed
    · exact ih rc later

/-- In every run whose lengths stay in range, no call after one that returned
the overflow code succeeds. -/
theorem overflow_sticky_of_lengths_in_range (buf : List UInt8) (calls : List TlvCall)
    (inRange : EveryStep tlvStep LengthInRange (tlvWbufInit buf) calls) :
    (tlvResults (tlvWbufInit buf) calls).Pairwise
      fun earlier later => earlier = tlvEOverflow → later < 0 := by
  generalize tlvWbufInit buf = w at inRange ⊢
  induction calls generalizing w with
  | nil => exact List.Pairwise.nil
  | cons call rest ih =>
    rw [tlvResults, List.pairwise_cons]
    refine ⟨?_, ih (tlvStep w call) inRange.2⟩
    intro later member overflowed
    have flagged := (overflow_flagged_iff w call).mpr inRange.1 overflowed
    exact tlvResults_of_overflow flagged rest later member

def groupThenLong : List TlvCall :=
  [.begin tlvProfGtp2c 93 0, .put tlvProfGtp2c 82 0 [6], .finish tlvProfGtp2c 0,
    .put tlvProfGtp2c 94 0 [0, 0, 0, 0], .put tlvProfGtp2c 82 0 [6]]

theorem overflow_sticky_of_fourteen_bytes :
    tlvResults (tlvWbufInit (List.replicate 14 0)) groupThenLong =
        [0, tlvOk, tlvOk, tlvEOverflow, tlvEOverflow] ∧
      (tlvResults (tlvWbufInit (List.replicate 14 0)) groupThenLong).Pairwise
        fun earlier later => earlier = tlvEOverflow → later < 0 :=
  ⟨by decide, overflow_sticky_of_lengths_in_range (List.replicate 14 0) groupThenLong
    ⟨fun _ _ => by decide, trivial, fun _ _ _ => by decide, trivial, trivial, trivial⟩⟩

/-- A nested entry of two values that fit each alone but not together in the
16-bit length field, then one more entry. -/
def longGroup : List TlvCall :=
  [.begin tlvProfGtp2c 93 0, .put tlvProfGtp2c 1 0 (List.replicate 40000 0),
    .put tlvProfGtp2c 1 0 (List.replicate 40000 0),
    .finish tlvProfGtp2c 0,
    .put tlvProfGtp2c 2 0 []]

theorem longGroup_results {buf val : List UInt8} (room : buf.length = 100000)
    (long : val.length = 40000) :
    tlvResults (tlvWbufInit buf) [.begin tlvProfGtp2c 93 0, .put tlvProfGtp2c 1 0 val,
          .put tlvProfGtp2c 1 0 val, .finish tlvProfGtp2c 0,
          .put tlvProfGtp2c 2 0 []] =
      [0, tlvOk, tlvOk, tlvEOverflow, tlvOk] := by
  simp [tlvResults, tlvStep, TlvCall.exec, tlvBegin, tlvPut, tlvEnd,
    tlvWbufReserve, tlvWbufInit, tlvPutLength, tlvEndLength, tlvLenMax,
    tlvAlign, tlvProfGtp2c, toInt, tlvOk, tlvEOverflow, room, long]

theorem end_overflow_not_sticky :
    tlvResults (tlvWbufInit (List.replicate 100000 0)) longGroup =
        [0, tlvOk, tlvOk, tlvEOverflow, tlvOk] ∧
      ¬ (tlvResults (tlvWbufInit (List.replicate 100000 0)) longGroup).Pairwise
        fun earlier later => earlier = tlvEOverflow → later < 0 := by
  have results :
      tlvResults (tlvWbufInit (List.replicate 100000 0)) longGroup =
        [0, tlvOk, tlvOk, tlvEOverflow, tlvOk] :=
    longGroup_results List.length_replicate List.length_replicate
  refine ⟨results, ?_⟩
  rw [results]
  decide

end Pro2Call.Task

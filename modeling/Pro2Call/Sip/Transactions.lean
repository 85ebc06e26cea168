import Pro2Call.Task.Fsm

namespace Pro2Call.Sip

open Pro2Call.Data Pro2Call.Task

/-! The transaction machines of RFC 3261. Every entry is always granted and its hook
does nothing. -/

inductive TransState where
  | init | calling | trying | proceeding | completed | confirmed | terminated

inductive TransEvent where
  | sendRequest | recvRequest | recv1xx | recv2xx | recv3xx6xx | send1xx | send2xx | send3xx6xx
  | recvAck | timerRetransmit | timerTimeout | timerTerminate | transportErr

abbrev TransRows := List (TransState × List (TransEvent × TransState))

variable {W D A : Type}

def fsmAddAlways (row : Int × Nat × Nat) : FsmEntry W D (Exec W A) :=
  ⟨row.1, row.2.1, fun _ _ world => (true, world), row.2.2, some fun _ world => (0, world)⟩

def transTable (rows : TransRows) : List (Int × Nat × Nat) :=
  rows.flatMap (fun row => row.2.map fun move =>
      (Int.ofNat row.1.ctorIdx, move.1.ctorIdx, move.2.ctorIdx)) ++
    [(fsmStateAny, TransEvent.transportErr.ctorIdx, TransState.terminated.ctorIdx)]

def transFsm (grants : Nat → Bool) (rows : TransRows) : Fsm W D (Exec W A) :=
  (fsmSet grants (fsmCreate TransState.init.ctorIdx TransState.terminated.ctorIdx)
    ((transTable rows).map fsmAddAlways)).1

def sipTransFsmInviteClient (grants : Nat → Bool) : Fsm W D (Exec W A) :=
  transFsm grants [ (.init, [(.sendRequest, .calling)]),
    (.calling, [(.timerRetransmit, .calling), (.recv1xx, .proceeding), (.recv2xx, .terminated),
      (.recv3xx6xx, .completed), (.timerTimeout, .terminated)]),
    (.proceeding, [(.recv1xx, .proceeding), (.recv2xx, .terminated), (.recv3xx6xx, .completed)]),
    (.completed, [(.recv3xx6xx, .completed), (.timerTerminate, .terminated)])]

def sipTransFsmInviteServer (grants : Nat → Bool) : Fsm W D (Exec W A) :=
  transFsm grants [ (.init, [(.recvRequest, .proceeding)]),
    (.proceeding, [(.recvRequest, .proceeding), (.send1xx, .proceeding), (.send2xx, .terminated),
      (.send3xx6xx, .completed)]),
    (.completed, [(.recvRequest, .completed), (.timerRetransmit, .completed),
      (.recvAck, .confirmed), (.timerTimeout, .terminated)]),
    (.confirmed, [(.recvAck, .confirmed), (.timerTerminate, .terminated)])]

def sipTransFsmClient (grants : Nat → Bool) : Fsm W D (Exec W A) :=
  transFsm grants [ (.init, [(.sendRequest, .trying)]),
    (.trying, [(.timerRetransmit, .trying), (.recv1xx, .proceeding), (.recv2xx, .completed),
      (.recv3xx6xx, .completed), (.timerTimeout, .terminated)]),
    (.proceeding, [(.timerRetransmit, .proceeding), (.recv1xx, .proceeding), (.recv2xx, .completed),
      (.recv3xx6xx, .completed), (.timerTimeout, .terminated)]),
    (.completed, [(.recv2xx, .completed), (.recv3xx6xx, .completed),
      (.timerTerminate, .terminated)])]

def sipTransFsmServer (grants : Nat → Bool) : Fsm W D (Exec W A) :=
  transFsm grants [ (.init, [(.recvRequest, .trying)]),
    (.trying, [(.recvRequest, .trying), (.send1xx, .proceeding), (.send2xx, .completed),
      (.send3xx6xx, .completed)]),
    (.proceeding, [(.recvRequest, .proceeding), (.send1xx, .proceeding), (.send2xx, .completed),
      (.send3xx6xx, .completed)]),
    (.completed, [(.recvRequest, .completed), (.timerTerminate, .terminated)])]

def leadsOn (row : Int × Nat × Nat) : Bool :=
  row.2.2 = 6 ∨ 0 ≤ row.1 ∧ row.1 ≤ row.2.2 ∧ row.2.2 < 6

/-- The machine has come to `low` and has only entries that lead on. -/
structure CameTo (low : Int) (fsm : Fsm W D (Exec W A)) : Prop where
  entries : ∀ entry ∈ fsm.entries, ∃ row, leadsOn row ∧ entry = fsmAddAlways row
  term : fsm.term = 6
  low : low ≤ fsm.current
  current : fsm.current ≤ 6

theorem CameTo.step {s : FsmState W D A} {low : Int} (came : CameTo low s.fsm)
    (call : FsmCall D A) : CameTo low (fsmStep s call).fsm := by
  obtain ⟨told, follows, _⟩ := fsmAct_follows s call
  unfold fsmStep
  generalize (fsmAct s call).1 = after, (fsmAct s call).2 = ret at follows ⊢
  obtain ⟨entries, term, below, above⟩ := came
  cases follows with
  | final | noMatch => exact ⟨entries, term, below, above⟩
  | ends => exact ⟨entries, term, by simp only; omega, by simp only; omega⟩
  | moves _ fires =>
    obtain ⟨entry, _, ⟨_, _, _, split, _, ⟨fits, _⟩, _⟩, leads, _⟩ := fires
    obtain ⟨row, on, rfl⟩ := entries entry (by simp [split])
    -- the row is of the current state, or a wildcard into the last
    rw [leads_iff] at leads
    unfold fsmAddAlways leadsOn fsmStateAny fsmStateCurrent at *
    refine ⟨entries, term, ?_, ?_⟩ <;> grind

theorem CameTo.run {s : FsmState W D A} {low : Int} (came : CameTo low s.fsm)
    (calls : List (FsmCall D A)) : CameTo low (run fsmStep s calls).fsm :=
  run_of_invariant (fun s : FsmState W D A => CameTo low s.fsm) (fun _ call held => held.step call)
    came calls

/-- No run of calls takes the machine behind a state it has come to. -/
def GoesOn (fsm : Fsm W D (Exec W A)) : Prop :=
  ∀ callback world before after,
    let start : FsmState W D A := ⟨{ fsm with callbackTerm := callback }, world⟩
    (run fsmStep start before).fsm.current ≤ (run fsmStep start (before ++ after)).fsm.current

theorem goesOn_transFsm {rows : TransRows} (on : ∀ row ∈ transTable rows, leadsOn row)
    (grants : Nat → Bool) : GoesOn (transFsm grants rows : Fsm W D (Exec W A)) := by
  intro callback world before after start
  obtain ⟨added, cap, short, same, _⟩ := fsmSet_appends (W := W) (D := D) (H := Exec W A) grants
    (fsmCreate 0 6) ((transTable rows).map fsmAddAlways)
  have built : transFsm grants rows = _ := same
  have fresh : CameTo 0 start.fsm := by
    simp only [start, built]
    refine ⟨fun entry member => ?_, rfl, Int.le_refl 0, Int.le.intro 6 rfl⟩
    obtain ⟨row, inTable, rfl⟩ := List.mem_map.mp (short.subset member)
    exact ⟨row, on row inTable, rfl⟩
  have here := fresh.run before
  rw [run_append]
  exact (CameTo.run ⟨here.entries, here.term, Int.le_refl _, here.current⟩ after).low

/-- Whatever `fsm_act` is called with, and whatever part of its table was allocated, no
transaction goes back behind a state it has come to. -/
theorem transactions_goOn (grants : Nat → Bool) :
    GoesOn (sipTransFsmInviteClient grants : Fsm W D (Exec W A)) ∧
      GoesOn (sipTransFsmInviteServer grants : Fsm W D (Exec W A)) ∧
      GoesOn (sipTransFsmClient grants : Fsm W D (Exec W A)) ∧
      GoesOn (sipTransFsmServer grants : Fsm W D (Exec W A)) :=
  ⟨goesOn_transFsm (by decide) grants, goesOn_transFsm (by decide) grants,
    goesOn_transFsm (by decide) grants, goesOn_transFsm (by decide) grants⟩

end Pro2Call.Sip

import Pro2Call.Task.Fsm

namespace Pro2Call.Task

/-! The state machine whose hooks call `fsm_act` on it again. A hook is the tree of
the calls it makes, each with the world it leaves for the call. -/

inductive Hook (W D A : Type) where
  | done (ret : Int) (world : W)
  | act (world : W) (call : FsmCall D A) (next : Int → W → Hook W D A)

/-- The machine is in its terminal state when the callback runs, so calls of `fsm_act`
in the callback only return. -/
abbrev HookFsm (W D A : Type) : Type := Fsm W D (A → W → Hook W D A)

/-- `ended` counts the runs of the callback. `inside` tells whether a hook that was
entered with the machine running has left it in its terminal state. -/
structure HookState (W D A : Type) where
  fsm : HookFsm W D A
  world : W
  ended : Nat
  inside : Bool

variable {W D A : Type}

def HookState.terminated (s : HookState W D A) : Bool := fsmTerminated s.fsm

def HookState.moved (s : HookState W D A) (entry : FsmEntry W D (A → W → Hook W D A))
    (world : W) : HookState W D A :=
  { s with fsm := { s.fsm with current := entry.target s.fsm.current }, world := world }

@[simp] theorem HookState.moved_ended (s : HookState W D A)
    (entry : FsmEntry W D (A → W → Hook W D A)) (world : W) :
    (s.moved entry world).ended = s.ended := rfl

@[simp] theorem HookState.moved_inside (s : HookState W D A)
    (entry : FsmEntry W D (A → W → Hook W D A)) (world : W) :
    (s.moved entry world).inside = s.inside := rfl

def HookState.terminate (s : HookState W D A) : HookState W D A :=
  let (fsm, world) := fsmTerminate s.fsm s.world
  { s with
    fsm := fsm, world := world
    ended := if s.fsm.callbackTerm.isSome then s.ended + 1 else s.ended }

def runHook (act : HookState W D A → FsmCall D A → Option (HookState W D A × Int)) :
    Hook W D A → HookState W D A → Option (HookState W D A × Int)
  | .done ret world, s => some ({ s with world := world }, ret)
  | .act world call next, s =>
    match act { s with world := world } call with
    | none => none
    | some (s, ret) => runHook act (next ret s.world) s

/-- `fsm_act` behind the hook, which was entered in `moved`. -/
def settle (moved left : HookState W D A) (retExec : Int) : HookState W D A × Int :=
  let left := { left with inside := left.inside || !moved.terminated && left.terminated }
  if retExec ≠ 0 ∨ left.terminated then (left.terminate, retExec) else (left, retExec)

/-- `fsm_act` with calls nested at most `fuel` deep; none when there are more. -/
def hookAct : Nat → HookState W D A → FsmCall D A → Option (HookState W D A × Int)
  | 0, _, _ => none
  | fuel + 1, s, call =>
    if s.terminated then some (s, fsmEFinal)
    else
      match fsmScan s.fsm.current call s.fsm.entries s.world with
      | (none, world) => some ({ s with world := world }, fsmENomatch)
      | (some entry, world) =>
        match runHook (hookAct fuel) (entry.run (.done 0) call.args world)
            (s.moved entry world) with
        | none => none
        | some (left, retExec) => some (settle (s.moved entry world) left retExec)

def hookRun (fuel : Nat) : HookState W D A → List (FsmCall D A) → Option (HookState W D A)
  | s, [] => some s
  | s, call :: rest =>
    match hookAct fuel s call with
    | none => none
    | some (s, _) => hookRun fuel s rest

/-- What calls do to the machine, whatever their nesting: as long as it runs the
callback has not, and it ends with one run of the callback or, when a hook ended it,
with one more for each call around. -/
structure Passes (s t : HookState W D A) : Prop where
  callback : t.fsm.callbackTerm.isSome = s.fsm.callbackTerm.isSome
  stays : s.terminated → t.terminated ∧ t.ended = s.ended ∧ t.inside = s.inside
  goes : s.terminated = false → t.terminated = false ∧ t.ended = s.ended ∧ t.inside = s.inside ∨
    t.terminated ∧ (t.ended = s.ended + 1 ∧ t.inside = s.inside ∨
      s.ended + 2 ≤ t.ended ∧ t.inside = true)

theorem Passes.of_world (s : HookState W D A) (world : W) : Passes s { s with world := world } :=
  ⟨rfl, fun ended => ⟨ended, rfl, rfl⟩, fun running => .inl ⟨running, rfl, rfl⟩⟩

theorem Passes.trans (first : Passes s t) (second : Passes t u) : Passes s u := by
  refine ⟨second.callback.trans first.callback, fun ended => ?_, fun running => ?_⟩
  · obtain ⟨still, count, flag⟩ := first.stays ended
    obtain ⟨last, count', flag'⟩ := second.stays still
    exact ⟨last, count'.trans count, flag'.trans flag⟩
  · obtain ⟨still, count, flag⟩ | ⟨still, counts⟩ := first.goes running
    · rw [← count, ← flag]
      exact second.goes still
    · obtain ⟨last, count, flag⟩ := second.stays still
      rw [count, flag]
      exact .inr ⟨last, counts⟩

def ActPasses (act : HookState W D A → FsmCall D A → Option (HookState W D A × Int)) : Prop :=
  ∀ {s call t ret}, s.fsm.callbackTerm.isSome → act s call = some (t, ret) → Passes s t

theorem runHook_passes (acts : ActPasses act) (hook : Hook W D A) {s t : HookState W D A}
    (present : s.fsm.callbackTerm.isSome) (returned : runHook act hook s = some (t, ret)) :
    Passes s t := by
  induction hook generalizing s with
  | done code world =>
    cases returned
    exact .of_world s world
  | act world call next ih =>
    rw [runHook] at returned
    cases called : act { s with world := world } call with
    | none => simp [called] at returned
    | some result =>
      obtain ⟨middle, code⟩ := result
      rw [called] at returned
      have first : Passes { s with world := world } middle := acts present called
      have rest := ih code middle.world (first.callback.trans present) returned
      exact (Passes.of_world s world).trans (first.trans rest)

theorem terminate_spec {s : HookState W D A} (present : s.fsm.callbackTerm.isSome) :
    s.terminate.fsm.callbackTerm = s.fsm.callbackTerm ∧ s.terminate.terminated ∧
      s.terminate.ended = s.ended + 1 ∧ s.terminate.inside = s.inside := by
  simp [HookState.terminate, fsmTerminate, present, HookState.terminated, fsmTerminated]

theorem settle_passes {s left : HookState W D A} {entry : FsmEntry W D (A → W → Hook W D A)}
    (running : s.terminated = false)
    (present : s.fsm.callbackTerm.isSome) (passes : Passes (s.moved entry world) left) :
    Passes s (settle (s.moved entry world) left retExec).1 := by
  have kept : left.fsm.callbackTerm.isSome := passes.callback.trans present
  unfold settle
  dsimp only
  split
  · rename_i ends
    obtain ⟨same, finished, count, flag⟩ := terminate_spec
      (s := { left with inside := left.inside || !(s.moved entry world).terminated &&
        left.terminated }) kept
    refine ⟨by rw [same]; exact passes.callback, fun ended => absurd ended (by simp [running]),
      fun _ => .inr ⟨finished, ?_⟩⟩
    rw [count, flag]
    cases entered : (s.moved entry world).terminated with
    | true =>
      obtain ⟨_, counted, flagged⟩ := passes.stays entered
      exact .inl ⟨congrArg (· + 1) counted, by simpa using flagged⟩
    | false =>
      obtain ⟨still, counted, flagged⟩ | ⟨finished, counts⟩ := passes.goes entered
      · exact .inl ⟨congrArg (· + 1) counted, by simpa [still] using flagged⟩
      · -- a nested call has run the callback, and this one runs it again
        rw [HookState.moved_ended] at counts
        exact .inr ⟨by dsimp only; omega, by simp [finished]⟩
  · rename_i goes
    have still : left.terminated = false := by
      simpa [HookState.terminated] using (not_or.mp goes).2
    have entered : (s.moved entry world).terminated = false := by
      rw [← Bool.not_eq_true]
      intro ended
      exact absurd (passes.stays ended).1 (by simp [still])
    refine ⟨passes.callback, fun ended => absurd ended (by simp [running]), fun _ => .inl ?_⟩
    obtain ⟨_, counted, flagged⟩ | ⟨finished, _⟩ := passes.goes entered
    · exact ⟨still, counted, by simpa [still] using flagged⟩
    · exact absurd finished (by simp [still])

theorem hookAct_passes (fuel : Nat) : ActPasses (hookAct (W := W) (D := D) (A := A) fuel) := by
  induction fuel with
  | zero =>
    intro s call t ret present returned
    cases returned
  | succ fuel ih =>
    intro s call t ret present returned
    rw [hookAct] at returned
    split at returned
    · cases returned
      exact .of_world _ _
    rename_i running
    split at returned
    · cases returned
      exact .of_world _ _
    rename_i entry world found
    split at returned
    · cases returned
    rename_i left retExec hooked
    have passes : Passes s (settle (s.moved entry world) left retExec).1 :=
      settle_passes (by simpa using running) present (runHook_passes ih _ present hooked)
    rw [Option.some.injEq] at returned
    rwa [returned] at passes

theorem hookRun_passes {s t : HookState W D A} {calls : List (FsmCall D A)}
    (present : s.fsm.callbackTerm.isSome) (returned : hookRun fuel s calls = some t) :
    Passes s t := by
  induction calls generalizing s with
  | nil =>
    cases returned
    exact .of_world _ _
  | cons call rest ih =>
    rw [hookRun] at returned
    split at returned
    · cases returned
    rename_i middle ret acted
    have first := hookAct_passes fuel present acted
    exact first.trans (ih (first.callback.trans present) returned)

/-- In the life of a machine the callback runs at most once exactly when no hook ends
the machine from inside. -/
theorem callback_once_iff {fsm : HookFsm W D A} (running : fsm.current ≠ fsm.term)
    (present : fsm.callbackTerm.isSome) {world : W} {fuel : Nat} {calls : List (FsmCall D A)}
    {t : HookState W D A} (returned : hookRun fuel ⟨fsm, world, 0, false⟩ calls = some t) :
    t.ended ≤ 1 ↔ t.inside = false := by
  have passes := hookRun_passes present returned
  obtain ⟨_, count, flag⟩ | ⟨_, ⟨count, flag⟩ | ⟨count, flag⟩⟩ :=
    passes.goes (by simpa [HookState.terminated, fsmTerminated] using running)
  · simp [count, flag]
  · simp [count, flag]
  · change 0 + 2 ≤ t.ended at count
    simp only [flag, Bool.true_eq_false, iff_false]
    omega

/-- Action 1 leads from state 0 to state 1, and its hook calls the action it is given;
action 2 leads from there to the terminal state 2. -/
def nestedFsm : HookFsm Nat Unit Int :=
  fsmSetCallbackTerminated (fsmSet (fun _ => true) (fsmCreate 0 2) [
      ⟨0, 1, fun _ _ world => (true, world), 1,
        some fun action world => .act world ⟨action, (), (), 0⟩ fun _ world => .done 0 world⟩,
      ⟨1, 2, fun _ _ world => (true, world), 2, none⟩]).1
    (fun _ world => (0, world + 1)) ()

/-- The hook of action 1 calls action 1, for which there is no entry in state 1, and the
machine is ended from outside. -/
theorem callback_once_outside : ∃ t, hookRun 2 ⟨nestedFsm, 0, 0, false⟩
      [⟨1, (), (), 1⟩, ⟨2, (), (), 0⟩] = some t ∧ t.terminated ∧ t.world = 1 ∧ t.ended ≤ 1 :=
  have running : nestedFsm.current ≠ nestedFsm.term := by decide
  have returned : hookRun 2 ⟨nestedFsm, 0, 0, false⟩ [⟨1, (), (), 1⟩, ⟨2, (), (), 0⟩] =
    some ⟨{ nestedFsm with current := 2 }, 1, 1, false⟩ := rfl
  ⟨_, returned, rfl, rfl, (callback_once_iff running rfl returned).mpr rfl⟩

theorem callback_twice : ∃ t, hookRun 2 ⟨nestedFsm, 0, 0, false⟩ [⟨1, (), (), 2⟩] = some t ∧
    t.ended = 2 ∧ t.world = 2 :=
  ⟨_, rfl, rfl, rfl⟩

end Pro2Call.Task

import Mathlib.Logic.Basic

namespace Pro2Call.Data

variable {State Action : Type*}

def run (step : State → Action → State) (start : State) (actions : List Action) : State :=
  actions.foldl step start

@[simp] theorem run_nil (step : State → Action → State) (start : State) :
    run step start [] = start := rfl

@[simp] theorem run_cons (step : State → Action → State) (start : State)
    (action : Action) (rest : List Action) :
    run step start (action :: rest) = run step (step start action) rest := rfl

theorem run_append (step : State → Action → State) (start : State) (first second : List Action) :
    run step start (first ++ second) = run step (run step start first) second :=
  List.foldl_append

theorem run_of_invariant {step : State → Action → State} (invariant : State → Prop)
    (keeps : ∀ state action, invariant state → invariant (step state action))
    {start : State} (initial : invariant start) (actions : List Action) :
    invariant (run step start actions) := by
  induction actions generalizing start with
  | nil => exact initial
  | cons action rest ih => exact ih (keeps start action initial)

/-- `property` holds of every state a run visits, the first and the last
included. -/
def EveryState (step : State → Action → State) (property : State → Prop)
    (start : State) : List Action → Prop
  | [] => property start
  | action :: rest =>
    property start ∧ EveryState step property (step start action) rest

/-- `condition` holds of every step of a run, read in the state the step is
taken from. -/
def EveryStep (step : State → Action → State) (condition : State → Action → Prop) (start : State) :
    List Action → Prop
  | [] => True
  | action :: rest =>
    condition start action ∧ EveryStep step condition (step start action) rest

variable {step : State → Action → State} {actions : List Action} {property : State → Prop}

theorem EveryState.start {start : State} (every : EveryState step property start actions) :
    property start := by
  cases actions with
  | nil => exact every
  | cons action rest => exact every.1

variable {start : State} {invariant : State → Prop} {condition : State → Action → Prop}

theorem everyStep_append :
    EveryStep step condition start (first ++ second) ↔ EveryStep step condition start first ∧
        EveryStep step condition (run step start first) second := by
  induction first generalizing start with
  | nil => simp [EveryStep]
  | cons action rest ih => simp [EveryStep, ih, and_assoc]

theorem everyStep_iff_forall_mem {condition : Action → Prop} :
    EveryStep step (fun _ => condition) start actions ↔ ∀ action ∈ actions, condition action := by
  induction actions generalizing start with
  | nil => simp [EveryStep]
  | cons action rest ih => simp [EveryStep, ih]

theorem EveryState.last (every : EveryState step property start actions) :
    property (run step start actions) := by
  induction actions generalizing start with
  | nil => exact every
  | cons action rest ih => exact ih every.2

theorem EveryState.mono {weaker : State → Prop} (gives : ∀ state, property state → weaker state)
    (every : EveryState step property start actions) :
    EveryState step weaker start actions := by
  induction actions generalizing start with
  | nil => exact gives start every
  | cons action rest ih => exact ⟨gives start every.1, ih every.2⟩

/-- The invariant rule: an invariant that every admissible step keeps holds
in every state of an admissible run. -/
theorem EveryState.of_step
    (keeps : ∀ state action, invariant state → condition state action →
      invariant (step state action))
    (initial : invariant start) (admissible : EveryStep step condition start actions) :
    EveryState step invariant start actions := by
  induction actions generalizing start with
  | nil => exact initial
  | cons action rest ih =>
    refine ⟨initial, ?_⟩
    exact ih (keeps start action initial admissible.1) admissible.2

theorem EveryStep.of_step {property : State → Action → Prop}
    (keeps : ∀ state action, invariant state → condition state action →
      invariant (step state action))
    (gives : ∀ state action, invariant state → condition state action → property state action)
    (initial : invariant start) (admissible : EveryStep step condition start actions) :
    EveryStep step property start actions := by
  induction actions generalizing start with
  | nil => trivial
  | cons action rest ih =>
    refine ⟨gives start action initial admissible.1, ?_⟩
    exact ih (keeps start action initial admissible.1) admissible.2

theorem everyState_iff_everyStep_of_mem (initial : invariant start)
    (exact_step : ∀ state, ∀ action ∈ actions, invariant state →
      (invariant (step state action) ↔ condition state action)) :
    EveryState step invariant start actions ↔ EveryStep step condition start actions := by
  induction actions generalizing start with
  | nil => exact ⟨fun _ => trivial, fun _ => initial⟩
  | cons action rest ih =>
    have first := exact_step start action List.mem_cons_self initial
    have later := fun next : invariant (step start action) =>
      ih next fun state other member =>
        exact_step state other (List.mem_cons_of_mem action member)
    constructor
    · intro every
      have next := every.2.start
      exact ⟨first.mp next, (later next).mp every.2⟩
    · intro admissible
      have next := first.mpr admissible.1
      exact ⟨initial, (later next).mpr admissible.2⟩

/-- When the admissible steps are exactly those that keep the invariant, the
admissible runs are exactly those that never leave it. -/
theorem everyState_iff_everyStep
    (exact_step : ∀ state action, invariant state →
      (invariant (step state action) ↔ condition state action))
    (initial : invariant start) (actions : List Action) :
    EveryState step invariant start actions ↔ EveryStep step condition start actions :=
  everyState_iff_everyStep_of_mem initial fun state action _ =>
    exact_step state action

theorem EveryState.of_invariant
    (keeps : ∀ state action, invariant state → invariant (step state action))
    (gives : ∀ state, invariant state → property state)
    (initial : invariant start) (actions : List Action) :
    EveryState step property start actions := by
  induction actions generalizing start with
  | nil => exact gives start initial
  | cons action rest ih =>
    exact ⟨gives start initial, ih (keeps start action initial)⟩

theorem EveryState.and_invariant
    (keeps : ∀ state action, invariant state → invariant (step state action))
    (initial : invariant start) (every : EveryState step property start actions) :
    EveryState step (fun state => invariant state ∧ property state) start actions := by
  induction actions generalizing start with
  | nil => exact ⟨initial, every⟩
  | cons action rest ih =>
    exact ⟨⟨initial, every.1⟩, ih (keeps start action initial) every.2⟩

/-! Runs that keep a record beside the state. -/

section Project

variable {Record : Type*} {recorded : Record → Action → Record} {view : Record → State}
  (commutes : ∀ record action, view (recorded record action) = step (view record) action)

include commutes

theorem EveryState.project {start : Record}
    (every : EveryState recorded (fun record => property (view record)) start actions) :
    EveryState step property (view start) actions := by
  induction actions generalizing start with
  | nil => exact every
  | cons action rest ih =>
    refine ⟨every.1, ?_⟩
    rw [← commutes]
    exact ih every.2

theorem EveryStep.project {start : Record}
    (every : EveryStep recorded (fun record => condition (view record)) start actions) :
    EveryStep step condition (view start) actions := by
  induction actions generalizing start with
  | nil => trivial
  | cons action rest ih =>
    refine ⟨every.1, ?_⟩
    rw [← commutes]
    exact ih every.2

end Project

variable {Error First Second : Type}

theorem exists_of_bind_ok {next : First → Except Error Second}
    (done : (first >>= next) = .ok result) :
    ∃ middle, first = .ok middle ∧ next middle = .ok result := by
  cases first with
  | error error => cases done
  | ok middle => exact ⟨middle, rfl, done⟩

theorem exists_of_isOk {result : Except Error First} (ok : result.isOk) :
    ∃ value, result = .ok value := by
  cases result with
  | error err => cases ok
  | ok value => exact ⟨value, rfl⟩

theorem exists_of_map_ok {first : Except Error First} (done : first.map change = .ok result) :
    ∃ middle, first = .ok middle ∧ change middle = result := by
  cases first with
  | error error => cases done
  | ok middle =>
    cases done
    exact ⟨middle, rfl, rfl⟩

theorem bind_ne_error {next : First → Except Error Second} (before : first ≠ .error error)
    (after : ∀ middle, first = .ok middle → next middle ≠ .error error) :
    (first >>= next) ≠ .error error := by
  cases first with
  | error other =>
    intro same
    cases same
    exact before rfl
  | ok middle => exact after middle rfl

end Pro2Call.Data

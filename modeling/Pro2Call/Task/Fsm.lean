import Mathlib.Tactic.Tauto
import Pro2Call.Data.Run

namespace Pro2Call.Task

open Pro2Call.Data

/-! The table-driven state machine. `D` is what a data pointer stands for, `A`
the extra arguments of a call, `W` what guards, hooks and the callback may read
and change; the machine itself is out of their reach. -/

def fsmStateAny : Int := -0xFFFF
def fsmStateCurrent : Int := -0xFFF0
def fsmActionAny : Int := -0xFFFF

def fsmOk : Int := 0
def fsmEFinal : Int := -2
def fsmENomatch : Int := -3
def fsmENomem : Int := -4

/-- `H` is what stands for a hook. -/
structure FsmEntry (W D H : Type) where
  stateFrom : Int
  action : Int
  cond : D → D → W → Bool × W
  stateTo : Int
  exec : Option H

structure Fsm (W D H : Type) where
  current : Int
  term : Int
  entries : List (FsmEntry W D H)
  cap : Nat
  callbackTerm : Option ((D → W → Int × W) × D)

structure FsmCall (D A : Type) where
  action : Int
  condData1 : D
  condData2 : D
  args : A

variable {W D A H R : Type}

def fsmCreate (stateCurr stateTerm : Int) : Fsm W D H :=
  { current := stateCurr, term := stateTerm, entries := [], cap := 0, callbackTerm := none }

/-- `grants` is the allocator: whether an array of so many entries is given. -/
def fsmEntryAdd (grants : Nat → Bool) (self : Fsm W D H) (entry : FsmEntry W D H) :
    Option (Fsm W D H) :=
  if self.entries.length = self.cap then
    let cap := if self.cap ≠ 0 then self.cap * 2 else 16
    if grants cap then some { self with entries := self.entries ++ [entry], cap := cap } else none
  else some { self with entries := self.entries ++ [entry] }

def fsmSet (grants : Nat → Bool) (self : Fsm W D H) : List (FsmEntry W D H) → Fsm W D H × Int
  | [] => (self, fsmOk)
  | entry :: rest =>
    match fsmEntryAdd grants self entry with
    | some self => fsmSet grants self rest
    | none => (self, fsmENomem)

def fsmSetCallbackTerminated (self : Fsm W D H) (callback : D → W → Int × W) (data : D) :
    Fsm W D H :=
  { self with callbackTerm := some (callback, data) }

def fsmTerminated (self : Fsm W D H) : Bool := self.current == self.term

/-- The scan of `fsm_act`: the entry that fires, and what the guards asked on
the way left behind. -/
def fsmScan (current : Int) (call : FsmCall D A) :
    List (FsmEntry W D H) → W → Option (FsmEntry W D H) × W
  | [], world => (none, world)
  | entry :: rest, world =>
    if (entry.stateFrom ≠ fsmStateAny ∧ entry.stateFrom ≠ fsmStateCurrent) ∧
        entry.stateFrom ≠ current then
      fsmScan current call rest world
    else if entry.action ≠ fsmActionAny ∧ entry.action ≠ call.action then
      fsmScan current call rest world
    else
      match entry.cond call.condData1 call.condData2 world with
      | (false, world) => fsmScan current call rest world
      | (true, world) => (some entry, world)

def FsmEntry.run (entry : FsmEntry W D (A → W → R)) (idle : W → R) (args : A) (world : W) : R :=
  match entry.exec with
  | some exec => exec args world
  | none => idle world

def FsmEntry.target (entry : FsmEntry W D H) (current : Int) : Int :=
  if entry.stateTo ≠ fsmStateAny ∧ entry.stateTo ≠ fsmStateCurrent then entry.stateTo else current

def fsmTerminate (self : Fsm W D H) (world : W) : Fsm W D H × W :=
  ({ self with current := self.term },
    match self.callbackTerm with
    | some (callback, data) => (callback data world).2
    | none => world)

/-- A hook out of whose reach the machine is. -/
abbrev Exec (W A : Type) : Type := A → W → Int × W

structure FsmState (W D A : Type) where
  fsm : Fsm W D (Exec W A)
  world : W

def fsmAct (s : FsmState W D A) (call : FsmCall D A) : FsmState W D A × Int :=
  if fsmTerminated s.fsm then (s, fsmEFinal)
  else
    match fsmScan s.fsm.current call s.fsm.entries s.world with
    | (none, world) => (⟨s.fsm, world⟩, fsmENomatch)
    | (some entry, world) =>
      let moved := { s.fsm with current := entry.target s.fsm.current }
      let (retExec, world) := entry.run (fun world => (0, world)) call.args world
      if retExec ≠ 0 ∨ fsmTerminated moved then
        let (fsm, world) := fsmTerminate moved world
        (⟨fsm, world⟩, retExec)
      else (⟨moved, world⟩, retExec)

/-! What a call is for, apart from how the table is scanned. -/

def FsmEntry.Fits (entry : FsmEntry W D H) (current action : Int) : Prop :=
  (entry.stateFrom = fsmStateAny ∨ entry.stateFrom = fsmStateCurrent ∨ entry.stateFrom = current) ∧
    (entry.action = fsmActionAny ∨ entry.action = action)

def FsmEntry.Grants (entry : FsmEntry W D H) (current : Int) (call : FsmCall D A)
    (world after : W) : Prop :=
  entry.Fits current call.action ∧ entry.cond call.condData1 call.condData2 world = (true, after)

def FsmEntry.Refuses (entry : FsmEntry W D H) (current : Int) (call : FsmCall D A)
    (world after : W) : Prop :=
  ¬ entry.Fits current call.action ∧ after = world ∨ entry.Fits current call.action ∧
    entry.cond call.condData1 call.condData2 world = (false, after)

/-- None of the entries matches when they are asked in turn, from `world` on. -/
inductive Skipped (current : Int) (call : FsmCall D A) : List (FsmEntry W D H) → W → W → Prop
  | nil (world : W) : Skipped current call [] world world
  | cons {entry rest world asked after} : entry.Refuses current call world asked →
      Skipped current call rest asked after → Skipped current call (entry :: rest) world after

/-- `entry` is the first of the table, in insertion order, that matches. -/
def FirstMatch (s : FsmState W D A) (call : FsmCall D A) (entry : FsmEntry W D (Exec W A))
    (after : W) : Prop :=
  ∃ before later asked, s.fsm.entries = before ++ entry :: later ∧
    Skipped s.fsm.current call before s.world asked ∧
    entry.Grants s.fsm.current call asked after

/-- Where an entry leads from `current`: to its state, or nowhere with a sentinel. -/
inductive Leads (stateTo current : Int) : Int → Prop
  | stays : stateTo = fsmStateAny ∨ stateTo = fsmStateCurrent → Leads stateTo current current
  | goes : stateTo ≠ fsmStateAny → stateTo ≠ fsmStateCurrent → Leads stateTo current stateTo

inductive Executes (args : A) (world : W) : Option (Exec W A) → Int → W → Prop
  | nothing : Executes args world none 0 world
  | hook {exec ret after} : exec args world = (ret, after) →
      Executes args world (some exec) ret after

inductive Tells (world : W) : Option ((D → W → Int × W) × D) → W → (told : Nat) → Prop
  | nobody : Tells world none world 0
  | callback {callback data ret after} : callback data world = (ret, after) →
      Tells world (some (callback, data)) after 1

/-- The first match is for the state `target`, and its hook returns `ret`. -/
def Fires (s : FsmState W D A) (call : FsmCall D A) (target ret : Int) (after : W) : Prop :=
  ∃ entry asked, FirstMatch s call entry asked ∧ Leads entry.stateTo s.fsm.current target ∧
    Executes call.args asked entry.exec ret after

/-- The call fires an entry that leads into the terminal state, or whose hook
returns non-zero. -/
def Ends (s : FsmState W D A) (call : FsmCall D A) : Prop :=
  s.fsm.current ≠ s.fsm.term ∧ ∃ target ret after, Fires s call target ret after ∧
    (target = s.fsm.term ∨ ret ≠ 0)

/-- The small transition system: the state after a call, what it returns and how often
the callback was run. -/
inductive Follows (s : FsmState W D A) (call : FsmCall D A) : FsmState W D A → Int → Nat → Prop
  | final : s.fsm.current = s.fsm.term → Follows s call s fsmEFinal 0
  | noMatch {after} : s.fsm.current ≠ s.fsm.term →
      Skipped s.fsm.current call s.fsm.entries s.world after →
      Follows s call ⟨s.fsm, after⟩ fsmENomatch 0
  | moves {target after} : s.fsm.current ≠ s.fsm.term → Fires s call target 0 after →
      target ≠ s.fsm.term → Follows s call ⟨{ s.fsm with current := target }, after⟩ 0 0
  | ends {target ret after world told} : s.fsm.current ≠ s.fsm.term →
      Fires s call target ret after → target = s.fsm.term ∨ ret ≠ 0 →
      Tells after s.fsm.callbackTerm world told →
      Follows s call ⟨{ s.fsm with current := s.fsm.term }, world⟩ ret told

inductive Runs : FsmState W D A → List (FsmCall D A) → FsmState W D A → List Int → Nat → Prop
  | nil (s : FsmState W D A) : Runs s [] s [] 0
  | cons {s call middle ret told rest last rets more} : Follows s call middle ret told →
      Runs middle rest last rets more → Runs s (call :: rest) last (ret :: rets) (told + more)

section Scan

variable {current : Int} {call : FsmCall D A} {entry : FsmEntry W D H}
    {entries rest : List (FsmEntry W D H)} {world asked after : W}

theorem fsmScan_grants (grants : entry.Grants current call world after) :
    fsmScan current call (entry :: rest) world = (some entry, after) := by
  obtain ⟨⟨state, action⟩, granted⟩ := grants
  rw [fsmScan, if_neg (by tauto), if_neg (by tauto), granted]

theorem fsmScan_refuses (refuses : entry.Refuses current call world asked) :
    fsmScan current call (entry :: rest) world = fsmScan current call rest asked := by
  rw [fsmScan]
  obtain ⟨unfit, rfl⟩ | ⟨⟨state, action⟩, refused⟩ := refuses
  · by_cases otherState : (entry.stateFrom ≠ fsmStateAny ∧ entry.stateFrom ≠ fsmStateCurrent) ∧
        entry.stateFrom ≠ current
    · rw [if_pos otherState]
    · rw [FsmEntry.Fits] at unfit
      rw [if_neg otherState, if_pos (by tauto)]
  · rw [if_neg (by tauto), if_neg (by tauto), refused]

theorem FsmEntry.refuses_or_grants (entry : FsmEntry W D H) (current : Int) (call : FsmCall D A)
    (world : W) : ∃ after, entry.Refuses current call world after ∨
      entry.Grants current call world after := by
  by_cases fits : entry.Fits current call.action
  · cases asked : entry.cond call.condData1 call.condData2 world with
    | mk granted after =>
      cases granted with
      | false => exact ⟨after, .inl (.inr ⟨fits, asked⟩)⟩
      | true => exact ⟨after, .inr ⟨fits, asked⟩⟩
  · exact ⟨world, .inl (.inl ⟨fits, rfl⟩)⟩

theorem Skipped.fsmScan_append (skipped : Skipped current call entries world asked)
    (rest : List (FsmEntry W D H)) :
    fsmScan current call (entries ++ rest) world = fsmScan current call rest asked := by
  induction skipped with
  | nil => rfl
  | cons refuses _ ih => rw [List.cons_append, fsmScan_refuses refuses, ih]

theorem skipped_or_found (current : Int) (call : FsmCall D A) (entries : List (FsmEntry W D H))
    (world : W) : (∃ after, Skipped current call entries world after) ∨
      ∃ before entry later asked after, entries = before ++ entry :: later ∧
        Skipped current call before world asked ∧ entry.Grants current call asked after := by
  induction entries generalizing world with
  | nil => exact .inl ⟨world, .nil world⟩
  | cons entry rest ih =>
    obtain ⟨next, refuses | grants⟩ := entry.refuses_or_grants current call world
    · obtain ⟨after, skipped⟩ | ⟨before, found, later, asked, after, rfl, skipped, grants⟩ :=
        ih next
      · exact .inl ⟨after, .cons refuses skipped⟩
      · exact .inr ⟨entry :: before, found, later, asked, after, rfl, .cons refuses skipped, grants⟩
    · exact .inr ⟨[], entry, rest, world, next, rfl, .nil world, grants⟩

end Scan

section Act

variable {s : FsmState W D A} {call : FsmCall D A} {entry : FsmEntry W D (Exec W A)} {after : W}

theorem FirstMatch.fsmScan_eq (first : FirstMatch s call entry after) :
    fsmScan s.fsm.current call s.fsm.entries s.world = (some entry, after) := by
  obtain ⟨before, later, asked, split, skipped, grants⟩ := first
  rw [split, skipped.fsmScan_append, fsmScan_grants grants]

theorem leads_iff {stateTo current target : Int} : Leads stateTo current target ↔
    target = if stateTo ≠ fsmStateAny ∧ stateTo ≠ fsmStateCurrent then stateTo else current := by
  constructor
  · rintro (sentinel | ⟨other, elsewhere⟩)
    · rw [if_neg (by tauto)]
    · rw [if_pos ⟨other, elsewhere⟩]
  · rintro rfl
    split
    next goes => exact .goes goes.1 goes.2
    next stays => exact .stays (by tauto)

theorem executes_iff {world : W} :
    Executes args world entry.exec ret after ↔
      entry.run (fun world => (0, world)) args world = (ret, after) := by
  unfold FsmEntry.run
  cases entry.exec with
  | none =>
    constructor
    · rintro ⟨⟩
      rfl
    · rintro ⟨⟩
      exact .nothing
  | some exec =>
    constructor
    · rintro (_ | executed)
      exact executed
    · exact .hook

/-- What is fired is determined by the scan. -/
theorem fires_iff {target ret : Int} : Fires s call target ret after ↔
    ∃ entry asked, fsmScan s.fsm.current call s.fsm.entries s.world = (some entry, asked) ∧
      target = entry.target s.fsm.current ∧
      entry.run (fun world => (0, world)) call.args asked = (ret, after) := by
  constructor
  · rintro ⟨entry, asked, first, leads, executes⟩
    exact ⟨entry, asked, first.fsmScan_eq, leads_iff.mp leads, executes_iff.mp executes⟩
  · rintro ⟨entry, asked, scanned, leads, executes⟩
    refine ⟨entry, asked, ?_, leads_iff.mpr leads, executes_iff.mpr executes⟩
    obtain ⟨other, skipped⟩ | ⟨before, found, later, passed, next, split, skipped, grants⟩ :=
      skipped_or_found s.fsm.current call s.fsm.entries s.world
    · have nothing := skipped.fsmScan_append []
      rw [List.append_nil, scanned] at nothing
      cases nothing
    · have first : FirstMatch s call found next := ⟨before, later, passed, split, skipped, grants⟩
      have same := first.fsmScan_eq
      rw [scanned] at same
      cases same
      exact first

theorem tells_fsmTerminate (fsm : Fsm W D H) (world : W) :
    Tells world fsm.callbackTerm (fsmTerminate fsm world).2
      (if fsm.callbackTerm.isSome then 1 else 0) := by
  unfold fsmTerminate
  cases fsm.callbackTerm with
  | none => exact .nobody
  | some callback => exact .callback rfl

def toldOnce (fsm : Fsm W D H) : Nat :=
  if fsm.current = fsm.term ∧ fsm.callbackTerm.isSome then 1 else 0

theorem fsmAct_follows (s : FsmState W D A) (call : FsmCall D A) :
    ∃ told, Follows s call (fsmAct s call).1 (fsmAct s call).2 told ∧
      toldOnce s.fsm + told = toldOnce (fsmAct s call).1.fsm := by
  rw [fsmAct]
  by_cases running : s.fsm.current = s.fsm.term
  · rw [if_pos (by simpa [fsmTerminated] using running)]
    exact ⟨0, .final running, rfl⟩
  have untold : toldOnce s.fsm = 0 := if_neg fun ended => running ended.1
  rw [if_neg (by simpa [fsmTerminated] using running), untold]
  cases scanned : fsmScan s.fsm.current call s.fsm.entries s.world with
  | mk found world =>
    cases found with
    | none =>
      refine ⟨0, .noMatch running ?_, untold.symm⟩
      obtain ⟨after, skipped⟩ | ⟨before, entry, later, asked, after, found⟩ :=
        skipped_or_found s.fsm.current call s.fsm.entries s.world
      · have same := skipped.fsmScan_append []
        rw [List.append_nil, scanned] at same
        cases same
        exact skipped
      · have first : FirstMatch s call entry after := ⟨before, later, asked, found⟩
        cases scanned.symm.trans first.fsmScan_eq
    | some entry =>
      cases hooked : entry.run (fun world => (0, world)) call.args world with
      | mk ret after =>
        have fires : Fires s call (entry.target s.fsm.current) ret after :=
          fires_iff.mpr ⟨entry, world, scanned, rfl, hooked⟩
        by_cases ends : entry.target s.fsm.current = s.fsm.term ∨ ret ≠ 0
        · simp only [hooked]
          rw [if_pos (by simpa [fsmTerminated, or_comm] using ends)]
          have tells := tells_fsmTerminate
            { s.fsm with current := entry.target s.fsm.current } after
          exact ⟨_, .ends running fires ends tells, by simp [toldOnce, fsmTerminate]⟩
        · simp only [hooked]
          rw [if_neg (by simpa [fsmTerminated, or_comm] using ends)]
          obtain ⟨elsewhere, fine⟩ := not_or.mp ends
          cases not_not.mp fine
          exact ⟨0, .moves running fires elsewhere, by simp [toldOnce, elsewhere]⟩

theorem Follows.terminated_iff {next : FsmState W D A} (follows : Follows s call next ret told) :
    next.fsm.current = next.fsm.term ↔ s.fsm.current = s.fsm.term ∨ Ends s call := by
  cases follows with
  | final ended => simp [ended]
  | noMatch running skipped =>
    have quiet : ¬ Ends s call := by
      rintro ⟨_, target, ret, after, ⟨entry, asked, first, _⟩, _⟩
      have scanned := skipped.fsmScan_append []
      rw [List.append_nil, first.fsmScan_eq] at scanned
      cases scanned
    simp [running, quiet]
  | @moves target after running fires elsewhere =>
    have quiet : ¬ Ends s call := by
      rintro ⟨_, other, ret, next, again, ends⟩
      obtain ⟨entry, asked, scanned, rfl, hooked⟩ := fires_iff.mp fires
      obtain ⟨entry', asked', scanned', rfl, hooked'⟩ := fires_iff.mp again
      cases scanned.symm.trans scanned'
      cases hooked.symm.trans hooked'
      exact ends.elim elsewhere fun failed => failed rfl
    simp [running, quiet, elsewhere]
  | ends running fires ends => exact iff_of_true rfl (.inr ⟨running, _, _, _, fires, ends⟩)

end Act

def fsmStep (s : FsmState W D A) (call : FsmCall D A) : FsmState W D A := (fsmAct s call).1

def fsmRets (s : FsmState W D A) : List (FsmCall D A) → List Int
  | [] => []
  | call :: rest => (fsmAct s call).2 :: fsmRets (fsmStep s call) rest

theorem runs_fsmActs (s : FsmState W D A) (calls : List (FsmCall D A)) :
    ∃ told, Runs s calls (run fsmStep s calls) (fsmRets s calls) told ∧
      toldOnce s.fsm + told = toldOnce (run fsmStep s calls).fsm := by
  induction calls generalizing s with
  | nil => exact ⟨0, .nil s, rfl⟩
  | cons call rest ih =>
    obtain ⟨told, follows, first⟩ := fsmAct_follows s call
    obtain ⟨more, later, others⟩ := ih (fsmStep s call)
    refine ⟨told + more, .cons follows later, ?_⟩
    rw [run_cons, ← others, ← Nat.add_assoc, first, fsmStep]

theorem terminated_run_iff (s : FsmState W D A) (calls : List (FsmCall D A)) :
    (run fsmStep s calls).fsm.current = (run fsmStep s calls).fsm.term ↔
      s.fsm.current = s.fsm.term ∨ ∃ before call later, calls = before ++ call :: later ∧
        Ends (run fsmStep s before) call := by
  induction calls generalizing s with
  | nil => simp
  | cons call rest ih =>
    obtain ⟨told, follows, _⟩ := fsmAct_follows s call
    rw [run_cons, ih, fsmStep, follows.terminated_iff, or_assoc]
    apply or_congr_right
    constructor
    · rintro (ends | ⟨before, later, tail, rfl, ends⟩)
      · exact ⟨[], call, rest, rfl, ends⟩
      · exact ⟨call :: before, later, tail, rfl, ends⟩
    · rintro ⟨before, later, tail, split, ends⟩
      cases before with
      | nil => cases split; exact .inl ends
      | cons first before => cases split; exact .inr ⟨before, later, tail, rfl, ends⟩

theorem fsmSet_appends (grants : Nat → Bool) (self : Fsm W D H) (table : List (FsmEntry W D H)) :
    ∃ added cap, added <+: table ∧ (fsmSet grants self table).1 =
        { self with entries := self.entries ++ added, cap := cap } ∧
      ((fsmSet grants self table).2 = fsmOk → added = table) := by
  induction table generalizing self with
  | nil => exact ⟨[], self.cap, List.nil_prefix, by simp [fsmSet], fun _ => rfl⟩
  | cons entry rest ih =>
    rw [fsmSet]
    have placed : ∀ next ∈ fsmEntryAdd grants self entry, ∃ cap,
        next = { self with entries := self.entries ++ [entry], cap := cap } := by
      intro next added
      unfold fsmEntryAdd at added
      grind
    cases added : fsmEntryAdd grants self entry with
    | none => exact ⟨[], self.cap, List.nil_prefix, by simp, by simp [fsmENomem, fsmOk]⟩
    | some next =>
      obtain ⟨_, rfl⟩ := placed next added
      dsimp only
      obtain ⟨more, cap, short, same, all⟩ := ih { self with
        entries := self.entries ++ [entry], cap := _ }
      refine ⟨entry :: more, cap, by simpa using short, ?_, fun ok => ?_⟩
      · rw [same, List.append_assoc, List.singleton_append]
      · rw [all ok]

/-- A machine outside its terminal state follows the transition system call by
call, ends exactly with the first call that has to end it, and tells so once;
`fsm_set` puts its entries behind those already there. -/
theorem fsmActs_follow (fsm : Fsm W D (Exec W A)) (running : fsm.current ≠ fsm.term) (world : W)
    (calls : List (FsmCall D A)) :
    (∀ grants table, ∃ added cap, added <+: table ∧ (fsmSet grants fsm table).1 =
        { fsm with entries := fsm.entries ++ added, cap := cap } ∧
      ((fsmSet grants fsm table).2 = fsmOk → added = table)) ∧
    Runs ⟨fsm, world⟩ calls (run fsmStep ⟨fsm, world⟩ calls) (fsmRets ⟨fsm, world⟩ calls)
      (toldOnce (run fsmStep ⟨fsm, world⟩ calls).fsm) ∧
    ((run fsmStep ⟨fsm, world⟩ calls).fsm.current = (run fsmStep ⟨fsm, world⟩ calls).fsm.term ↔
      ∃ before call later, calls = before ++ call :: later ∧
        Ends (run fsmStep ⟨fsm, world⟩ before) call) := by
  refine ⟨fun grants table => fsmSet_appends grants fsm table, ?_, ?_⟩
  · obtain ⟨told, runs, count⟩ := runs_fsmActs ⟨fsm, world⟩ calls
    have fresh : toldOnce fsm = 0 := if_neg fun ended => running ended.1
    rw [fresh, Nat.zero_add] at count
    rwa [← count]
  · simpa [running] using terminated_run_iff ⟨fsm, world⟩ calls

def oneShotFsm : Fsm Nat Unit (Exec Nat Unit) :=
  fsmSetCallbackTerminated
    (fsmSet (fun _ => true) (fsmCreate 0 2) [⟨0, 7, fun _ _ world => (true, world), 2, none⟩]).1
    (fun _ world => (0, world + 1)) ()

theorem fsmActs_follow_oneShot : oneShotFsm.current ≠ oneShotFsm.term ∧
    Runs ⟨oneShotFsm, 0⟩ [⟨5, (), (), ()⟩, ⟨7, (), (), ()⟩, ⟨7, (), (), ()⟩]
      ⟨{ oneShotFsm with current := 2 }, 1⟩ [fsmENomatch, 0, fsmEFinal] 1 :=
  ⟨by decide, (fsmActs_follow oneShotFsm (by decide) 0 _).2.1⟩

end Pro2Call.Task

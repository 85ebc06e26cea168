import Pro2Call.Data.Run
import Pro2Call.Data.Slots

namespace Pro2Call.Net

open Pro2Call.Data

/-! The pre-poll hooks of the event loop. A hook is dropped by clearing its slot;
the dispatch of a step closes the gaps once every slot has been visited. -/

def netOk : Int := 0
def netErr : Int := -1

variable {Cb Ud : Type*}

structure Pre (Cb Ud : Type*) where
  cb : Option Cb
  ud : Option Ud
  deriving DecidableEq, Repr

def Pre.dropped : Pre Cb Ud where
  cb := none
  ud := none

def Pre.used (slot : Pre Cb Ud) : Bool := slot.cb.isSome

@[simp] theorem Pre.used_dropped : (Pre.dropped : Pre Cb Ud).used = false := rfl

/-- The hook part of a loop: `pre` holds the `npre` slots in use, dropped ones
included, of the `cpre` allocated. -/
structure PreTable (Cb Ud : Type*) where
  pre : List (Pre Cb Ud)
  cpre : Nat
  preGaps : Bool
  deriving DecidableEq, Repr

def PreTable.new : PreTable Cb Ud where
  pre := []
  cpre := 0
  preGaps := false

def PreTable.hooks (l : PreTable Cb Ud) : List (Pre Cb Ud) := Slots.live Pre.used l.pre

section Table

variable [DecidableEq Cb] [DecidableEq Ud]

def netLoopPreAdd (l : PreTable Cb Ud) (hook : Pre Cb Ud) (grown : Bool) : PreTable Cb Ud × Int :=
  if hook.cb.isNone then (l, netErr)
  else if hook ∈ l.pre then (l, netOk)
  else
    match l.pre.findIdx? fun slot => !slot.used with
    | some i => ({ l with pre := l.pre.set i hook }, netOk)
    | none =>
      if l.pre.length = l.cpre then
        if grown then
          ({ l with
              pre := l.pre ++ [hook]
              cpre := if l.cpre = 0 then 4 else l.cpre * 2 }, netOk)
        else (l, netErr)
      else ({ l with pre := l.pre ++ [hook] }, netOk)

def netLoopPreDel (l : PreTable Cb Ud) (hook : Pre Cb Ud) : PreTable Cb Ud × Int :=
  match l.pre.findIdx? fun slot => slot = hook with
  | some i => ({ l with pre := l.pre.set i .dropped, preGaps := true }, netOk)
  | none => (l, netErr)

omit [DecidableEq Cb] [DecidableEq Ud] in
def preCompact (l : PreTable Cb Ud) : PreTable Cb Ud :=
  { l with pre := l.pre.filter Pre.used, preGaps := false }

theorem netLoopPreAdd_cases (l : PreTable Cb Ud) (hook : Pre Cb Ud) (grown : Bool) :
    ((netLoopPreAdd l hook grown).1 = l ∧
        ((netLoopPreAdd l hook grown).2 = netOk → hook ∈ l.hooks)) ∨
      (hook.used = true ∧ hook ∉ l.pre ∧ (netLoopPreAdd l hook grown).2 = netOk ∧
        (netLoopPreAdd l hook grown).1.pre = Slots.place Pre.used hook l.pre) := by
  have failed : netErr ≠ netOk := by decide
  unfold netLoopPreAdd Slots.place PreTable.hooks
  by_cases empty : hook.cb.isNone
  · simp [empty, failed]
  · have used : hook.used = true := by
      simpa [Pre.used, Option.isSome_iff_ne_none] using empty
    by_cases known : hook ∈ l.pre
    · simp [empty, known, Slots.mem_live, used]
    · rw [if_neg empty, if_neg known]
      cases l.pre.findIdx? fun slot => !slot.used with
      | some i => exact .inr ⟨used, known, rfl, rfl⟩
      | none =>
        by_cases full : l.pre.length = l.cpre
        · cases grown <;> simp [full, used, known, failed]
        · simp [full, used, known]

theorem netLoopPreDel_cases (l : PreTable Cb Ud) (hook : Pre Cb Ud) :
    ((netLoopPreDel l hook).1 = l ∧ hook ∉ l.pre) ∨ ∃ i, l.pre[i]? = some hook ∧
        (netLoopPreDel l hook).1 = { l with pre := l.pre.set i .dropped, preGaps := true } := by
  unfold netLoopPreDel
  cases found : l.pre.findIdx? fun slot => slot = hook with
  | none =>
    refine .inl ⟨rfl, ?_⟩
    intro member
    have other := List.findIdx?_eq_none_iff.mp found hook member
    simp at other
  | some i =>
    obtain ⟨inside, same, _⟩ := List.findIdx?_eq_some_iff_getElem.mp found
    refine .inr ⟨i, ?_, rfl⟩
    rw [List.getElem?_eq_getElem inside, decide_eq_true_eq.mp same]

end Table

/-- A loop whose steps are followed slot by slot. `pos` is the slot the dispatch
of a step comes to next. Registrations are numbered: `since` is the number of a
hook's latest one, `begun` the first number given after the current step began,
and `ran` lists the hooks the current, or the last, step ran, each with its
number at that moment. -/
structure HookRun (Cb Ud : Type*) where
  loop : PreTable Cb Ud
  pos : Option Nat
  serial : Nat
  since : Pre Cb Ud → Nat
  begun : Nat
  ran : List (Pre Cb Ud × Nat)

/-- What happens to the hooks; what a running hook does comes between two
`dispatch`es. -/
inductive HookEvent (Cb Ud : Type*) where
  | preAdd (hook : Pre Cb Ud) (grown : Bool)
  | preDel (hook : Pre Cb Ud)
  | step
  | dispatch

def HookRun.new : HookRun Cb Ud where
  loop := .new
  pos := none
  serial := 0
  since := fun _ => 0
  begun := 0
  ran := []

def HookRun.passed (r : HookRun Cb Ud) : List (Pre Cb Ud) :=
  match r.pos with
  | none => r.loop.pre
  | some i => r.loop.pre.take i

def HookRun.coming (r : HookRun Cb Ud) : List (Pre Cb Ud) :=
  match r.pos with
  | none => []
  | some i => r.loop.pre.drop i

def HookRun.dispatch (r : HookRun Cb Ud) : HookRun Cb Ud :=
  match r.pos with
  | none => r
  | some i =>
    match r.loop.pre[i]? with
    | some slot =>
      { r with
        pos := some (i + 1)
        ran := if slot.used then r.ran ++ [(slot, r.since slot)] else r.ran }
    | none =>
      { r with
        pos := none
        loop := if r.loop.preGaps then preCompact r.loop else r.loop }

section Run

variable [DecidableEq Cb] [DecidableEq Ud]

def HookRun.preAdd (r : HookRun Cb Ud) (hook : Pre Cb Ud) (grown : Bool) : HookRun Cb Ud :=
  let added := netLoopPreAdd r.loop hook grown
  if hook ∉ r.loop.pre ∧ added.2 = netOk then
    { r with
      loop := added.1
      since := Function.update r.since hook r.serial
      serial := r.serial + 1 }
  else { r with loop := added.1 }

def hookStep (r : HookRun Cb Ud) : HookEvent Cb Ud → HookRun Cb Ud
  | .preAdd hook grown => r.preAdd hook grown
  | .preDel hook => { r with loop := (netLoopPreDel r.loop hook).1 }
  | .step =>
    match r.pos with
    | none => { r with pos := some 0, begun := r.serial, ran := [] }
    | some _ => r
  | .dispatch => r.dispatch

/-- The hooks of a step were run in the order of their registrations, and a step
that is over has run every hook that was registered when it began and still is. -/
structure InOrder (r : HookRun Cb Ud) : Prop where
  ordered : (r.ran.map Prod.snd).Pairwise (· < ·)
  complete : r.pos = none → ∀ hook ∈ r.loop.hooks, r.since hook < r.begun →
    (hook, r.since hook) ∈ r.ran

/-- A new hook finds no hook behind the slot it will take; one without a callback
takes none. -/
def AddsLast (r : HookRun Cb Ud) : HookEvent Cb Ud → Prop
  | .preAdd hook _ => hook.used = true → hook ∉ r.loop.pre →
      Slots.live Pre.used (r.loop.pre.drop (Slots.nextSlot Pre.used r.loop.pre)) = []
  | _ => True

end Run

structure Follows (r : HookRun Cb Ud) : Prop where
  ordered : (r.loop.hooks.map r.since).Pairwise (· < ·)
  numbered : ∀ hook ∈ r.loop.hooks, r.since hook < r.serial
  begun : r.begun ≤ r.serial
  ranOrdered : (r.ran.map Prod.snd).Pairwise (· < ·)
  ranNumbered : ∀ entry ∈ r.ran, entry.2 < r.serial
  ahead : ∀ hook ∈ r.coming, hook.used = true → ∀ entry ∈ r.ran, entry.2 < r.since hook
  behind : ∀ hook ∈ r.passed, hook.used = true → r.since hook < r.begun →
    (hook, r.since hook) ∈ r.ran

theorem follows_new : Follows (HookRun.new : HookRun Cb Ud) := by
  constructor <;> simp [HookRun.new, PreTable.new, PreTable.hooks, Slots.live,
    HookRun.coming, HookRun.passed]

theorem HookRun.mem_pre_of_coming {r : HookRun Cb Ud} (member : hook ∈ r.coming) :
    hook ∈ r.loop.pre := by
  unfold HookRun.coming at member
  split at member
  · cases member
  · exact List.mem_of_mem_drop member

theorem HookRun.mem_pre_of_passed {r : HookRun Cb Ud} (member : hook ∈ r.passed) :
    hook ∈ r.loop.pre := by
  unfold HookRun.passed at member
  split at member
  · exact member
  · exact List.mem_of_mem_take member

theorem HookRun.coming_of_placed {r r' : HookRun Cb Ud} (member : other ∈ r'.coming)
    (position : r'.pos = r.pos)
    (placed : r'.loop.pre = Slots.place Pre.used hook r.loop.pre) :
    other = hook ∨ other ∈ r.coming := by
  unfold HookRun.coming at member ⊢
  rw [position, placed] at member
  cases here : r.pos with
  | none => simp [here] at member
  | some cut =>
    simp only [here] at member
    exact Slots.mem_drop_place member

theorem HookRun.passed_of_placed {r r' : HookRun Cb Ud} (member : other ∈ r'.passed)
    (position : r'.pos = r.pos)
    (placed : r'.loop.pre = Slots.place Pre.used hook r.loop.pre) :
    other = hook ∨ other ∈ r.passed := by
  unfold HookRun.passed at member ⊢
  rw [position, placed] at member
  cases here : r.pos with
  | none =>
    simp only [here] at member
    rw [← List.drop_zero (l := Slots.place _ _ _)] at member
    exact Slots.mem_drop_place member
  | some cut =>
    simp only [here] at member
    exact Slots.mem_take_place member

theorem pairwise_lt_append {Entry : Type*} {entries : List Entry} {number : Entry → Nat}
    {last : Nat} (ordered : (entries.map number).Pairwise (· < ·))
    (above : ∀ entry ∈ entries, number entry < last) :
    (entries.map number ++ [last]).Pairwise (· < ·) := by
  rw [List.pairwise_append]
  refine ⟨ordered, List.pairwise_singleton _ _, ?_⟩
  intro first member second isLast
  obtain ⟨entry, held, rfl⟩ := List.mem_map.mp member
  rw [List.mem_singleton.mp isLast]
  exact above entry held

theorem Follows.inOrder [DecidableEq Cb] [DecidableEq Ud] {r : HookRun Cb Ud}
    (follows : Follows r) : InOrder r where
  ordered := follows.ranOrdered
  complete := by
    intro finished hook member early
    obtain ⟨held, used⟩ := Slots.mem_live.mp member
    have passed : hook ∈ r.passed := by simpa only [HookRun.passed, finished] using held
    exact follows.behind hook passed used early

theorem Follows.of_sublist {r : HookRun Cb Ud} {loop : PreTable Cb Ud}
    (follows : Follows r) (fewer : loop.hooks.Sublist r.loop.hooks)
    (coming : ∀ hook ∈ ({ r with loop := loop } : HookRun Cb Ud).coming,
      hook.used = true → hook ∈ r.coming)
    (passed : ∀ hook ∈ ({ r with loop := loop } : HookRun Cb Ud).passed,
      hook.used = true → hook ∈ r.passed) :
    Follows { r with loop := loop } where
  ordered := follows.ordered.sublist (fewer.map r.since)
  numbered := fun hook member => follows.numbered hook (fewer.subset member)
  begun := follows.begun
  ranOrdered := follows.ranOrdered
  ranNumbered := follows.ranNumbered
  ahead := fun hook member used => follows.ahead hook (coming hook member used) used
  behind := fun hook member used => follows.behind hook (passed hook member used) used

section Steps

variable [DecidableEq Cb] [DecidableEq Ud] {r : HookRun Cb Ud}

theorem Follows.preDel (follows : Follows r) (hook : Pre Cb Ud) :
    Follows { r with loop := (netLoopPreDel r.loop hook).1 } := by
  rcases netLoopPreDel_cases r.loop hook with ⟨unchanged, _⟩ | ⟨i, _, cleared⟩
  · rw [unchanged]
    exact follows
  rw [cleared]
  apply follows.of_sublist
  · exact Slots.live_set_sublist Pre.used_dropped i
  · intro other member used
    unfold HookRun.coming at member ⊢
    cases position : r.pos with
    | none => simp [position] at member
    | some cut =>
      simp only [position] at member
      exact Slots.mem_drop_of_mem_set Pre.used_dropped used member
  · intro other member used
    unfold HookRun.passed at member ⊢
    cases position : r.pos with
    | none =>
      simp only [position] at member
      exact Slots.mem_of_mem_set Pre.used_dropped used member
    | some cut =>
      simp only [position] at member
      exact Slots.mem_take_of_mem_set Pre.used_dropped used member

theorem Follows.placed {loop : PreTable Cb Ud} {hook : Pre Cb Ud} (follows : Follows r)
    (used : hook.used = true) (fresh : hook ∉ r.loop.pre)
    (placed : loop.pre = Slots.place Pre.used hook r.loop.pre)
    (last : Slots.live Pre.used (r.loop.pre.drop (Slots.nextSlot Pre.used r.loop.pre)) = []) :
    Follows { r with
      loop := loop
      since := Function.update r.since hook r.serial
      serial := r.serial + 1 } := by
  have hooks : loop.hooks = r.loop.hooks ++ [hook] := by
    unfold PreTable.hooks
    rw [placed]
    exact Slots.live_place_of_last used last
  have kept : ∀ other ∈ r.loop.pre,
      Function.update r.since hook r.serial other = r.since other := by
    intro other member
    apply Function.update_of_ne
    rintro rfl
    exact fresh member
  have inPre : ∀ other ∈ r.loop.hooks, other ∈ r.loop.pre :=
    fun other member => (Slots.mem_live.mp member).1
  refine ⟨?_, ?_, Nat.le_succ_of_le follows.begun, follows.ranOrdered,
    fun entry member => Nat.lt_succ_of_lt (follows.ranNumbered entry member), ?_, ?_⟩
  · simp only [hooks, List.map_append, List.map_singleton, Function.update_self]
    rw [List.map_congr_left fun other member => kept other (inPre other member)]
    exact pairwise_lt_append follows.ordered follows.numbered
  · intro other member
    simp only [hooks, List.mem_append, List.mem_singleton] at member
    rcases member with registered | rfl
    · simp only [kept other (inPre other registered)]
      exact Nat.lt_succ_of_lt (follows.numbered other registered)
    · simp only [Function.update_self]
      exact Nat.lt_succ_self r.serial
  · intro other member taken entry ran
    rcases HookRun.coming_of_placed (r := r) member rfl placed with rfl | before
    · simp only [Function.update_self]
      exact follows.ranNumbered entry ran
    · simp only [kept other (HookRun.mem_pre_of_coming before)]
      exact follows.ahead other before taken entry ran
  · intro other member taken early
    rcases HookRun.passed_of_placed (r := r) member rfl placed with rfl | before
    · simp only [Function.update_self] at early
      exact absurd early (Nat.not_lt.mpr follows.begun)
    · simp only [kept other (HookRun.mem_pre_of_passed before)] at early ⊢
      exact follows.behind other before taken early

theorem Follows.preAdd (follows : Follows r) (last : AddsLast r (.preAdd hook grown)) :
    Follows (r.preAdd hook grown) := by
  unfold HookRun.preAdd
  rcases netLoopPreAdd_cases r.loop hook grown with
    ⟨unchanged, known⟩ | ⟨used, fresh, accepted, placed⟩
  · have no_number : ¬ (hook ∉ r.loop.pre ∧ (netLoopPreAdd r.loop hook grown).2 = netOk) := by
      rintro ⟨fresh, accepted⟩
      exact fresh (Slots.mem_live.mp (known accepted)).1
    rw [if_neg no_number, unchanged]
    exact follows
  · rw [if_pos ⟨fresh, accepted⟩]
    exact follows.placed used fresh placed (last used fresh)

omit [DecidableEq Cb] [DecidableEq Ud] in
theorem Follows.began (follows : Follows r) :
    Follows { r with pos := some 0, begun := r.serial, ran := [] } := by
  refine ⟨follows.ordered, follows.numbered, Nat.le_refl _, List.Pairwise.nil, ?_, ?_, ?_⟩
  · intro entry member
    cases member
  · intro hook _ _ entry member
    cases member
  · intro hook member
    simp [HookRun.passed] at member

omit [DecidableEq Cb] [DecidableEq Ud] in
theorem Follows.visited (follows : Follows r) (position : r.pos = some i)
    (there : r.loop.pre[i]? = some slot) :
    Follows { r with
      pos := some (i + 1)
      ran := if slot.used then r.ran ++ [(slot, r.since slot)] else r.ran } := by
  obtain ⟨inside, same⟩ := List.getElem?_eq_some_iff.mp there
  have cut : r.loop.pre.drop i = slot :: r.loop.pre.drop (i + 1) := by
    rw [← same, List.getElem_cons_drop]
  have coming : r.coming = slot :: r.loop.pre.drop (i + 1) := by
    simp only [HookRun.coming, position, cut]
  have passed : r.loop.pre.take (i + 1) = r.passed ++ [slot] := by
    simp only [HookRun.passed, position]
    rw [List.take_add_one, there, Option.toList_some]
  have later : ∀ hook ∈ r.loop.pre.drop (i + 1), hook.used = true → slot.used = true →
      r.since slot < r.since hook := by
    intro hook member used taken
    have order := follows.ordered.sublist
      (((List.drop_sublist i r.loop.pre).filter Pre.used).map r.since)
    rw [cut, List.filter_cons_of_pos taken, List.map_cons, List.pairwise_cons] at order
    exact order.1 _ (List.mem_map_of_mem (List.mem_filter.mpr ⟨member, used⟩))
  cases taken : slot.used with
  | false =>
    refine ⟨follows.ordered, follows.numbered, follows.begun, follows.ranOrdered,
      follows.ranNumbered, ?_, ?_⟩
    · intro hook member used
      apply follows.ahead hook _ used
      rw [coming]
      exact List.mem_cons_of_mem slot member
    · intro hook member used
      simp only [HookRun.passed, passed, List.mem_append, List.mem_singleton] at member
      rcases member with before | rfl
      · exact follows.behind hook before used
      · rw [taken] at used
        cases used
  | true =>
    have before : ∀ entry ∈ r.ran, entry.2 < r.since slot :=
      follows.ahead slot (by rw [coming]; exact List.mem_cons_self) taken
    have registered : slot ∈ r.loop.hooks := Slots.mem_live.mpr ⟨List.mem_of_getElem? there, taken⟩
    refine ⟨follows.ordered, follows.numbered, follows.begun, ?_, ?_, ?_, ?_⟩
    · simp only [if_true, List.map_append, List.map_singleton]
      exact pairwise_lt_append follows.ranOrdered before
    · intro entry member
      simp only [if_true, List.mem_append, List.mem_singleton] at member
      rcases member with ran | rfl
      · exact follows.ranNumbered entry ran
      · exact follows.numbered slot registered
    · intro hook member used entry ran
      simp only [if_true, List.mem_append, List.mem_singleton] at ran
      rcases ran with ran | rfl
      · apply follows.ahead hook _ used entry ran
        rw [coming]
        exact List.mem_cons_of_mem slot member
      · exact later hook member used taken
    · intro hook member used early
      simp only [HookRun.passed, passed, List.mem_append, List.mem_singleton] at member
      simp only [if_true, List.mem_append, List.mem_singleton]
      rcases member with earlier | rfl
      · exact .inl (follows.behind hook earlier used early)
      · exact .inr rfl

omit [DecidableEq Cb] [DecidableEq Ud] in
theorem Follows.finished (follows : Follows r) (position : r.pos = some i)
    (past : r.loop.pre[i]? = none) :
    Follows { r with
      pos := none
      loop := if r.loop.preGaps then preCompact r.loop else r.loop } := by
  have whole : r.passed = r.loop.pre := by
    simp only [HookRun.passed, position]
    exact List.take_of_length_le (List.getElem?_eq_none_iff.mp past)
  have hooks : (if r.loop.preGaps then preCompact r.loop else r.loop).hooks = r.loop.hooks := by
    split
    · exact Slots.live_live
    · rfl
  have fewer : ∀ hook ∈ (if r.loop.preGaps then preCompact r.loop else r.loop).pre,
      hook ∈ r.loop.pre := by
    split
    · exact fun hook member => (List.mem_filter.mp member).1
    · exact fun hook member => member
  refine ⟨?_, ?_, follows.begun, follows.ranOrdered, follows.ranNumbered, ?_, ?_⟩
  · simp only [hooks]
    exact follows.ordered
  · simp only [hooks]
    exact follows.numbered
  · intro hook member
    simp [HookRun.coming] at member
  · intro hook member used
    apply follows.behind hook _ used
    rw [whole]
    exact fewer hook member

theorem Follows.hookStep (follows : Follows r) (last : AddsLast r event) :
    Follows (hookStep r event) := by
  cases event with
  | preAdd hook grown => exact follows.preAdd last
  | preDel hook => exact follows.preDel hook
  | step =>
    unfold Net.hookStep
    cases position : r.pos with
    | none => exact follows.began
    | some i => exact follows
  | dispatch =>
    unfold Net.hookStep HookRun.dispatch
    cases position : r.pos with
    | none => exact follows
    | some i =>
      cases there : r.loop.pre[i]? with
      | none => simpa only [there] using follows.finished position there
      | some slot => simpa only [there] using follows.visited position there

end Steps

/-- As long as no new hook is put in front of another one, every step runs the
hooks in the order of their registrations. -/
theorem hooks_in_order_of_addsLast [DecidableEq Cb] [DecidableEq Ud]
    {events : List (HookEvent Cb Ud)}
    (last : EveryStep hookStep AddsLast HookRun.new events) :
    EveryState hookStep InOrder HookRun.new events := by
  have every : EveryState hookStep Follows HookRun.new events :=
    EveryState.of_step (fun _ _ follows condition => follows.hookStep condition) follows_new last
  exact every.mono fun _ follows => follows.inOrder

def plainHook (cb : Nat) : Pre Nat Nat where
  cb := some cb
  ud := none

def handOver : List (HookEvent Nat Nat) :=
  [.preAdd (plainHook 1) true, .preAdd (plainHook 2) true, .step, .dispatch, .dispatch,
    .preDel (plainHook 2), .preAdd (plainHook 3) true, .dispatch]

theorem handOver_in_order :
    EveryStep hookStep AddsLast HookRun.new handOver ∧
      EveryState hookStep InOrder HookRun.new handOver := by
  have last : EveryStep hookStep AddsLast HookRun.new handOver :=
    ⟨fun _ _ => rfl, fun _ _ => rfl, trivial, trivial, trivial, trivial, fun _ _ => rfl, trivial,
      trivial⟩
  exact ⟨last, hooks_in_order_of_addsLast last⟩

/-- The third hook takes the slot of the first, in front of the second. -/
theorem dropped_slot_overtakes :
    (run hookStep HookRun.new
        [.preAdd (plainHook 1) true, .preAdd (plainHook 2) true, .preDel (plainHook 1),
          .preAdd (plainHook 3) true, .step, .dispatch, .dispatch]).ran =
        [(plainHook 3, 2), (plainHook 2, 1)] ∧
      ¬ InOrder (run hookStep HookRun.new
        [.preAdd (plainHook 1) true, .preAdd (plainHook 2) true, .preDel (plainHook 1),
          .preAdd (plainHook 3) true, .step, .dispatch, .dispatch]) := by
  have ran : (run hookStep HookRun.new
      [.preAdd (plainHook 1) true, .preAdd (plainHook 2) true, .preDel (plainHook 1),
        .preAdd (plainHook 3) true, .step, .dispatch, .dispatch]).ran =
      [(plainHook 3, 2), (plainHook 2, 1)] := by
    decide
  refine ⟨ran, ?_⟩
  intro inOrder
  have ordered := inOrder.ordered
  rw [ran] at ordered
  revert ordered
  decide

end Pro2Call.Net

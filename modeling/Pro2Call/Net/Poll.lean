import Pro2Call.Data.Run
import Pro2Call.Net.Hooks

namespace Pro2Call.Net

open Pro2Call.Data

/-! The descriptors of the event loop. A step fetches a batch of events before any
callback runs, and looks the descriptor of each event up again when its turn has
come. Results of `realloc`, `epoll_ctl` and `epoll_wait` are arguments. -/

def netRd : UInt32 := 1
def netWr : UInt32 := 2
def netEr : UInt32 := 4

def epollIn : UInt32 := 0x1
def epollPri : UInt32 := 0x2
def epollOut : UInt32 := 0x4
def epollErr : UInt32 := 0x8
def epollHup : UInt32 := 0x10

def epRevents (ev : UInt32) : UInt32 :=
  (if ev &&& (epollIn ||| epollPri) ≠ 0 then netRd else 0) |||
    (if ev &&& epollOut ≠ 0 then netWr else 0) |||
    (if ev &&& (epollErr ||| epollHup) ≠ 0 then netEr else 0)

def loopBatch : Nat := 64

variable {Cb Ud : Type*}

/-- A slot of the descriptor table: the callback and its argument, if there is one. -/
abbrev FdRec (Cb Ud : Type*) := Option (Cb × Ud)

/-- The descriptor table of a loop; its length is `cap`. -/
abbrev FdTable (Cb Ud : Type*) := List (FdRec Cb Ud)

def fdRec (fds : FdTable Cb Ud) (fd : Nat) : FdRec Cb Ud := fds[fd]?.join

def fdCap (cap fd : Nat) : Nat :=
  if fd < cap ∨ cap = 0 then cap else fdCap (cap * 2) fd
termination_by fd + 1 - cap

/-- The table `net_loop_add` works on: enlarged, with empty slots, when `fd` is
behind its end. -/
def fdGrow (fds : FdTable Cb Ud) (fd : Nat) : FdTable Cb Ud :=
  if fds.length ≤ fd then
    fds ++ List.replicate (fdCap (if fds.length = 0 then 64 else fds.length) fd - fds.length) none
  else fds

/-- `cb` is none for a null callback; `grown` and `ctl` are the results of
`realloc` and of `EPOLL_CTL_ADD`. -/
def netLoopAdd (fds : FdTable Cb Ud) (fd : Int) (cb : Option Cb) (ud : Ud)
    (grown ctl : Bool) : FdTable Cb Ud × Int :=
  match cb with
  | none => (fds, netErr)
  | some cb =>
    if fd < 0 then (fds, netErr)
    else if fds.length ≤ fd.toNat ∧ !grown then (fds, netErr)
    else if ctl then ((fdGrow fds fd.toNat).set fd.toNat (some (cb, ud)), netOk)
    else (fdGrow fds fd.toNat, netErr)

def netLoopDel (fds : FdTable Cb Ud) (fd : Int) (ctl : Bool) : FdTable Cb Ud × Int :=
  if fd < 0 ∨ (fdRec fds fd.toNat).isNone then (fds, netErr)
  else (fds.set fd.toNat none, if ctl then netOk else netErr)

section Table

variable {fds : FdTable Cb Ud} {fd : Int} {grown ctl : Bool}

theorem fdRec_fdGrow (number fd : Nat) : fdRec (fdGrow fds number) fd = fdRec fds fd := by
  unfold fdGrow
  generalize fdCap _ number - fds.length = extra
  split
  · unfold fdRec
    by_cases inside : fd < fds.length
    · rw [List.getElem?_append_left inside]
    · rw [List.getElem?_append_right (Nat.le_of_not_lt inside), List.getElem?_replicate,
        List.getElem?_eq_none (Nat.le_of_not_lt inside)]
      split <;> rfl
  · rfl

theorem fdRec_set_ne {number other : Nat} {entry : FdRec Cb Ud} (different : other ≠ number) :
    fdRec (fds.set number entry) other = fdRec fds other := by
  unfold fdRec
  rw [List.getElem?_set_ne different.symm]

theorem fdRec_netLoopAdd {other : Nat}
    (spared : (netLoopAdd fds fd cb ud grown ctl).2 = netOk → (other : Int) ≠ fd) :
    fdRec (netLoopAdd fds fd cb ud grown ctl).1 other = fdRec fds other := by
  unfold netLoopAdd at spared ⊢
  cases cb with
  | none => rfl
  | some cb =>
    dsimp only at spared ⊢
    split_ifs at spared ⊢ with negative exhausted taken
    · rfl
    · rfl
    · have different : other ≠ fd.toNat := by
        have := spared rfl
        omega
      rw [fdRec_set_ne different, fdRec_fdGrow]
    · exact fdRec_fdGrow _ _

theorem fdRec_netLoopDel (fds : FdTable Cb Ud) (fd : Int) (ctl : Bool) (other : Nat) :
    fdRec (netLoopDel fds fd ctl).1 other = fdRec fds other ∨
      fdRec (netLoopDel fds fd ctl).1 other = none := by
  unfold netLoopDel
  split
  · exact .inl rfl
  · by_cases same : other = fd.toNat
    · right
      subst same
      unfold fdRec
      rw [List.getElem?_set_self']
      cases fds[fd.toNat]? <;> rfl
    · exact .inl (fdRec_set_ne same)

end Table

/-- An event of a batch that is still to be delivered, with the number of the
registration its descriptor had when `epoll_wait` reported it. -/
structure Pending where
  fd : Nat
  events : UInt32
  since : Option Nat
  deriving DecidableEq, Repr

/-- An event given to a callback, with the number of the registration it was reported
for and that of the callback's own. -/
structure Delivery (Cb Ud : Type*) where
  cb : Cb
  ud : Ud
  fd : Nat
  events : UInt32
  reported : Option Nat
  own : Nat
  deriving DecidableEq, Repr

/-- A loop in the course of its steps. The registrations are numbered, and each
carries its number beside its argument, which the loop does not look at. -/
structure PollRun (Cb Ud : Type*) where
  fds : FdTable Cb (Ud × Nat)
  serial : Nat
  batch : List Pending
  delivered : List (Delivery Cb Ud)

def PollRun.new : PollRun Cb Ud where
  fds := []
  serial := 0
  batch := []
  delivered := []

/-- What happens to the descriptors; what timers and callbacks do comes between
`wait` and the `deliver`s, or between two of these. -/
inductive PollEvent (Cb Ud : Type*) where
  | add (fd : Int) (cb : Option Cb) (ud : Ud) (grown ctl : Bool)
  | mod (fd : Int) (ctl : Bool)
  | del (fd : Int) (ctl : Bool)
  | wait (reported : List (Nat × UInt32))
  | deliver

def PollRun.since (r : PollRun Cb Ud) (fd : Nat) : Option Nat :=
  (fdRec r.fds fd).map fun entry => entry.2.2

def PollRun.deliver (r : PollRun Cb Ud) : PollRun Cb Ud :=
  match r.batch with
  | [] => r
  | event :: rest =>
    match fdRec r.fds event.fd with
    | none => { r with batch := rest }
    | some (cb, ud, own) =>
      { r with
        batch := rest
        delivered := r.delivered ++ [⟨cb, ud, event.fd, epRevents event.events, event.since, own⟩] }

def PollRun.wait (r : PollRun Cb Ud) (reported : List (Nat × UInt32)) : PollRun Cb Ud :=
  match r.batch with
  | [] =>
    { r with
      batch := (reported.take loopBatch).map fun (fd, events) => ⟨fd, events, r.since fd⟩ }
  | _ :: _ => r

def pollStep (r : PollRun Cb Ud) : PollEvent Cb Ud → PollRun Cb Ud
  | .add fd cb ud grown ctl =>
    { r with
      fds := (netLoopAdd r.fds fd cb (ud, r.serial) grown ctl).1
      serial := r.serial + 1 }
  | .mod _ _ => r
  | .del fd ctl => { r with fds := (netLoopDel r.fds fd ctl).1 }
  | .wait reported => r.wait reported
  | .deliver => r.deliver

def OwnEvents (r : PollRun Cb Ud) : Prop :=
  ∀ delivery ∈ r.delivered, ∀ reported, delivery.reported = some reported → reported = delivery.own

/-- A registration that succeeds is not of a number with events still to be
delivered. -/
def NumberDone (r : PollRun Cb Ud) : PollEvent Cb Ud → Prop
  | .add fd cb ud grown ctl => (netLoopAdd r.fds fd cb (ud, r.serial) grown ctl).2 = netOk →
      ∀ event ∈ r.batch, (event.fd : Int) ≠ fd
  | _ => True

/-- The events still to be delivered are of the registrations of their descriptors,
where these still have one. -/
structure Matched (r : PollRun Cb Ud) : Prop where
  own : OwnEvents r
  batch : ∀ event ∈ r.batch, ∀ reported, event.since = some reported →
    ∀ current, r.since event.fd = some current → reported = current

section Steps

variable {r : PollRun Cb Ud}

theorem Matched.wait (matched : Matched r) (reported : List (Nat × UInt32)) :
    Matched (r.wait reported) := by
  unfold PollRun.wait
  split
  · refine ⟨matched.own, ?_⟩
    intro event member number since current now
    obtain ⟨⟨fd, events⟩, _, rfl⟩ := List.mem_map.mp member
    exact Option.some.inj (since.symm.trans now)
  · exact matched

theorem Matched.deliver (matched : Matched r) : Matched r.deliver := by
  unfold PollRun.deliver
  cases pending : r.batch with
  | nil => exact matched
  | cons event rest =>
    have later : ∀ other ∈ rest, ∀ reported, other.since = some reported →
        ∀ current, r.since other.fd = some current → reported = current := by
      intro other member
      apply matched.batch other
      rw [pending]
      exact List.mem_cons_of_mem event member
    dsimp only
    cases there : fdRec r.fds event.fd with
    | none => exact ⟨matched.own, later⟩
    | some entry =>
      refine ⟨?_, later⟩
      intro delivery member reported since
      rcases List.mem_append.mp member with before | now
      · exact matched.own delivery before reported since
      · cases List.mem_singleton.mp now
        apply matched.batch event _ reported since
        · simp only [PollRun.since, there, Option.map_some]
        · rw [pending]
          exact List.mem_cons_self

theorem Matched.pollStep (matched : Matched r) {event : PollEvent Cb Ud}
    (done : NumberDone r event) : Matched (pollStep r event) := by
  cases event with
  | add fd cb ud grown ctl =>
    refine ⟨matched.own, ?_⟩
    intro event member reported since current now
    have spared := fun taken => done taken event member
    simp only [PollRun.since, Net.pollStep, fdRec_netLoopAdd spared] at now
    exact matched.batch event member reported since current now
  | mod fd ctl => exact matched
  | del fd ctl =>
    refine ⟨matched.own, ?_⟩
    intro event member reported since current now
    rcases fdRec_netLoopDel r.fds fd ctl event.fd with same | gone
    · simp only [PollRun.since, Net.pollStep, same] at now
      exact matched.batch event member reported since current now
    · simp only [PollRun.since, Net.pollStep, gone] at now
      cases now
  | wait reported => exact matched.wait reported
  | deliver => exact matched.deliver

end Steps

theorem matched_new : Matched (PollRun.new : PollRun Cb Ud) := by
  constructor
  · intro delivery member
    cases member
  · intro event member
    cases member

/-- As long as no number is registered that has events to be delivered, every
callback gets only events of its own registration. -/
theorem own_events_of_numberDone {events : List (PollEvent Cb Ud)}
    (done : EveryStep pollStep NumberDone PollRun.new events) :
    EveryState pollStep OwnEvents (PollRun.new : PollRun Cb Ud) events := by
  have every : EveryState pollStep Matched PollRun.new events :=
    EveryState.of_step (fun _ _ matched condition => matched.pollStep condition) matched_new done
  exact every.mono fun _ matched => matched.own

def closesOther : List (PollEvent Nat Nat) :=
  [.add 5 (some 1) 0 true true, .add 7 (some 2) 0 true true,
    .wait [(5, epollIn), (7, epollIn)], .deliver, .del 7 true, .deliver]

theorem closesOther_own_events :
    EveryStep pollStep NumberDone PollRun.new closesOther ∧
      EveryState pollStep OwnEvents PollRun.new closesOther := by
  have done : EveryStep pollStep NumberDone PollRun.new closesOther := by
    refine ⟨?_, ?_, trivial, trivial, trivial, trivial, trivial⟩
    · intro _ event member
      cases member
    · intro _ event member
      cases member
  exact ⟨done, own_events_of_numberDone done⟩

/-- The callback of the first also opens a new socket, which gets the same number:
the new callback is given the event of the old one. -/
theorem reused_number_gets_old_event :
    (run pollStep (PollRun.new : PollRun Nat Nat)
        [.add 5 (some 1) 0 true true, .add 7 (some 2) 0 true true,
          .wait [(5, epollIn), (7, epollIn)], .deliver, .del 7 true,
          .add 7 (some 3) 0 true true, .deliver]).delivered =
        [⟨1, 0, 5, netRd, some 0, 0⟩, ⟨3, 0, 7, netRd, some 1, 2⟩] ∧
      ¬ OwnEvents (run pollStep (PollRun.new : PollRun Nat Nat)
        [.add 5 (some 1) 0 true true, .add 7 (some 2) 0 true true,
          .wait [(5, epollIn), (7, epollIn)], .deliver, .del 7 true,
          .add 7 (some 3) 0 true true, .deliver]) := by
  have delivered : (run pollStep (PollRun.new : PollRun Nat Nat)
      [.add 5 (some 1) 0 true true, .add 7 (some 2) 0 true true,
        .wait [(5, epollIn), (7, epollIn)], .deliver, .del 7 true,
        .add 7 (some 3) 0 true true, .deliver]).delivered =
      [⟨1, 0, 5, netRd, some 0, 0⟩, ⟨3, 0, 7, netRd, some 1, 2⟩] := by
    decide +kernel
  refine ⟨delivered, ?_⟩
  intro own
  have second : (⟨3, 0, 7, netRd, some 1, 2⟩ : Delivery Nat Nat) ∈
      (run pollStep (PollRun.new : PollRun Nat Nat)
        [.add 5 (some 1) 0 true true, .add 7 (some 2) 0 true true,
          .wait [(5, epollIn), (7, epollIn)], .deliver, .del 7 true,
          .add 7 (some 3) 0 true true, .deliver]).delivered := by
    rw [delivered]
    simp
  exact absurd (own _ second 1 rfl) (by decide)

end Pro2Call.Net

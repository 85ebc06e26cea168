import Pro2Call.Gtp2.EndpointTables

namespace Pro2Call.Gtp2

open Pro2Call.Data

def SessionState.rank : SessionState → Nat
  | .creating => 0
  | .active => 1
  | .deleting => 2
  | .deleted => 3
  | .failed => 3

def SessionState.Forward (before after : SessionState) : Prop :=
  before = after ∨ before.rank < after.rank

instance (before after : SessionState) : Decidable (before.Forward after) :=
  inferInstanceAs (Decidable (_ ∨ _))

theorem SessionState.Forward.trans {first second third : SessionState}
    (left : first.Forward second) (right : second.Forward third) : first.Forward third := by
  rcases left with rfl | left
  · exact right
  · rcases right with rfl | right
    · exact .inr left
    · exact .inr (left.trans right)

namespace SessionState

variable (state : SessionState)

theorem forward_active : state.Forward .active ↔ state = .creating ∨ state = .active := by
  cases state <;> decide

theorem forward_deleting : state.Forward .deleting ↔ state ≠ .deleted ∧ state ≠ .failed := by
  cases state <;> decide

theorem forward_deleted : state.Forward .deleted ↔ state ≠ .failed := by
  cases state <;> decide

theorem forward_failed : state.Forward .failed ↔ state ≠ .deleted := by
  cases state <;> decide

end SessionState

def MovesForward (before after : Tables) : Prop :=
  ∀ s ∈ before.sessions, ∀ s' ∈ after.sessions, s'.id = s.id → s.state.Forward s'.state

def ResponseInOrder (inet : Inet) (wire : Bytes) (messageType : UInt8)
    (state : SessionState) : Prop :=
  (messageType = mtCreateSessionResponse → ∀ rsp, CreateSessionResponse.decode inet wire = .ok rsp →
      if rsp.cause = causeRequestAccepted then state = .creating ∨ state = .active
      else state ≠ .deleted) ∧
  (messageType = mtDeleteSessionResponse →
    ∀ rsp, DeleteSessionResponse.decode wire = .ok rsp → state ≠ .failed)

/-- A session is deleted before it has ended, a Create Session Response comes
before the session was deleted, and neither a response nor the last timeout
comes to a session that ended the other way. -/
def InOrder (inet : Inet) (e : Endpoint) : EndpointEvent → Prop
  | .deleteSession _ id | .deleteSessionReq _ id _ =>
    ∀ s, e.tables.findSession id = some s → s.state ≠ .deleted ∧ s.state ≠ .failed
  | .datagram _ wire _ _ =>
    ∀ h, responseHdr wire = some h → ∀ t, e.tables.findTxn h.sequence = some t →
      ∀ s, e.tables.sessionByTeid t.sessionTeid = some s →
        ResponseInOrder inet wire h.messageType s.state
  | .timer env id =>
    ∀ timer, Keyed.find T3Timer.id e.tables.timers id = some timer →
      timer.due ≤ env.now → ∀ t, Keyed.find Txn.id e.tables.txns timer.txn = some t →
        e.n3 ≤ t.sends → ∀ s, e.tables.sessionByTeid t.sessionTeid = some s → s.state ≠ .deleted
  | _ => True

theorem forward_answerChange_iff (inet : Inet) (wire : Bytes) (messageType : UInt8) (s : Session) :
    s.state.Forward (answerChange inet wire messageType s).state ↔
      ResponseInOrder inet wire messageType s.state := by
  have same : s.state.Forward s.state := .inl rfl
  have createNotDelete : mtCreateSessionResponse ≠ mtDeleteSessionResponse := by decide
  have modifyNotDelete : mtModifyBearerResponse ≠ mtDeleteSessionResponse := by decide
  unfold answerChange ResponseInOrder
  split_ifs with create modify delete
  · subst create
    cases CreateSessionResponse.decode inet wire with
    | error err => simp [createNotDelete, same]
    | ok rsp =>
      by_cases accepted : rsp.cause = causeRequestAccepted
      · simp [createNotDelete, Session.created_state, accepted, SessionState.forward_active]
      · simp [createNotDelete, Session.created_state, accepted, SessionState.forward_failed]
  · subst modify
    cases ModifyBearerResponse.decode inet wire with
    | error err => simp [create, modifyNotDelete, same]
    | ok rsp => simp [create, modifyNotDelete, Session.modified_state, same]
  · subst delete
    cases DeleteSessionResponse.decode wire with
    | error err => simp [create, same]
    | ok rsp => simp [create, SessionState.forward_deleted]
  · simp [create, delete, same]

variable {change : Session → Session} {e : Endpoint}

namespace Tables.SessionsWf

variable {tables : Tables} (wf : tables.SessionsWf) {after : Tables}

include wf

theorem movesForward_of_old
    (old : ∀ s ∈ after.sessions, s ∈ tables.sessions ∨ tables.fresh ≤ s.id) :
    MovesForward tables after := by
  intro s member s' member' same
  rcases old s' member' with present | new
  · rw [wf.ids.eq_of_key present member same]
    exact .inl rfl
  · have := wf.below s member
    omega

theorem movesForward_update_iff (member : s ∈ tables.sessions) (keeps : KeepsIdentity change)
    (sessions : after.sessions = Keyed.modify Session.id tables.sessions s.id change) :
    MovesForward tables after ↔ s.state.Forward (change s).state := by
  unfold MovesForward
  rw [sessions]
  constructor
  · intro moves
    exact moves s member (change s) ((wf.ids.mem_modify member).mpr (.inr rfl)) (keeps.id s)
  · intro forward other otherMember other' otherMember' same
    rcases (wf.ids.mem_modify member).mp otherMember' with ⟨old, _⟩ | rfl
    · rw [wf.ids.eq_of_key old otherMember same]
      exact .inl rfl
    · rw [keeps.id] at same
      rw [← wf.ids.eq_of_key member otherMember same]
      exact forward

theorem movesForward_updateByTeid_iff {closed : Tables}
    (sessions : closed.sessions = tables.sessions) (byTeid : closed.byTeid = tables.byTeid)
    (teid : UInt32) (keeps : KeepsIdentity change) :
    MovesForward tables (closed.updateByTeid teid change) ↔
      ∀ s, tables.sessionByTeid teid = some s → s.state.Forward (change s).state := by
  have lookup : closed.sessionByTeid teid = tables.sessionByTeid teid := by
    unfold Tables.sessionByTeid Tables.findSession
    rw [sessions, byTeid]
  unfold Tables.updateByTeid
  rw [lookup]
  cases owner : tables.sessionByTeid teid with
  | none =>
    refine iff_of_true (wf.movesForward_of_old ?_) (by simp)
    intro s member
    exact .inl (sessions ▸ member)
  | some s =>
    obtain ⟨_, member, _⟩ := wf.sessionByTeid.mp owner
    rw [wf.movesForward_update_iff member keeps (by simp [Tables.updateSession, sessions])]
    simp

theorem movesForward_expire_iff (env : CallEnv) (t3Ms n3 id : Nat) (t : Txn) :
    MovesForward tables ((tables.cancelTimer id).expire env t3Ms n3 t) ↔
      (n3 ≤ t.sends → ∀ s, tables.sessionByTeid t.sessionTeid = some s → s.state ≠ .deleted) := by
  unfold Tables.expire
  by_cases again : t.sends < n3
  · have moves : ∀ after : Tables, after.sessions = tables.sessions →
        MovesForward tables after := by
      intro after same
      exact wf.movesForward_of_old fun s member => .inl (same ▸ member)
    refine iff_of_true ?_ (fun last => absurd again (Nat.not_lt.mpr last))
    split_ifs <;> exact moves _ rfl
  · rw [if_neg again, wf.movesForward_updateByTeid_iff (by rfl) (by rfl) t.sessionTeid
      (setState_keepsIdentity .failed)]
    simp [Nat.not_lt.mp again, SessionState.forward_failed]

end Tables.SessionsWf

theorem movesForward_deleting_iff (inet : Inet) (wf : e.tables.SessionsWf)
    (env : CallEnv) (member : s ∈ e.tables.sessions)
    (req : DeleteSessionRequest) :
    MovesForward e.tables (outcome.deleting inet e env s req).tables ↔
      s.state ≠ .deleted ∧ s.state ≠ .failed := by
  rw [wf.movesForward_update_iff member (setState_keepsIdentity .deleting)
    (Tables.startTxn_sessions _ _ _ _ _ _ _ _).1]
  exact s.state.forward_deleting

theorem movesForward_outcome_iff (inet : Inet) (wf : e.tables.SessionsWf) (event : EndpointEvent) :
    MovesForward e.tables (outcome inet e event).tables ↔ InOrder inet e event := by
  have unchanged : MovesForward e.tables e.tables :=
    wf.movesForward_of_old fun s member => .inl member
  cases event with
  | createSession env req host port =>
    refine iff_of_true (wf.movesForward_of_old ?_) trivial
    intro s member
    dsimp only [outcome, Endpoint.tables_onTables, Endpoint.tables_withCounters] at member
    rw [(Tables.startTxn_sessions _ _ _ _ _ _ _ _).1] at member
    rcases List.mem_append.mp member with old | new
    · exact .inl old
    · rw [List.mem_singleton.mp new]
      exact .inr le_rfl
  | modifyBearer env id req =>
    refine iff_of_true ?_ trivial
    dsimp only [outcome]
    cases found : e.tables.findSession id with
    | none => exact unchanged
    | some s =>
      obtain ⟨member, _⟩ := wf.findSession.mp found
      exact (wf.movesForward_update_iff member (setModBearers_keepsIdentity req.bearers)
        (Tables.startTxn_sessions _ _ _ _ _ _ _ _).1).mpr (.inl rfl)
  | deleteSession env id | deleteSessionReq env id req =>
    dsimp only [outcome, InOrder]
    cases found : e.tables.findSession id with
    | none => exact iff_of_true unchanged (by simp)
    | some s =>
      obtain ⟨member, _⟩ := wf.findSession.mp found
      rw [movesForward_deleting_iff inet wf env member]
      simp
  | datagram env wire host port =>
    dsimp only [outcome, InOrder]
    cases responseHdr wire with
    | none => exact iff_of_true unchanged (by simp)
    | some h =>
      dsimp only [Endpoint.tables_onTables, Tables.answer]
      cases found : e.tables.findTxn h.sequence with
      | none => exact iff_of_true unchanged (by simp [found])
      | some t =>
        rw [wf.movesForward_updateByTeid_iff (by rfl) (by rfl) t.sessionTeid
          (answerChange_keepsIdentity inet wire h.messageType)]
        simp [found, forward_answerChange_iff]
  | timer env id =>
    dsimp only [outcome, InOrder]
    cases Keyed.find T3Timer.id e.tables.timers id with
    | none => exact iff_of_true unchanged (by simp)
    | some timer =>
      by_cases due : timer.due ≤ env.now
      · cases found : Keyed.find Txn.id e.tables.txns timer.txn with
        | none =>
          simp only [if_pos due, found]
          refine iff_of_true (wf.movesForward_of_old ?_) (by simp [found])
          intro s member
          exact .inl member
        | some t =>
          simp only [if_pos due, found, Endpoint.tables_onTables]
          rw [wf.movesForward_expire_iff]
          simp [found, due]
      · simp [due, unchanged]
  | purge =>
    refine iff_of_true (wf.movesForward_of_old ?_) trivial
    intro s member
    exact .inl (Tables.mem_purge.mp member).1
  | sendEcho env host port | sendRaw env wire host port | setT3Ms ms | setN3 n
  | setRecovery counter | setHandler present | setTxLoop on => exact iff_of_true unchanged trivial

structure Tables.Follows (before after : Tables) : Prop where
  fresh : before.fresh ≤ after.fresh
  kept : ∀ s' ∈ after.sessions, s'.id < before.fresh → ∃ s ∈ before.sessions, s.id = s'.id

theorem Tables.Follows.refl (tables : Tables) : tables.Follows tables :=
  ⟨le_rfl, fun s member _ => ⟨s, member, rfl⟩⟩

theorem Tables.Follows.trans {first second third : Tables} (left : first.Follows second)
    (right : second.Follows third) : first.Follows third := by
  refine ⟨left.fresh.trans right.fresh, ?_⟩
  intro s'' member below
  obtain ⟨s', member', same'⟩ := right.kept s'' member (below.trans_le left.fresh)
  obtain ⟨s, present, same⟩ := left.kept s' member' (same'.trans_lt below)
  exact ⟨s, present, same.trans same'⟩

theorem Tables.Follows.of_ids {before after : Tables} (fresh : before.fresh ≤ after.fresh)
    (ids : after.sessions.map Session.id ⊆ before.sessions.map Session.id) :
    before.Follows after := by
  refine ⟨fresh, ?_⟩
  intro s' member _
  obtain ⟨s, present, same⟩ := List.mem_map.mp (ids (List.mem_map_of_mem member))
  exact ⟨s, present, same⟩

theorem Tables.updateSession_ids (tables : Tables) (keeps : KeepsIdentity change) (id : Nat) :
    (tables.updateSession id change).sessions.map Session.id = tables.sessions.map Session.id :=
  Keyed.map_modify keeps.id

theorem Tables.Follows.updateByTeid {before tables : Tables} (follows : before.Follows tables)
    (keeps : KeepsIdentity change) (teid : UInt32) :
    before.Follows (tables.updateByTeid teid change) := by
  unfold Tables.updateByTeid
  split
  · exact follows
  · refine follows.trans (.of_ids le_rfl ?_)
    rw [tables.updateSession_ids keeps]
    exact List.Subset.refl _

theorem Tables.updateSession_startTxn_follows (tables : Tables) (keeps : KeepsIdentity change)
    (id : Nat)
    (sent : Option Bytes) (due : Nat) (seq : UInt32) (mt : UInt8) (teid : UInt32)
    (host : Bytes) (port : UInt16) :
    tables.Follows ((tables.updateSession id change).startTxn sent due seq mt teid host port) := by
  obtain ⟨sessions, _, fresh⟩ :=
    (tables.updateSession id change).startTxn_sessions sent due seq mt teid host port
  refine .of_ids fresh ?_
  rw [sessions, tables.updateSession_ids keeps]
  exact List.Subset.refl _

theorem Tables.answer_follows (tables : Tables) (inet : Inet) (wire : Bytes)
    (h : Gtp2Hdr) : tables.Follows (tables.answer inet wire h) := by
  unfold answer
  split
  · exact .refl tables
  · refine Follows.updateByTeid ?_ (answerChange_keepsIdentity inet wire h.messageType) _
    exact .of_ids le_rfl (List.Subset.refl _)

theorem Tables.expire_follows (tables : Tables) (env : CallEnv) (t3Ms n3 : Nat) (t : Txn) :
    tables.Follows (tables.expire env t3Ms n3 t) := by
  unfold expire
  split_ifs
  · exact .of_ids (Nat.le_succ _) (List.Subset.refl _)
  · exact .of_ids le_rfl (List.Subset.refl _)
  · exact .refl tables
  · refine Follows.updateByTeid ?_ (setState_keepsIdentity .failed) _
    exact .of_ids le_rfl (List.Subset.refl _)

theorem outcome_follows (inet : Inet) (e : Endpoint) (event : EndpointEvent) :
    e.tables.Follows (outcome inet e event).tables := by
  have cancelled : ∀ id, e.tables.Follows (e.tables.cancelTimer id) := fun id =>
    .of_ids le_rfl (List.Subset.refl _)
  have deleting : ∀ env s req, e.tables.Follows (outcome.deleting inet e env s req).tables := by
    intro env s req
    exact Tables.updateSession_startTxn_follows _ (setState_keepsIdentity .deleting) _ _ _ _ _ _ _ _
  cases event with
  | createSession env req host port =>
    obtain ⟨sessions, _, fresh⟩ := Tables.startTxn_sessions
      (e.tables.addSession (e.fillRequest req).2 host port)
      (transmitted env ((e.fillRequest req).2.encode inet)) (env.now + e.t3Ms)
      (e.fillRequest req).2.sequence mtCreateSessionRequest
      (e.fillRequest req).2.senderFteid.teid host port
    refine ⟨(Nat.le_succ _).trans fresh, ?_⟩
    intro s member below
    dsimp only [outcome, Endpoint.tables_onTables, Endpoint.tables_withCounters] at member
    rw [sessions] at member
    rcases List.mem_append.mp member with old | new
    · exact ⟨s, old, rfl⟩
    · rw [List.mem_singleton.mp new] at below
      exact absurd below (Nat.lt_irrefl _)
  | modifyBearer env id req =>
    dsimp only [outcome]
    split
    · exact .refl _
    · exact Tables.updateSession_startTxn_follows _
        (setModBearers_keepsIdentity req.bearers) _ _ _ _ _ _ _ _
  | deleteSession env id | deleteSessionReq env id req =>
    dsimp only [outcome]
    split
    · exact .refl _
    · exact deleting env _ _
  | datagram env wire host port =>
    dsimp only [outcome]
    split
    · exact .refl _
    · exact Tables.answer_follows _ inet wire _
  | timer env id =>
    dsimp only [outcome]
    split
    · exact .refl _
    · split_ifs
      · split
        · exact cancelled id
        · exact (cancelled id).trans (Tables.expire_follows _ env _ _ _)
      · exact .refl _
  | purge => exact .of_ids le_rfl (List.filter_sublist.map Session.id).subset
  | sendEcho env host port => exact .refl _
  | sendRaw env wire host port => exact .refl _
  | setT3Ms ms => exact .refl _
  | setN3 n => exact .refl _
  | setRecovery counter => exact .refl _
  | setHandler present => exact .refl _
  | setTxLoop on => exact .refl _

theorem endpointStep_follows (inet : Inet) (e : Endpoint) (event : EndpointEvent) :
    e.tables.Follows (endpointStep inet e event).tables := by
  cases defined : e.undefined with
  | true =>
    rw [endpointStep_of_undefined inet defined]
    exact .refl _
  | false =>
    rw [(endpointStep_quiet inet defined event).tables]
    exact outcome_follows inet e event

theorem run_follows (inet : Inet) (e : Endpoint) (events : List EndpointEvent) :
    e.tables.Follows (run (endpointStep inet) e events).tables :=
  run_of_invariant (fun later : Endpoint => e.tables.Follows later.tables)
    (fun later event follows => follows.trans (endpointStep_follows inet later event))
    (.refl _) events

def StepInOrder (inet : Inet) (e : Endpoint) (event : EndpointEvent) : Prop :=
  e.undefined = false → InOrder inet e event

theorem movesForward_endpointStep_iff (inet : Inet)
    (wf : e.tables.SessionsWf) (event : EndpointEvent) :
    MovesForward e.tables (endpointStep inet e event).tables ↔ StepInOrder inet e event := by
  cases defined : e.undefined with
  | true =>
    rw [endpointStep_of_undefined inet defined]
    refine iff_of_true (wf.movesForward_of_old fun s member => .inl member) ?_
    intro defined'
    rw [defined] at defined'
    cases defined'
  | false =>
    rw [(endpointStep_quiet inet defined event).tables, movesForward_outcome_iff inet wf]
    simp [StepInOrder, defined]

/-- The induction is on the run: a session of its first and last states is also
in the second one, since no session comes back. -/
theorem movesForward_run (inet : Inet) (wf : e.tables.WellFormed) (events : List EndpointEvent)
    (inOrder : EveryStep (endpointStep inet) (StepInOrder inet) e events) :
    MovesForward e.tables (run (endpointStep inet) e events).tables := by
  induction events generalizing e with
  | nil => exact wf.sessions.movesForward_of_old fun s member => .inl member
  | cons event rest ih =>
    have first := (movesForward_endpointStep_iff inet wf.sessions event).mpr inOrder.1
    have later := ih (endpointStep_wellFormed inet e event wf) inOrder.2
    intro s member s'' member'' same
    have below : s''.id < (endpointStep inet e event).tables.fresh := by
      rw [same]
      exact (wf.sessions.below s member).trans_le (endpointStep_follows inet e event).fresh
    obtain ⟨s', member', same'⟩ :=
      (run_follows inet (endpointStep inet e event) rest).kept s'' member'' below
    exact (first s member s' member' (same'.trans same)).trans
      (later s' member' s'' member'' same'.symm)

/-- Between any two states of a run the sessions only move forward, exactly when
every step of the run comes in order. -/
theorem sessions_moveForward_iff (inet : Inet) (localHost : Bytes) (localIpv4 : Bool)
    (events : List EndpointEvent) :
    (∀ before between after, events = before ++ between ++ after → MovesForward
        (run (endpointStep inet) (endpointNew localHost localIpv4) before).tables
        (run (endpointStep inet) (endpointNew localHost localIpv4) (before ++ between)).tables) ↔
      EveryStep (endpointStep inet) (StepInOrder inet) (endpointNew localHost localIpv4)
        events := by
  have wf : ∀ events, (run (endpointStep inet) (endpointNew localHost localIpv4)
      events).tables.WellFormed :=
    run_of_invariant (fun e : Endpoint => e.tables.WellFormed)
      (endpointStep_wellFormed inet) (endpointNew_wellFormed localHost localIpv4)
  constructor
  · intro forward
    have prefixes : ∀ before after, events = before ++ after →
        EveryStep (endpointStep inet) (StepInOrder inet)
          (run (endpointStep inet) (endpointNew localHost localIpv4) before) after := by
      intro before after split
      induction after generalizing before with
      | nil => trivial
      | cons event rest ih =>
        have moved := forward before [event] rest (by simp [split])
        rw [run_append] at moved
        refine ⟨(movesForward_endpointStep_iff inet (wf before).sessions event).mp moved, ?_⟩
        have later := ih (before ++ [event]) (by simp [split])
        rwa [run_append] at later
    exact prefixes [] events rfl
  · intro inOrder before between after split
    rw [split, everyStep_append, everyStep_append] at inOrder
    rw [run_append]
    exact movesForward_run inet (wf before) between inOrder.1.2

theorem deleted_session_active_again :
    (runTwoHosts [.createSession .works attach peerAddress 2123,
        .deleteSession .works 1]).tables.sessions.map Session.state = [.deleting] ∧
      (runTwoHosts [.createSession .works attach peerAddress 2123, .deleteSession .works 1,
        .datagram .works (responseWire mtCreateSessionResponse 1 causeRequestAccepted)
          peerAddress 2123]).tables.sessions.map Session.state = [.active] := by
  decide +kernel

def touches (e : Endpoint) : EndpointEvent → Option Nat
  | .createSession _ _ _ _ => some e.tables.fresh
  | .modifyBearer _ id _ | .deleteSession _ id | .deleteSessionReq _ id _ => some id
  | .datagram _ wire _ _ => do
    let h ← responseHdr wire
    let t ← e.tables.findTxn h.sequence
    (e.tables.sessionByTeid t.sessionTeid).map Session.id
  | .timer env id => do
    let timer ← Keyed.find T3Timer.id e.tables.timers id
    let t ← Keyed.find Txn.id e.tables.txns timer.txn
    if timer.due ≤ env.now ∧ e.n3 ≤ t.sends then
      (e.tables.sessionByTeid t.sessionTeid).map Session.id
    else none
  | _ => none

def Tables.Spares (before after : Tables) (touched : Option Nat) : Prop :=
  ∀ s : Session, touched ≠ some s.id → (s ∈ after.sessions ↔ s ∈ before.sessions)

theorem Tables.spares_updateSession {before tables after : Tables} {change : Session → Session}
    (same : tables.sessions = before.sessions) (keeps : KeepsIdentity change) (id : Nat)
    (changed : after.sessions = (tables.updateSession id change).sessions) :
    before.Spares after (some id) := by
  intro s other
  rw [changed, updateSession, Keyed.mem_modify, same]
  grind [keeps.id]

theorem Tables.spares_updateByTeid {before tables : Tables} {change : Session → Session}
    (sessions : tables.sessions = before.sessions) (byTeid : tables.byTeid = before.byTeid)
    (keeps : KeepsIdentity change) (teid : UInt32) :
    before.Spares (tables.updateByTeid teid change)
      ((before.sessionByTeid teid).map Session.id) := by
  have lookup : tables.sessionByTeid teid = before.sessionByTeid teid := by
    unfold Tables.sessionByTeid Tables.findSession
    rw [sessions, byTeid]
  unfold updateByTeid
  rw [lookup]
  cases before.sessionByTeid teid with
  | none => exact fun s _ => by rw [sessions]
  | some s => exact spares_updateSession sessions keeps _ rfl

theorem outcome_spares (inet : Inet) (e : Endpoint) (kept : event ≠ .purge) :
    e.tables.Spares (outcome inet e event).tables (touches e event) := by
  have same : ∀ {touched}, e.tables.Spares e.tables touched := fun _ _ => .rfl
  cases event with
  | createSession env req host port =>
    intro s other
    dsimp only [outcome, Endpoint.tables_onTables, Endpoint.tables_withCounters]
    rw [(Tables.startTxn_sessions _ _ _ _ _ _ _ _).1, Tables.addSession, List.mem_append]
    grind [touches]
  | modifyBearer env id req =>
    dsimp only [outcome]
    cases found : e.tables.findSession id with
    | none => exact same
    | some s =>
      obtain ⟨_, rfl⟩ := Keyed.mem_of_find found
      exact Tables.spares_updateSession rfl (setModBearers_keepsIdentity req.bearers) _
        (Tables.startTxn_sessions _ _ _ _ _ _ _ _).1
  | deleteSession env id | deleteSessionReq env id req =>
    dsimp only [outcome]
    cases found : e.tables.findSession id with
    | none => exact same
    | some s =>
      obtain ⟨_, rfl⟩ := Keyed.mem_of_find found
      exact Tables.spares_updateSession rfl (setState_keepsIdentity .deleting) _
        (Tables.startTxn_sessions _ _ _ _ _ _ _ _).1
  | datagram env wire host port =>
    dsimp only [outcome, touches]
    cases responseHdr wire with
    | none => exact same
    | some h =>
      dsimp only [Endpoint.tables_onTables, Tables.answer, Option.bind_eq_bind, Option.bind_some]
      cases e.tables.findTxn h.sequence with
      | none => exact same
      | some t =>
        exact Tables.spares_updateByTeid (by rfl) (by rfl)
          (answerChange_keepsIdentity inet wire h.messageType) t.sessionTeid
  | timer env id =>
    dsimp only [outcome, touches]
    cases Keyed.find T3Timer.id e.tables.timers id with
    | none => exact same
    | some timer =>
      by_cases due : timer.due ≤ env.now
      swap
      · simpa only [if_neg due] using same
      cases found : Keyed.find Txn.id e.tables.txns timer.txn with
      | none =>
        simp only [found, due, if_true]
        exact same
      | some t =>
        simp only [found, due, if_true, Option.bind_eq_bind, Option.bind_some, true_and]
        dsimp only [Endpoint.tables_onTables, Tables.expire]
        by_cases again : t.sends < e.n3
        · rw [if_pos again]
          split_ifs <;> exact same
        · rw [if_neg again, if_pos (Nat.not_lt.mp again)]
          exact Tables.spares_updateByTeid (by rfl) (by rfl) (setState_keepsIdentity .failed)
            t.sessionTeid
  | purge => exact absurd rfl kept
  | _ => exact same

/-- Sessions do not reach into each other: an event leaves every session alone but
the one it is about, and a purge takes exactly those that have ended. -/
theorem endpointStep_isolates (inet : Inet) (e : Endpoint) (event : EndpointEvent) :
    (event ≠ .purge → ∀ s, touches e event ≠ some s.id →
        (s ∈ (endpointStep inet e event).tables.sessions ↔ s ∈ e.tables.sessions)) ∧
      (e.undefined = false → ∀ s, s ∈ (endpointStep inet e .purge).tables.sessions ↔
        s ∈ e.tables.sessions ∧ s.state ≠ .deleted ∧ s.state ≠ .failed) := by
  cases defined : e.undefined with
  | true =>
    rw [endpointStep_of_undefined inet defined]
    exact ⟨fun _ _ _ => .rfl, fun lost => Bool.noConfusion lost⟩
  | false =>
    constructor
    · intro kept
      rw [(endpointStep_quiet inet defined event).tables]
      exact outcome_spares inet e kept
    · intro _ s
      rw [(endpointStep_quiet inet defined .purge).tables]
      exact Tables.mem_purge

end Pro2Call.Gtp2

import Pro2Call.Gtp2.Outstanding
import Pro2Call.Gtp2.Responses

namespace Pro2Call.Gtp2

open Pro2Call.Data

def SessionState.awaited : SessionState → Option UInt8
  | .creating => some mtCreateSessionRequest
  | .deleting => some mtDeleteSessionRequest
  | _ => none

structure Tables.Guard (tables : Tables) (teid : UInt32) (mt : UInt8) (t : Txn) : Prop where
  outstanding : t ∈ tables.txns
  request : t.mt = mt
  session : t.sessionTeid = teid
  armed : ∃ timer ∈ tables.timers, timer.id = t.timerId ∧ timer.txn = t.id

structure Tables.Guarded (tables : Tables) : Prop where
  resolvable : ∀ s ∈ tables.sessions, (s.localTeid, s.id) ∈ tables.byTeid
  waiting : ∀ s ∈ tables.sessions, ∀ mt ∈ s.state.awaited, ∃ t, tables.Guard s.localTeid mt t

def Tables.Awaited (tables : Tables) (t : Txn) : Prop :=
  ∃ s ∈ tables.sessions, s.localTeid = t.sessionTeid ∧ s.state.awaited = some t.mt

instance (tables : Tables) (t : Txn) : Decidable (tables.Awaited t) :=
  inferInstanceAs (Decidable (∃ s ∈ tables.sessions, _))

def Readable (inet : Inet) (wire : Bytes) (messageType : UInt8) : Prop :=
  (messageType = mtCreateSessionResponse → (CreateSessionResponse.decode inet wire).isOk) ∧
  (messageType = mtDeleteSessionResponse → (DeleteSessionResponse.decode wire).isOk)

instance (inet : Inet) (wire : Bytes) (messageType : UInt8) :
    Decidable (Readable inet wire messageType) :=
  inferInstanceAs (Decidable (_ ∧ _))

def deleteSent (inet : Inet) (e : Endpoint) (env : CallEnv) (s : Session)
    (req : DeleteSessionRequest) : Option Bytes :=
  transmitted env ({ req with teid := s.remoteTeid, sequence := e.nextSeq.2 }.encode inet)

/-- No number is reused, and no call fails between the change of a session and
the transaction that watches over it. -/
def Undisturbed (inet : Inet) (e : Endpoint) (event : EndpointEvent) : Prop :=
  StartsFresh e event ∧
    match event with
    | .createSession env req _ _ =>
      (transmitted env ((e.fillRequest req).2.encode inet)).isSome ∧
        ∀ s ∈ e.tables.sessions, s.localTeid ≠ (e.fillRequest req).2.senderFteid.teid
    | .deleteSession env id =>
      ∀ s ∈ e.tables.findSession id,
        (deleteSent inet e env s { linkedEbi := s.defaultEbi.toNat }).isSome
    | .deleteSessionReq env id req =>
      ∀ s ∈ e.tables.findSession id, (deleteSent inet e env s req).isSome
    | .datagram _ wire _ _ =>
      ∀ h ∈ responseHdr wire, ∀ t ∈ e.tables.findTxn h.sequence, e.tables.Awaited t →
        answerTo t.mt = some h.messageType ∧ Readable inet wire h.messageType
    | .timer env id =>
      ∀ timer ∈ Keyed.find T3Timer.id e.tables.timers id, timer.due ≤ env.now →
        ∀ t ∈ Keyed.find Txn.id e.tables.txns timer.txn, t.sends < e.n3 →
          e.tables.Awaited t → env.send = .sent ∧ env.arm
    | _ => True

instance (inet : Inet) (e : Endpoint) (event : EndpointEvent) :
    Decidable (Undisturbed inet e event) :=
  match event with
  | .createSession _ _ _ _ => inferInstanceAs (Decidable (_ ∧ _ ∧ _))
  | .modifyBearer _ _ _ => inferInstanceAs (Decidable (_ ∧ True))
  | .deleteSession _ _ => inferInstanceAs (Decidable (_ ∧ ∀ s ∈ _, _))
  | .deleteSessionReq _ _ _ => inferInstanceAs (Decidable (_ ∧ ∀ s ∈ _, _))
  | .datagram _ _ _ _ => inferInstanceAs (Decidable (_ ∧ ∀ h ∈ _, ∀ t ∈ _, _))
  | .timer _ _ => inferInstanceAs (Decidable (_ ∧ ∀ timer ∈ _, _ → ∀ t ∈ _, _))
  | .sendEcho _ _ _ => inferInstanceAs (Decidable (_ ∧ True))
  | .sendRaw _ _ _ _ => inferInstanceAs (Decidable (_ ∧ True))
  | .purge => inferInstanceAs (Decidable (_ ∧ True))
  | .setT3Ms _ => inferInstanceAs (Decidable (_ ∧ True))
  | .setN3 _ => inferInstanceAs (Decidable (_ ∧ True))
  | .setRecovery _ => inferInstanceAs (Decidable (_ ∧ True))
  | .setHandler _ => inferInstanceAs (Decidable (_ ∧ True))
  | .setTxLoop _ => inferInstanceAs (Decidable (_ ∧ True))

namespace Tables

variable {tables : Tables} {teid : UInt32} {mt : UInt8} {t : Txn}

theorem Waits.guard (waits : tables.Waits t due) : tables.Guard t.sessionTeid t.mt t :=
  ⟨waits.outstanding, rfl, rfl, _, waits.armed, rfl, rfl⟩

theorem Guard.mono (guard : tables.Guard teid mt t) {other : Tables}
    (kept : ∀ due, tables.Waits t due → other.Waits t due) : other.Guard teid mt t := by
  obtain ⟨outstanding, rfl, rfl, ⟨_, _, due⟩, timerMember, rfl, rfl⟩ := guard
  exact (kept due ⟨outstanding, timerMember⟩).guard

theorem guard_started (tables : Tables) {sent : Option Bytes} (starts : sent.isSome)
    (due : Nat) (seq : UInt32) (host : Bytes) (port : UInt16) :
    ∃ t, (tables.startTxn sent due seq mt teid host port).Guard teid mt t := by
  obtain ⟨wire, rfl⟩ := Option.isSome_iff_exists.mp starts
  exact ⟨_, (tables.waits_started wire due seq mt teid host port).guard⟩

theorem Guard.expire (guard : tables.Guard teid mt t) (wf : tables.TxnsWf)
    {fired : T3Timer} (firedMember : fired ∈ tables.timers) {expired : Txn}
    (member : expired ∈ tables.txns) (owner : expired.id = fired.txn) (other : t ≠ expired)
    (env : CallEnv) (t3Ms n3 : Nat) :
    ((tables.cancelTimer fired.id).expire env t3Ms n3 expired).Guard teid mt t := by
  have apart : t.id ≠ expired.id := fun same =>
    other (wf.ids.eq_of_key guard.outstanding member same)
  exact guard.mono fun _ waits => waits.expire wf firedMember member owner apart env t3Ms n3

theorem Guarded.sessionByTeid (guarded : tables.Guarded) (wf : tables.SessionsWf)
    (member : s ∈ tables.sessions) :
    tables.sessionByTeid s.localTeid = some s :=
  wf.sessionByTeid.mpr ⟨guarded.resolvable s member, member, rfl⟩

theorem Guarded.close (guarded : tables.Guarded) (wf : tables.SessionsWf) {ended : Txn}
    {closed : Tables} (sessions : closed.sessions = tables.sessions)
    (byTeid : closed.byTeid = tables.byTeid)
    (guards : ∀ teid mt t, tables.Guard teid mt t → t ≠ ended → closed.Guard teid mt t)
    (keeps : KeepsIdentity change)
    (settles : ∀ s ∈ tables.sessions, s.localTeid = ended.sessionTeid →
      ∀ mt ∈ (change s).state.awaited, mt ∈ s.state.awaited ∧ mt ≠ ended.mt) :
    (closed.updateByTeid ended.sessionTeid change).Guarded := by
  have lookup : closed.sessionByTeid ended.sessionTeid =
      tables.sessionByTeid ended.sessionTeid := by
    unfold Tables.sessionByTeid Tables.findSession
    rw [sessions, byTeid]
  obtain ⟨txns, timers⟩ := closed.updateByTeid_same ended.sessionTeid change
  have kept : ∀ s ∈ tables.sessions, tables.sessionByTeid ended.sessionTeid ≠ some s →
      ∀ mt ∈ s.state.awaited,
        ∃ t, (closed.updateByTeid ended.sessionTeid change).Guard s.localTeid mt t := by
    intro s member apart mt waits
    obtain ⟨t, guard⟩ := guarded.waiting s member mt waits
    refine ⟨t, (guards _ _ _ guard ?_).mono fun _ waits => waits.of_same txns timers⟩
    rintro rfl
    rw [guard.session] at apart
    exact apart (guarded.sessionByTeid wf member)
  cases owner : tables.sessionByTeid ended.sessionTeid with
  | none =>
    have unchanged : closed.updateByTeid ended.sessionTeid change = closed := by
      simp [Tables.updateByTeid, lookup, owner]
    constructor
    · rw [unchanged, sessions, byTeid]
      exact guarded.resolvable
    · intro s member
      rw [unchanged, sessions] at member
      exact kept s member (by simp [owner])
  | some session =>
    obtain ⟨_, sessionMember, sameTeid⟩ := wf.sessionByTeid.mp owner
    have changed : closed.updateByTeid ended.sessionTeid change =
        closed.updateSession session.id change := by
      simp [Tables.updateByTeid, lookup, owner]
    have members : ∀ s ∈ (closed.updateByTeid ended.sessionTeid change).sessions,
        (s ∈ tables.sessions ∧ s.id ≠ session.id) ∨ s = change session := by
      intro s member
      rw [changed] at member
      dsimp only [Tables.updateSession] at member
      rw [sessions] at member
      exact (wf.ids.mem_modify sessionMember).mp member
    constructor
    · intro s member
      have entries : (closed.updateByTeid ended.sessionTeid change).byTeid = tables.byTeid := by
        rw [changed]
        exact byTeid
      rw [entries]
      rcases members s member with ⟨old, _⟩ | rfl
      · exact guarded.resolvable s old
      · rw [keeps.id, keeps.localTeid]
        exact guarded.resolvable session sessionMember
    · intro s member mt waits
      rcases members s member with ⟨old, apart⟩ | rfl
      · refine kept s old ?_ mt waits
        rw [owner]
        intro same
        exact apart (congrArg Session.id (Option.some.inj same).symm)
      · obtain ⟨before, other⟩ := settles session sessionMember sameTeid mt waits
        obtain ⟨t, guard⟩ := guarded.waiting session sessionMember mt before
        rw [keeps.localTeid]
        refine ⟨t, (guards _ _ _ guard ?_).mono fun _ waits => waits.of_same txns timers⟩
        rintro rfl
        exact other guard.request.symm

theorem Guarded.of_guards (guarded : tables.Guarded) {other : Tables}
    (sessions : other.sessions = tables.sessions) (byTeid : other.byTeid = tables.byTeid)
    (guards : ∀ s ∈ tables.sessions, ∀ mt ∈ s.state.awaited, ∀ t,
      tables.Guard s.localTeid mt t → ∃ t', other.Guard s.localTeid mt t') :
    other.Guarded := by
  constructor
  · rw [sessions, byTeid]
    exact guarded.resolvable
  · rw [sessions]
    intro s member mt waits
    obtain ⟨t, guard⟩ := guarded.waiting s member mt waits
    exact guards s member mt waits t guard

theorem Guarded.request (guarded : tables.Guarded) (wf : tables.SessionsWf)
    (member : s ∈ tables.sessions) (keeps : KeepsIdentity change)
    (unused : ∀ t ∈ tables.txns, t.seq ≠ seq) (sent : Option Bytes) (due : Nat)
    (request : UInt8) (host : Bytes) (port : UInt16)
    (watched : ∀ mt ∈ (change s).state.awaited,
      mt ∈ s.state.awaited ∨ (mt = request ∧ sent.isSome)) :
    ((tables.updateSession s.id change).startTxn sent due seq request s.localTeid host
      port).Guarded := by
  obtain ⟨sessions, byTeid, _⟩ := (tables.updateSession s.id change).startTxn_sessions sent
    due seq request s.localTeid host port
  constructor
  · rw [sessions, byTeid]
    intro other otherMember
    rcases (wf.ids.mem_modify member).mp otherMember with ⟨old, _⟩ | rfl
    · exact guarded.resolvable other old
    · rw [keeps.id, keeps.localTeid]
      exact guarded.resolvable s member
  · rw [sessions]
    intro other otherMember mt waits
    have kept : ∀ teid t, tables.Guard teid mt t →
        ∃ t, ((tables.updateSession s.id change).startTxn sent due seq request s.localTeid
          host port).Guard teid mt t := by
      intro teid t guard
      exact ⟨t, guard.mono fun _ waits => waits.startTxn (by rfl) (by rfl) unused _ _ _ _ _ _⟩
    rcases (wf.ids.mem_modify member).mp otherMember with ⟨old, _⟩ | rfl
    · obtain ⟨t, guard⟩ := guarded.waiting other old mt waits
      exact kept _ t guard
    · rw [keeps.localTeid]
      rcases watched mt waits with before | ⟨rfl, starts⟩
      · obtain ⟨t, guard⟩ := guarded.waiting s member mt before
        exact kept _ t guard
      · exact guard_started _ starts due seq host port

theorem Guarded.create (guarded : tables.Guarded) (wf : tables.SessionsWf)
    (req : CreateSessionRequest) (host : Bytes) (port : UInt16)
    (unused : ∀ t ∈ tables.txns, t.seq ≠ req.sequence)
    (unclaimed : ∀ s ∈ tables.sessions, s.localTeid ≠ req.senderFteid.teid)
    {sent : Option Bytes} (starts : sent.isSome) (due : Nat) :
    ((tables.addSession req host port).startTxn sent due req.sequence
      mtCreateSessionRequest req.senderFteid.teid host port).Guarded := by
  obtain ⟨sessions, byTeid, _⟩ := (tables.addSession req host port).startTxn_sessions sent
    due req.sequence mtCreateSessionRequest req.senderFteid.teid host port
  have absent : Keyed.find Prod.fst tables.byTeid req.senderFteid.teid = none := by
    refine Keyed.find_eq_none.mpr ?_
    intro entry entryMember same
    obtain ⟨s, member, _, sameTeid⟩ := wf.owned entry entryMember
    exact unclaimed s member (sameTeid.trans same)
  have entries : (tables.addSession req host port).byTeid =
      tables.byTeid ++ [(req.senderFteid.teid, tables.fresh)] := by
    simp [Tables.addSession, absent]
  constructor
  · rw [sessions, byTeid, entries]
    intro s member
    rcases List.mem_append.mp member with old | new
    · exact List.mem_append_left _ (guarded.resolvable s old)
    · rw [List.mem_singleton.mp new]
      exact List.mem_append_right _ (List.mem_singleton_self _)
  · rw [sessions]
    intro s member mt waits
    rcases List.mem_append.mp member with old | new
    · obtain ⟨t, guard⟩ := guarded.waiting s old mt waits
      exact ⟨t, guard.mono fun _ waits => waits.startTxn (by rfl) (by rfl) unused _ _ _ _ _ _⟩
    · rw [List.mem_singleton.mp new] at waits ⊢
      obtain rfl : mtCreateSessionRequest = mt := Option.some.inj waits
      exact guard_started _ starts due req.sequence host port

theorem Guarded.purge (guarded : tables.Guarded) (wf : tables.SessionsWf) :
    tables.purge.Guarded := by
  constructor
  · intro s member
    obtain ⟨old, alive, unfailed⟩ := mem_purge.mp member
    refine mem_purge_byTeid.mpr ⟨guarded.resolvable s old, ?_⟩
    intro victim victimMember dead _ same
    rw [wf.ids.eq_of_key victimMember old same] at dead
    exact dead.elim alive unfailed
  · intro s member mt waits
    obtain ⟨t, guard⟩ := guarded.waiting s (mem_purge.mp member).1 mt waits
    exact ⟨t, guard.mono fun _ waits => waits.of_same rfl rfl⟩

end Tables

theorem SessionState.awaited_ne_modify {state : SessionState} {mt : UInt8}
    (waits : mt ∈ state.awaited) : mt ≠ mtModifyBearerRequest := by
  cases state <;> cases waits <;> decide

theorem answerChange_settles {messageType request : UInt8}
    (answers : answerTo request = some messageType)
    (readable : Readable inet wire messageType) (s : Session) :
    ∀ mt ∈ (answerChange inet wire messageType s).state.awaited,
      mt ∈ s.state.awaited ∧ mt ≠ request := by
  intro mt waits
  unfold answerTo at answers
  split_ifs at answers with create modify delete
  · obtain rfl := Option.some.inj answers
    obtain ⟨rsp, decoded⟩ := exists_of_isOk (readable.1 rfl)
    rw [answerChange_create_state decoded] at waits
    split_ifs at waits <;> cases waits
  · obtain rfl := Option.some.inj answers
    rw [answerChange_modify_state] at waits
    exact ⟨waits, modify ▸ SessionState.awaited_ne_modify waits⟩
  · obtain rfl := Option.some.inj answers
    obtain ⟨rsp, decoded⟩ := exists_of_isOk (readable.2 rfl)
    rw [answerChange_delete_state decoded] at waits
    cases waits

theorem answerChange_awaited {messageType mt : UInt8}
    (waits : mt ∈ (answerChange inet wire messageType s).state.awaited) : mt ∈ s.state.awaited := by
  revert waits
  unfold answerChange
  split_ifs
  · cases CreateSessionResponse.decode inet wire with
    | error err => exact id
    | ok rsp =>
      intro waits
      rw [Session.created_state] at waits
      split_ifs at waits <;> cases waits
  · cases ModifyBearerResponse.decode inet wire with
    | error err => exact id
    | ok rsp =>
      rw [Session.modified_state]
      exact id
  · cases DeleteSessionResponse.decode wire with
    | error err => exact id
    | ok rsp =>
      intro waits
      cases waits
  · exact id

theorem Tables.Guarded.answer {tables : Tables} (guarded : tables.Guarded)
    (wf : tables.WellFormed) {inet : Inet} {wire : Bytes} {h : Gtp2Hdr}
    (answered : ∀ t ∈ tables.findTxn h.sequence, tables.Awaited t →
      answerTo t.mt = some h.messageType ∧ Readable inet wire h.messageType) :
    (tables.answer inet wire h).Guarded := by
  unfold Tables.answer
  cases found : tables.findTxn h.sequence with
  | none => exact guarded
  | some t =>
    obtain ⟨member, same⟩ := wf.txns.findTxn.mp found
    rw [← same]
    refine guarded.close wf.sessions (by rfl) (by rfl)
      (fun teid mt t guard other => guard.mono fun _ waits => waits.close wf.txns member other)
      (answerChange_keepsIdentity inet wire h.messageType) ?_
    intro s sessionMember sameTeid mt waits
    refine ⟨answerChange_awaited waits, ?_⟩
    rintro rfl
    -- The session waited for this answer, and no longer does.
    obtain ⟨answers, readable⟩ :=
      answered t found ⟨s, sessionMember, sameTeid, answerChange_awaited waits⟩
    exact (answerChange_settles answers readable s _ waits).2 rfl

theorem Tables.Guarded.expire {tables : Tables} (guarded : tables.Guarded)
    (wf : tables.WellFormed) {fired : T3Timer} (firedMember : fired ∈ tables.timers)
    {t : Txn} (member : t ∈ tables.txns) (owner : t.id = fired.txn) {env : CallEnv}
    {n3 : Nat} (works : t.sends < n3 → tables.Awaited t → env.send = .sent ∧ env.arm) (t3Ms : Nat) :
    ((tables.cancelTimer fired.id).expire env t3Ms n3 t).Guarded := by
  by_cases again : t.sends < n3
  · have sessions : ((tables.cancelTimer fired.id).expire env t3Ms n3 t).sessions =
        tables.sessions ∧
        ((tables.cancelTimer fired.id).expire env t3Ms n3 t).byTeid = tables.byTeid := by
      unfold Tables.expire
      rw [if_pos again]
      split_ifs <;> exact ⟨rfl, rfl⟩
    refine guarded.of_guards sessions.1 sessions.2 ?_
    intro s sessionMember mt waits guardian guard
    by_cases other : guardian = t
    · subst other
      have awaited : tables.Awaited guardian :=
        ⟨s, sessionMember, guard.session.symm, guard.request.symm ▸ waits⟩
      have resent := Tables.Waits.resendTxn wf.txns member fired.id (env.now + t3Ms)
      rw [Tables.expire, if_pos again, if_pos (works again awaited).1,
        if_pos (works again awaited).2, ← guard.request, ← guard.session]
      exact ⟨_, resent.guard⟩
    · exact ⟨guardian, guard.expire wf.txns firedMember member owner other env t3Ms n3⟩
  · unfold Tables.expire
    rw [if_neg again]
    refine guarded.close wf.sessions (by rfl) (by rfl) ?_ (setState_keepsIdentity .failed) ?_
    · intro teid mt guardian guard other
      have handle := (wf.txns.linked fired firedMember t member).mp owner
      rw [← handle]
      exact guard.mono fun _ waits => waits.close wf.txns member other
    · intro s _ _ mt waits
      cases waits

theorem outcome_guarded (inet : Inet) {e : Endpoint} (sound : e.Sound)
    (guarded : e.tables.Guarded) (undisturbed : Undisturbed inet e event) :
    (outcome inet e event).tables.Guarded := by
  have wf := sound.wellFormed
  obtain ⟨fresh, fine⟩ := undisturbed
  have deleting : ∀ env s req, s ∈ e.tables.sessions →
      (∀ t ∈ e.tables.txns, t.seq ≠ e.nextSeq.2) → (deleteSent inet e env s req).isSome →
      (outcome.deleting inet e env s req).tables.Guarded := by
    intro env s req member unused sent
    refine guarded.request wf.sessions member (setState_keepsIdentity .deleting) unused _ _ _ _ _ ?_
    intro mt waits
    exact .inr ⟨(Option.some.inj waits).symm, sent⟩
  cases event with
  | createSession env req host port =>
    exact guarded.create wf.sessions _ host port (fresh.unused rfl) fine.2 fine.1 _
  | modifyBearer env id req =>
    dsimp only [outcome]
    cases found : e.tables.findSession id with
    | none => exact guarded
    | some s =>
      exact guarded.request wf.sessions (wf.sessions.findSession.mp found).1
        (setModBearers_keepsIdentity req.bearers) (fresh.unused (Option.mem_map_of_mem _ found))
        _ _ _ _ _ (fun mt waits => .inl waits)
  | deleteSession env id | deleteSessionReq env id req =>
    dsimp only [outcome]
    cases found : e.tables.findSession id with
    | none => exact guarded
    | some s =>
      exact deleting env s _ (wf.sessions.findSession.mp found).1
        (fresh.unused (Option.mem_map_of_mem _ found)) (fine s found)
  | datagram env wire host port =>
    dsimp only [outcome]
    cases response : responseHdr wire with
    | none => exact guarded
    | some h => exact guarded.answer wf (fine h response)
  | timer env id =>
    dsimp only [outcome]
    cases armed : Keyed.find T3Timer.id e.tables.timers id with
    | none => exact guarded
    | some timer =>
      have timerFine := fine timer armed
      obtain ⟨timerMember, rfl⟩ := Keyed.mem_of_find armed
      dsimp only
      split_ifs with due
      · cases found : Keyed.find Txn.id e.tables.txns timer.txn with
        | none =>
          obtain ⟨t, member, owner⟩ := sound.live timer timerMember
          exact absurd owner (Keyed.find_eq_none.mp found t member)
        | some t =>
          obtain ⟨member, owner⟩ := Keyed.mem_of_find found
          exact guarded.expire wf timerMember member owner (timerFine due t found) _
      · exact guarded
  | purge => exact guarded.purge wf.sessions
  | sendEcho env host port => exact guarded
  | sendRaw env wire host port => exact guarded
  | setT3Ms ms => exact guarded
  | setN3 n => exact guarded
  | setRecovery counter => exact guarded
  | setHandler present => exact guarded
  | setTxLoop on => exact guarded

def expireTxn (inet : Inet) (txn : Nat) (e : Endpoint) : Endpoint :=
  match Keyed.find T3Timer.txn e.tables.timers txn with
  | none => e
  | some timer => endpointStep inet e (.timer ⟨.sent, true, timer.due⟩ timer.id)

theorem expireTxn_eq (inet : Inet) {e : Endpoint} {t : Txn}
    (armed : ∃ timer ∈ e.tables.timers, timer.txn = t.id) :
    ∃ timer ∈ e.tables.timers, timer.txn = t.id ∧
      expireTxn inet t.id e = endpointStep inet e (.timer ⟨.sent, true, timer.due⟩ timer.id) := by
  obtain ⟨timer, member, owner⟩ := armed
  cases found : Keyed.find T3Timer.txn e.tables.timers t.id with
  | none => exact absurd owner (Keyed.find_eq_none.mp found timer member)
  | some timer =>
    obtain ⟨member, owner⟩ := Keyed.mem_of_find found
    exact ⟨timer, member, owner, by simp [expireTxn, found]⟩

section Expiry

variable {e : Endpoint} (sound : e.Sound) {timer : T3Timer}
  (timerMember : timer ∈ e.tables.timers) {t : Txn} (member : t ∈ e.tables.txns)
  (owner : timer.txn = t.id) (env : CallEnv) (due : timer.due ≤ env.now)

include sound timerMember member owner due

theorem fireTimer_eq :
    e.fireTimer env timer.id =
      (e.onTables fun tables => tables.cancelTimer timer.id).onTxnTimer env t := by
  have wf := sound.wellFormed.txns
  have armed : Keyed.find T3Timer.id e.tables.timers timer.id = some timer :=
    wf.timerIds.find_eq_some.mpr ⟨timerMember, rfl⟩
  have found : Keyed.find Txn.id e.tables.txns timer.txn = some t :=
    wf.ids.find_eq_some.mpr ⟨member, owner.symm⟩
  unfold Endpoint.fireTimer
  rw [armed]
  dsimp only
  rw [if_pos due]
  dsimp only [Endpoint.tables_onTables, Tables.cancelTimer]
  rw [found]

theorem timer_step_eq (inet : Inet) :
    endpointStep inet e (.timer env timer.id) =
      .settle ((e.onTables fun tables => tables.cancelTimer timer.id).onTxnTimer env t) := by
  rw [← fireTimer_eq sound timerMember member owner env due]
  simp [endpointStep, sound.defined]

theorem timer_step_quiet (inet : Inet) :
    (e.onTables fun tables => (tables.cancelTimer timer.id).expire env e.t3Ms e.n3 t).Quiet
      (endpointStep inet e (.timer env timer.id)) := by
  rw [timer_step_eq sound timerMember member owner env due]
  exact (Endpoint.onTxnTimer_quiet (e.onTables fun tables => tables.cancelTimer timer.id)
    env t).trans (Endpoint.settle_quiet _)

theorem resend_log (inet : Inet) (again : t.sends < e.n3) (sends : env.send = .sent)
    (arms : env.arm = true) :
    (endpointStep inet e (.timer env timer.id)).log = e.log ++ [.sent t.wire t.host t.port] := by
  rw [timer_step_eq sound timerMember member owner env due]
  simp [Endpoint.onTxnTimer, Endpoint.onTables, Endpoint.sendTo, Endpoint.settle, Endpoint.emit,
    again, sends, arms]

theorem timeout_log (inet : Inet) (last : e.n3 ≤ t.sends)
    (session : e.tables.sessionByTeid t.sessionTeid = some s) :
    (endpointStep inet e (.timer env timer.id)).log =
      e.log ++ if e.handler then [.called (.timeout s.id t.mt)] else [] := by
  have spent : ¬ t.sends < (e.onTables fun tables => tables.cancelTimer timer.id).n3 :=
    Nat.not_lt.mpr last
  have found : ((e.tables.cancelTimer timer.id).eraseTxn t.seq).sessionByTeid
      t.sessionTeid = some s := session
  rw [timer_step_eq sound timerMember member owner env due]
  unfold Endpoint.onTxnTimer
  rw [if_neg spent]
  dsimp only [Endpoint.tables_onTables]
  rw [found]
  cases handler : e.handler <;>
    simp [Endpoint.settle, Endpoint.call, Endpoint.emit, Endpoint.onTables, handler]

end Expiry

/-- An armed transaction whose session is known ends in its timeout, when its timer
goes on expiring and nothing else happens. The induction is on the transmissions
left. -/
theorem timeout_of_expiries (inet : Inet) {e : Endpoint} (sound : e.Sound)
    (handler : e.handler = true) {t : Txn} (member : t ∈ e.tables.txns)
    (armed : ∃ timer ∈ e.tables.timers, timer.txn = t.id)
    (session : e.tables.sessionByTeid t.sessionTeid = some s) :
    ∃ n, ((expireTxn inet t.id)^[n + 1] e).log = e.log ++
      (List.replicate n (.sent t.wire t.host t.port) ++ [.called (.timeout s.id t.mt)]) := by
  obtain ⟨left, count⟩ : ∃ left, e.n3 - t.sends = left := ⟨_, rfl⟩
  induction left generalizing e t with
  | zero =>
    obtain ⟨timer, timerMember, owner, expired⟩ := expireTxn_eq inet armed
    refine ⟨0, ?_⟩
    rw [Nat.zero_add, Function.iterate_one, expired, timeout_log sound timerMember member owner _
      le_rfl inet (Nat.sub_eq_zero_iff_le.mp count) session, if_pos handler]
    rfl
  | succ left ih =>
    obtain ⟨timer, timerMember, owner, expired⟩ := expireTxn_eq inet armed
    have again : t.sends < e.n3 := by omega
    have quiet := timer_step_quiet sound timerMember member owner
      ⟨.sent, true, timer.due⟩ le_rfl inet
    rw [← expired] at quiet
    have tables : (expireTxn inet t.id e).tables =
        (e.tables.cancelTimer timer.id).resendTxn (timer.due + e.t3Ms) t.id := by
      rw [quiet.tables]
      simp [Tables.expire, again]
    have resent : { t with sends := t.sends + 1, timerId := e.tables.fresh } ∈
        (expireTxn inet t.id e).tables.txns := by
      rw [tables]
      exact (sound.wellFormed.txns.ids.mem_modify member).mpr (.inr rfl)
    have rearmed : ∃ timer ∈ (expireTxn inet t.id e).tables.timers, timer.txn = t.id := by
      rw [tables]
      exact ⟨_, List.mem_append_right _ (List.mem_singleton_self _), rfl⟩
    have next : (expireTxn inet t.id e).Sound := by
      rw [expired]
      exact sound.step inet fun t _ started => by cases started
    obtain ⟨n, reported⟩ := ih next (quiet.handler.trans handler) resent rearmed
      (by rw [tables]; exact session) (by
        show (expireTxn inet t.id e).n3 - (t.sends + 1) = left
        rw [show (expireTxn inet t.id e).n3 = e.n3 from quiet.n3]
        omega)
    have logged := resend_log sound timerMember member owner ⟨.sent, true, timer.due⟩ le_rfl inet
      again rfl rfl
    rw [← expired] at logged
    refine ⟨n + 1, reported.trans ?_⟩
    rw [logged, List.append_assoc]
    rfl

/-- Every session that waits has an outstanding transaction with its timer armed,
and when that timer goes on expiring the request is sent again and then the wait
ends in `on_timeout`. -/
def Endpoint.WaitsGuarded (inet : Inet) (e : Endpoint) : Prop :=
  e.undefined = false ∧ ∀ s ∈ e.tables.sessions, s.state = .creating ∨ s.state = .deleting →
      ∃ t ∈ e.tables.txns, t.sessionTeid = s.localTeid ∧
        (∃ timer ∈ e.tables.timers, timer.id = t.timerId ∧ timer.txn = t.id) ∧
        (e.handler = true → ∃ n, ((expireTxn inet t.id)^[n + 1] e).log = e.log ++
          (List.replicate n (.sent t.wire t.host t.port) ++ [.called (.timeout s.id t.mt)]))

theorem Tables.Guarded.waits {e : Endpoint} (guarded : e.tables.Guarded)
    (sound : e.Sound) : e.WaitsGuarded inet := by
  refine ⟨sound.defined, ?_⟩
  intro s member waiting
  obtain ⟨mt, waits⟩ : ∃ mt, mt ∈ s.state.awaited := by
    rcases waiting with state | state <;> rw [state]
    · exact ⟨_, rfl⟩
    · exact ⟨_, rfl⟩
  obtain ⟨t, guard⟩ := guarded.waiting s member mt waits
  refine ⟨t, guard.outstanding, guard.session, guard.armed, ?_⟩
  intro handler
  obtain ⟨timer, timerMember, _, owner⟩ := guard.armed
  refine timeout_of_expiries inet sound handler guard.outstanding ⟨timer, timerMember, owner⟩ ?_
  rw [guard.session]
  exact guarded.sessionByTeid sound.wellFormed.sessions member

theorem endpointStep_guarded (inet : Inet) {e : Endpoint} (sound : e.Sound)
    (guarded : e.tables.Guarded) (undisturbed : Undisturbed inet e event) :
    (endpointStep inet e event).tables.Guarded := by
  rw [(endpointStep_quiet inet sound.defined event).tables]
  exact outcome_guarded inet sound guarded undisturbed

theorem everyState_waitsGuarded (inet : Inet) (localHost : Bytes) (localIpv4 : Bool)
    {events : List EndpointEvent}
    (undisturbed : EveryStep (endpointStep inet) (Undisturbed inet)
      (endpointNew localHost localIpv4) events) :
    EveryState (endpointStep inet) (Endpoint.WaitsGuarded inet)
      (endpointNew localHost localIpv4) events := by
  have kept : EveryState (endpointStep inet)
      (fun e => e.Sound ∧ e.tables.Guarded) (endpointNew localHost localIpv4) events := by
    refine EveryState.of_step ?_ ⟨endpointNew_sound localHost localIpv4, ?_⟩ undisturbed
    · rintro e event ⟨sound, guarded⟩ fine
      exact ⟨sound.step inet fine.1, endpointStep_guarded inet sound guarded fine⟩
    · constructor <;> simp [endpointNew]
  refine kept.mono ?_
  rintro e ⟨sound, guarded⟩
  exact guarded.waits sound

theorem attach_detach_waitsGuarded :
    EveryState (endpointStep twoHosts) (Endpoint.WaitsGuarded twoHosts)
      (endpointNew localAddress true)
      [.setHandler true, .createSession .works attach peerAddress 2123,
        .datagram .works (responseWire mtCreateSessionResponse 1 causeRequestAccepted)
          peerAddress 2123,
        .deleteSession .works 1,
        .datagram .works (responseWire mtDeleteSessionResponse 2 causeRequestAccepted)
          peerAddress 2123] :=
  everyState_waitsGuarded twoHosts localAddress true
    ⟨by decide, by decide +kernel, by decide +kernel, by decide +kernel, by decide +kernel, trivial⟩

/-- The transmit queue is full: `create_session` throws and leaves a session that
nothing will ever end. -/
theorem full_queue_session_unguarded :
    (runTwoHosts [.createSession ⟨.refused, true, 0⟩ attach peerAddress
        2123]).tables.sessions.map Session.state = [.creating] ∧
      (runTwoHosts [.createSession ⟨.refused, true, 0⟩ attach peerAddress 2123]).tables.txns = [] ∧
      (runTwoHosts [.createSession ⟨.refused, true, 0⟩ attach peerAddress
        2123]).tables.timers = [] := by
  decide +kernel

end Pro2Call.Gtp2

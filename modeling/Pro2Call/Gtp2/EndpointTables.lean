import Pro2Call.Gtp2.EndpointSteps

namespace Pro2Call.Gtp2

open Pro2Call.Data

structure KeepsIdentity (change : Session → Session) : Prop where
  id : ∀ s, (change s).id = s.id
  localTeid : ∀ s, (change s).localTeid = s.localTeid

theorem setState_keepsIdentity (state : SessionState) :
    KeepsIdentity fun s => { s with state := state } :=
  ⟨fun _ => rfl, fun _ => rfl⟩

theorem setModBearers_keepsIdentity (bearers : List BearerContext) :
    KeepsIdentity fun s => { s with modBearers := bearers } :=
  ⟨fun _ => rfl, fun _ => rfl⟩

theorem answerChange_keepsIdentity (inet : Inet) (wire : Bytes) (messageType : UInt8) :
    KeepsIdentity (answerChange inet wire messageType) := by
  unfold answerChange
  split_ifs
  · cases CreateSessionResponse.decode inet wire with
    | error err => exact ⟨fun _ => rfl, fun _ => rfl⟩
    | ok rsp => constructor <;> intro s <;> unfold Session.created <;> dsimp only <;> split <;> rfl
  · cases ModifyBearerResponse.decode inet wire with
    | error err => exact ⟨fun _ => rfl, fun _ => rfl⟩
    | ok rsp => constructor <;> intro s <;> unfold Session.modified <;> dsimp only <;> split <;> rfl
  · cases DeleteSessionResponse.decode wire with
    | error err => exact ⟨fun _ => rfl, fun _ => rfl⟩
    | ok rsp => exact setState_keepsIdentity .deleted
  · exact ⟨fun _ => rfl, fun _ => rfl⟩

variable {change : Session → Session} {t : Txn}

namespace Tables

variable {tables : Tables}

structure SessionsWf (tables : Tables) : Prop where
  ids : Keyed.Distinct Session.id tables.sessions
  below : ∀ s ∈ tables.sessions, s.id < tables.fresh
  teids : Keyed.Distinct Prod.fst tables.byTeid
  owned : ∀ entry ∈ tables.byTeid, ∃ s ∈ tables.sessions, s.id = entry.2 ∧ s.localTeid = entry.1

/-- Transactions and timers have their own identities, and a timer given to an
outstanding transaction is the one the transaction would cancel. -/
structure TxnsWf (tables : Tables) : Prop where
  seqs : Keyed.Distinct Txn.seq tables.txns
  ids : Keyed.Distinct Txn.id tables.txns
  below : ∀ t ∈ tables.txns, t.id < tables.fresh ∧ t.timerId < tables.fresh
  timerIds : Keyed.Distinct T3Timer.id tables.timers
  timersBelow : ∀ timer ∈ tables.timers,
    0 < timer.id ∧ timer.id < tables.fresh ∧ timer.txn < tables.fresh
  linked : ∀ timer ∈ tables.timers, ∀ t ∈ tables.txns, t.id = timer.txn ↔ t.timerId = timer.id

theorem SessionsWf.findSession (wf : tables.SessionsWf) {id : Nat} :
    tables.findSession id = some s ↔ s ∈ tables.sessions ∧ s.id = id :=
  wf.ids.find_eq_some

theorem SessionsWf.sessionByTeid (wf : tables.SessionsWf) :
    tables.sessionByTeid teid = some s ↔
      (teid, s.id) ∈ tables.byTeid ∧ s ∈ tables.sessions ∧ s.localTeid = teid := by
  unfold Tables.sessionByTeid
  rw [Option.bind_eq_some_iff]
  constructor
  · rintro ⟨⟨key, id⟩, entry, found⟩
    obtain ⟨entryMember, rfl⟩ := wf.teids.find_eq_some.mp entry
    obtain ⟨member, rfl⟩ := wf.findSession.mp found
    obtain ⟨owner, ownerMember, sameId, sameTeid⟩ := wf.owned _ entryMember
    obtain rfl : owner = s := wf.ids.eq_of_key ownerMember member sameId
    exact ⟨entryMember, member, sameTeid⟩
  · rintro ⟨entry, member, same⟩
    exact ⟨(teid, s.id), wf.teids.find_eq_some.mpr ⟨entry, rfl⟩, wf.findSession.mpr ⟨member, rfl⟩⟩

theorem SessionsWf.of_same {other : Tables} (wf : tables.SessionsWf)
    (sessions : other.sessions = tables.sessions) (byTeid : other.byTeid = tables.byTeid)
    (fresh : tables.fresh ≤ other.fresh) : other.SessionsWf where
  ids := sessions ▸ wf.ids
  below := by
    rw [sessions]
    intro s member
    exact lt_of_lt_of_le (wf.below s member) fresh
  teids := byTeid ▸ wf.teids
  owned := by
    rw [sessions, byTeid]
    exact wf.owned

theorem SessionsWf.updateSession (wf : tables.SessionsWf)
    (keeps : KeepsIdentity change) (id : Nat) :
    (tables.updateSession id change).SessionsWf where
  ids := by
    unfold Keyed.Distinct Tables.updateSession
    rw [Keyed.map_modify keeps.id]
    exact wf.ids
  below := by
    intro s member
    rcases Keyed.mem_modify.mp member with ⟨old, _⟩ | ⟨before, old, _, rfl⟩
    · exact wf.below s old
    · rw [keeps.id]
      exact wf.below before old
  teids := wf.teids
  owned := by
    intro entry member
    obtain ⟨s, old, sameId, sameTeid⟩ := wf.owned entry member
    by_cases changed : s.id = id
    · refine ⟨change s, Keyed.mem_modify.mpr (.inr ⟨s, old, changed, rfl⟩), ?_, ?_⟩
      · rw [keeps.id, sameId]
      · rw [keeps.localTeid, sameTeid]
    · exact ⟨s, Keyed.mem_modify.mpr (.inl ⟨old, changed⟩), sameId, sameTeid⟩

theorem SessionsWf.updateByTeid (wf : tables.SessionsWf)
    (keeps : KeepsIdentity change) (teid : UInt32) :
    (tables.updateByTeid teid change).SessionsWf := by
  unfold Tables.updateByTeid
  split
  · exact wf
  · exact wf.updateSession keeps _

theorem SessionsWf.addSession (wf : tables.SessionsWf) (req : CreateSessionRequest)
    (host : Bytes) (port : UInt16) : (tables.addSession req host port).SessionsWf where
  ids := by
    refine wf.ids.append ?_
    intro other member
    exact (wf.below other member).ne
  below := by
    intro s member
    rcases List.mem_append.mp member with old | new
    · exact Nat.lt_succ_of_lt (wf.below s old)
    · rw [List.mem_singleton.mp new]
      exact Nat.lt_succ_self _
  teids := by
    dsimp only [Tables.addSession]
    cases taken : Keyed.find Prod.fst tables.byTeid req.senderFteid.teid with
    | some entry => exact wf.teids
    | none => exact wf.teids.append (Keyed.find_eq_none.mp taken)
  owned := by
    intro entry member
    have old : entry ∈ tables.byTeid → ∃ s ∈ (tables.addSession req host port).sessions,
          s.id = entry.2 ∧ s.localTeid = entry.1 := by
      intro member
      obtain ⟨s, present, same⟩ := wf.owned entry member
      exact ⟨s, List.mem_append_left _ present, same⟩
    dsimp only [Tables.addSession] at member
    cases taken : Keyed.find Prod.fst tables.byTeid req.senderFteid.teid with
    | some entry' =>
      rw [taken] at member
      exact old member
    | none =>
      rw [taken] at member
      rcases List.mem_append.mp member with before | new
      · exact old before
      · rw [List.mem_singleton.mp new]
        exact ⟨_, List.mem_append_right _ (List.mem_singleton_self _), rfl, rfl⟩

theorem mem_purge :
    s ∈ tables.purge.sessions ↔ s ∈ tables.sessions ∧ s.state ≠ .deleted ∧ s.state ≠ .failed := by
  simp [Tables.purge]

theorem mem_purge_byTeid {entry : UInt32 × Nat} :
    entry ∈ tables.purge.byTeid ↔ entry ∈ tables.byTeid ∧ ∀ s ∈ tables.sessions,
        (s.state = .deleted ∨ s.state = .failed) → s.localTeid = entry.1 → s.id ≠ entry.2 := by
  simp [Tables.purge]

theorem SessionsWf.purge (wf : tables.SessionsWf) : tables.purge.SessionsWf where
  ids := wf.ids.sublist List.filter_sublist
  below := fun s member => wf.below s (mem_purge.mp member).1
  teids := wf.teids.sublist List.filter_sublist
  owned := by
    intro entry member
    obtain ⟨old, spared⟩ := mem_purge_byTeid.mp member
    obtain ⟨s, present, sameId, sameTeid⟩ := wf.owned entry old
    have alive : ¬ (s.state = .deleted ∨ s.state = .failed) :=
      fun dead => spared s present dead sameTeid sameId
    exact ⟨s, mem_purge.mpr ⟨present, not_or.mp alive⟩, sameId, sameTeid⟩

theorem TxnsWf.findTxn (wf : tables.TxnsWf) :
    tables.findTxn seq = some t ↔ t ∈ tables.txns ∧ t.seq = seq :=
  wf.seqs.find_eq_some

theorem TxnsWf.of_same {other : Tables} (wf : tables.TxnsWf)
    (txns : other.txns = tables.txns) (timers : other.timers = tables.timers)
    (fresh : tables.fresh ≤ other.fresh) : other.TxnsWf where
  seqs := txns ▸ wf.seqs
  ids := txns ▸ wf.ids
  below := by
    rw [txns]
    intro t member
    have := wf.below t member
    omega
  timerIds := timers ▸ wf.timerIds
  timersBelow := by
    rw [timers]
    intro timer member
    have := wf.timersBelow timer member
    omega
  linked := by
    rw [txns, timers]
    exact wf.linked

theorem TxnsWf.sublist (wf : tables.TxnsWf) {txns : List Txn} {timers : List T3Timer}
    (fewerTxns : txns.Sublist tables.txns) (fewerTimers : timers.Sublist tables.timers) :
    ({ tables with txns := txns, timers := timers } : Tables).TxnsWf where
  seqs := wf.seqs.sublist fewerTxns
  ids := wf.ids.sublist fewerTxns
  below := fun t member => wf.below t (fewerTxns.subset member)
  timerIds := wf.timerIds.sublist fewerTimers
  timersBelow := fun timer member => wf.timersBelow timer (fewerTimers.subset member)
  linked := fun timer timerMember t member =>
    wf.linked timer (fewerTimers.subset timerMember) t (fewerTxns.subset member)

theorem TxnsWf.eraseTxn (wf : tables.TxnsWf) (seq : UInt32) : (tables.eraseTxn seq).TxnsWf :=
  wf.sublist List.filter_sublist (List.Sublist.refl _)

theorem TxnsWf.cancelTimer (wf : tables.TxnsWf) (id : Nat) : (tables.cancelTimer id).TxnsWf :=
  wf.sublist (List.Sublist.refl _) List.filter_sublist

theorem TxnsWf.addTxn (wf : tables.TxnsWf) (due : Nat) (seq : UInt32) (mt : UInt8)
    (wire : Bytes) (teid : UInt32) (host : Bytes) (port : UInt16) :
    (tables.addTxn due seq mt wire teid host port).TxnsWf where
  seqs := wf.seqs.put _
  ids := by
    refine (wf.ids.sublist List.filter_sublist).append ?_
    intro other member
    exact (wf.below other (Keyed.mem_erase.mp member).1).1.ne
  below := by
    intro t member
    show t.id < tables.fresh + 2 ∧ t.timerId < tables.fresh + 2
    rcases Keyed.mem_put.mp member with ⟨old, _⟩ | rfl
    · have := wf.below t old
      omega
    · exact ⟨Nat.lt_add_of_pos_right (by decide), Nat.lt_succ_self _⟩
  timerIds := by
    refine wf.timerIds.append ?_
    intro other member
    have := wf.timersBelow other member
    show other.id ≠ tables.fresh + 1
    omega
  timersBelow := by
    intro timer member
    show 0 < timer.id ∧ timer.id < tables.fresh + 2 ∧ timer.txn < tables.fresh + 2
    rcases List.mem_append.mp member with old | new
    · have := wf.timersBelow timer old
      omega
    · rw [List.mem_singleton.mp new]
      exact ⟨Nat.succ_pos _, Nat.lt_succ_self _, Nat.lt_add_of_pos_right (by decide)⟩
  linked := by
    intro timer timerMember t member
    rcases List.mem_append.mp timerMember with oldTimer | newTimer <;>
      rcases Keyed.mem_put.mp member with ⟨old, _⟩ | rfl
    · exact wf.linked timer oldTimer t old
    · have := wf.timersBelow timer oldTimer
      show tables.fresh = timer.txn ↔ tables.fresh + 1 = timer.id
      omega
    · rw [List.mem_singleton.mp newTimer]
      have := wf.below t old
      show t.id = tables.fresh ↔ t.timerId = tables.fresh + 1
      omega
    · rw [List.mem_singleton.mp newTimer]
      exact ⟨fun _ => rfl, fun _ => rfl⟩

theorem TxnsWf.startTxn (wf : tables.TxnsWf) (sent : Option Bytes) (due : Nat)
    (seq : UInt32) (mt : UInt8) (teid : UInt32) (host : Bytes) (port : UInt16) :
    (tables.startTxn sent due seq mt teid host port).TxnsWf := by
  cases sent with
  | none => exact wf
  | some wire => exact wf.addTxn due seq mt wire teid host port

theorem TxnsWf.txn_ne_of_cancelled (wf : tables.TxnsWf) {fired timer : T3Timer}
    (firedMember : fired ∈ tables.timers) (txnMember : t ∈ tables.txns)
    (owner : t.id = fired.txn) (member : timer ∈ (tables.cancelTimer fired.id).timers) :
    t.id ≠ timer.txn := by
  obtain ⟨old, other⟩ := Keyed.mem_erase.mp member
  intro same
  apply other
  rw [← (wf.linked timer old t txnMember).mp same,
    (wf.linked fired firedMember t txnMember).mp owner]

theorem TxnsWf.distinct_modify (wf : tables.TxnsWf) (txn handle : Nat) :
    Keyed.Distinct Txn.seq (Keyed.modify Txn.id tables.txns txn fun t =>
        { t with sends := t.sends + 1, timerId := handle }) ∧
      Keyed.Distinct Txn.id (Keyed.modify Txn.id tables.txns txn fun t =>
        { t with sends := t.sends + 1, timerId := handle }) := by
  have seqs := wf.seqs
  have ids := wf.ids
  unfold Keyed.Distinct at *
  constructor
  · rwa [Keyed.map_modify]
    exact fun _ => rfl
  · rwa [Keyed.map_modify]
    exact fun _ => rfl

theorem TxnsWf.resendTxn (wf : tables.TxnsWf) (member : t ∈ tables.txns)
    (unarmed : ∀ timer ∈ tables.timers, t.id ≠ timer.txn) (due : Nat) :
    (tables.resendTxn due t.id).TxnsWf where
  seqs := (wf.distinct_modify t.id _).1
  ids := (wf.distinct_modify t.id _).2
  below := by
    intro other otherMember
    show other.id < tables.fresh + 1 ∧ other.timerId < tables.fresh + 1
    rcases (wf.ids.mem_modify member).mp otherMember with ⟨old, _⟩ | rfl
    · have := wf.below other old
      omega
    · exact ⟨Nat.lt_succ_of_lt (wf.below t member).1, Nat.lt_succ_self _⟩
  timerIds := by
    refine wf.timerIds.append ?_
    intro other otherMember
    exact (wf.timersBelow other otherMember).2.1.ne
  timersBelow := by
    intro timer timerMember
    show 0 < timer.id ∧ timer.id < tables.fresh + 1 ∧ timer.txn < tables.fresh + 1
    rcases List.mem_append.mp timerMember with old | new
    · have := wf.timersBelow timer old
      omega
    · have := (wf.below t member).1
      rw [List.mem_singleton.mp new]
      exact ⟨by dsimp only; omega, Nat.lt_succ_self _, Nat.lt_succ_of_lt this⟩
  linked := by
    intro timer timerMember other otherMember
    rcases List.mem_append.mp timerMember with oldTimer | newTimer <;>
      rcases (wf.ids.mem_modify member).mp otherMember with ⟨old, apart⟩ | rfl
    · exact wf.linked timer oldTimer other old
    · have := wf.timersBelow timer oldTimer
      have := unarmed timer oldTimer
      show t.id = timer.txn ↔ tables.fresh = timer.id
      omega
    · have := wf.below other old
      rw [List.mem_singleton.mp newTimer]
      show other.id = t.id ↔ other.timerId = tables.fresh
      omega
    · rw [List.mem_singleton.mp newTimer]
      exact ⟨fun _ => rfl, fun _ => rfl⟩

theorem TxnsWf.resendUnarmed (wf : tables.TxnsWf) (member : t ∈ tables.txns)
    (unarmed : ∀ timer ∈ tables.timers, t.id ≠ timer.txn) :
    (tables.resendUnarmed t.id).TxnsWf where
  seqs := (wf.distinct_modify t.id _).1
  ids := (wf.distinct_modify t.id _).2
  below := by
    intro other otherMember
    rcases (wf.ids.mem_modify member).mp otherMember with ⟨old, _⟩ | rfl
    · exact wf.below other old
    · have := wf.below t member
      exact ⟨this.1, Nat.zero_lt_of_lt this.1⟩
  timerIds := wf.timerIds
  timersBelow := wf.timersBelow
  linked := by
    intro timer timerMember other otherMember
    rcases (wf.ids.mem_modify member).mp otherMember with ⟨old, _⟩ | rfl
    · exact wf.linked timer timerMember other old
    · have := wf.timersBelow timer timerMember
      have := unarmed timer timerMember
      show t.id = timer.txn ↔ 0 = timer.id
      omega

theorem TxnsWf.expire (wf : tables.TxnsWf) (env : CallEnv) (t3Ms n3 : Nat)
    (member : t ∈ tables.txns) (unarmed : ∀ timer ∈ tables.timers, t.id ≠ timer.txn) :
    (tables.expire env t3Ms n3 t).TxnsWf := by
  unfold Tables.expire
  split_ifs
  · exact wf.resendTxn member unarmed _
  · exact wf.resendUnarmed member unarmed
  · exact wf
  · unfold Tables.updateByTeid
    split
    · exact wf.eraseTxn _
    · exact (wf.eraseTxn _).of_same rfl rfl le_rfl

end Tables

structure Tables.WellFormed (tables : Tables) : Prop where
  sessions : tables.SessionsWf
  txns : tables.TxnsWf

theorem Tables.startTxn_sessions (tables : Tables) (sent : Option Bytes) (due : Nat)
    (seq : UInt32) (mt : UInt8) (teid : UInt32) (host : Bytes) (port : UInt16) :
    (tables.startTxn sent due seq mt teid host port).sessions = tables.sessions ∧
      (tables.startTxn sent due seq mt teid host port).byTeid = tables.byTeid ∧
      tables.fresh ≤ (tables.startTxn sent due seq mt teid host port).fresh := by
  cases sent with
  | none => exact ⟨rfl, rfl, le_rfl⟩
  | some wire => exact ⟨rfl, rfl, Nat.le_add_right _ _⟩

namespace Tables.WellFormed

variable {tables : Tables} (wf : tables.WellFormed)

include wf

theorem startTxn (sent : Option Bytes) (due : Nat) (seq : UInt32) (mt : UInt8)
    (teid : UInt32) (host : Bytes) (port : UInt16) :
    (tables.startTxn sent due seq mt teid host port).WellFormed := by
  obtain ⟨sessions, byTeid, fresh⟩ := tables.startTxn_sessions sent due seq mt teid host port
  exact ⟨wf.sessions.of_same sessions byTeid fresh, wf.txns.startTxn sent due seq mt teid host port⟩

theorem updateSession (keeps : KeepsIdentity change)
    (id : Nat) : (tables.updateSession id change).WellFormed :=
  ⟨wf.sessions.updateSession keeps id, wf.txns.of_same rfl rfl le_rfl⟩

theorem updateByTeid (keeps : KeepsIdentity change)
    (teid : UInt32) : (tables.updateByTeid teid change).WellFormed := by
  unfold Tables.updateByTeid
  split
  · exact wf
  · exact wf.updateSession keeps _

theorem answer (inet : Inet) (wire : Bytes) (h : Gtp2Hdr) :
    (tables.answer inet wire h).WellFormed := by
  unfold Tables.answer
  split
  · exact wf
  · rename_i t found
    refine updateByTeid ⟨?_, ?_⟩ (answerChange_keepsIdentity inet wire h.messageType) _
    · exact wf.sessions.of_same rfl rfl le_rfl
    · exact (wf.txns.eraseTxn _).cancelTimer _

theorem expire (env : CallEnv) (t3Ms n3 : Nat) {fired : T3Timer}
    (firedMember : fired ∈ tables.timers) (member : t ∈ tables.txns)
    (owner : t.id = fired.txn) :
    ((tables.cancelTimer fired.id).expire env t3Ms n3 t).WellFormed := by
  refine ⟨?_, (wf.txns.cancelTimer fired.id).expire env t3Ms n3 member ?_⟩
  · unfold Tables.expire
    split_ifs
    · exact wf.sessions.of_same rfl rfl (Nat.le_succ _)
    · exact wf.sessions.of_same rfl rfl le_rfl
    · exact wf.sessions.of_same rfl rfl le_rfl
    · refine SessionsWf.updateByTeid ?_ (setState_keepsIdentity .failed) _
      exact wf.sessions.of_same rfl rfl le_rfl
  · intro timer timerMember
    exact wf.txns.txn_ne_of_cancelled firedMember member owner timerMember

end Tables.WellFormed

def requestOn : EndpointEvent → Option (CallEnv × Nat)
  | .modifyBearer env id _ | .deleteSession env id | .deleteSessionReq env id _ => some (env, id)
  | _ => none

/-- What an event can do to the tables and to the `undefined` mark. -/
inductive TableStep (inet : Inet) (e : Endpoint) : EndpointEvent → Tables → Bool → Prop
  | same {event} : event ≠ .purge → TableStep inet e event e.tables e.undefined
  | create {env req host port} (sent : Option Bytes) :
      TableStep inet e (.createSession env req host port)
        ((e.tables.addSession (e.fillRequest req).2 host port).startTxn sent (env.now + e.t3Ms)
          (e.fillRequest req).2.sequence mtCreateSessionRequest
          (e.fillRequest req).2.senderFteid.teid host port) e.undefined
  | request {event env id s change} (sent : Option Bytes) (mt : UInt8) :
      requestOn event = some (env, id) → e.tables.findSession id = some s →
      KeepsIdentity change → TableStep inet e event
        ((e.tables.updateSession s.id change).startTxn sent (env.now + e.t3Ms) e.nextSeq.2 mt
          s.localTeid s.peerHost s.peerPort) e.undefined
  | answer {env wire host port h} : responseHdr wire = some h →
      TableStep inet e (.datagram env wire host port) (e.tables.answer inet wire h) e.undefined
  | stale {env timer} : timer ∈ e.tables.timers → (∀ t ∈ e.tables.txns, t.id ≠ timer.txn) →
      TableStep inet e (.timer env timer.id) (e.tables.cancelTimer timer.id) true
  | expire {env timer t} : timer ∈ e.tables.timers → timer.due ≤ env.now → t ∈ e.tables.txns →
      t.id = timer.txn → TableStep inet e (.timer env timer.id)
        ((e.tables.cancelTimer timer.id).expire env e.t3Ms e.n3 t) e.undefined
  | purge : TableStep inet e .purge e.tables.purge e.undefined

theorem outcome_tableStep (inet : Inet) (e : Endpoint) (event : EndpointEvent) :
    TableStep inet e event (outcome inet e event).tables (outcome inet e event).undefined := by
  cases event with
  | createSession env req host port =>
    dsimp only [outcome, Endpoint.onTables, Endpoint.withCounters]
    exact .create _
  | modifyBearer env id req =>
    dsimp only [outcome]
    split
    · exact .same (by simp)
    next found => exact .request _ _ rfl found (setModBearers_keepsIdentity req.bearers)
  | deleteSession env id | deleteSessionReq env id req =>
    dsimp only [outcome]
    split
    · exact .same (by simp)
    next found => exact .request _ _ rfl found (setState_keepsIdentity .deleting)
  | datagram env wire host port =>
    dsimp only [outcome]
    split
    · exact .same (by simp)
    next read => exact .answer read
  | timer env id =>
    dsimp only [outcome]
    split
    · exact .same (by simp)
    next timer armed =>
      obtain ⟨timerMember, rfl⟩ := Keyed.mem_of_find armed
      split_ifs with due
      · split
        next gone => exact .stale timerMember (Keyed.find_eq_none.mp gone)
        next t found =>
          obtain ⟨member, owner⟩ := Keyed.mem_of_find found
          exact .expire timerMember due member owner
      · exact .same (by simp)
  | purge => exact .purge
  | _ => exact .same (by simp)

theorem outcome_wellFormed (inet : Inet) {e : Endpoint} (wf : e.tables.WellFormed)
    (event : EndpointEvent) : (outcome inet e event).tables.WellFormed := by
  have step := outcome_tableStep inet e event
  generalize (outcome inet e event).tables = next, (outcome inet e event).undefined = lost at step ⊢
  cases step with
  | same _ => exact wf
  | create sent =>
    refine Tables.WellFormed.startTxn ⟨wf.sessions.addSession _ _ _, ?_⟩ _ _ _ _ _ _ _
    exact wf.txns.of_same rfl rfl (Nat.le_succ _)
  | request sent mt asked found keeps => exact (wf.updateSession keeps _).startTxn _ _ _ _ _ _ _
  | answer read => exact wf.answer inet _ _
  | stale timerMember gone => exact ⟨wf.sessions.of_same rfl rfl le_rfl, wf.txns.cancelTimer _⟩
  | expire timerMember due member owner => exact wf.expire _ _ _ timerMember member owner
  | purge => exact ⟨wf.sessions.purge, wf.txns.of_same rfl rfl le_rfl⟩

theorem endpointStep_wellFormed (inet : Inet) (e : Endpoint) (event : EndpointEvent)
    (wf : e.tables.WellFormed) : (endpointStep inet e event).tables.WellFormed := by
  cases defined : e.undefined with
  | true =>
    rw [endpointStep_of_undefined inet defined]
    exact wf
  | false =>
    rw [(endpointStep_quiet inet defined event).tables]
    exact outcome_wellFormed inet wf event

theorem endpointNew_wellFormed (localHost : Bytes) (localIpv4 : Bool) :
    (endpointNew localHost localIpv4).tables.WellFormed := by
  constructor <;> constructor <;> simp [endpointNew]

def Reachable (inet : Inet) (e : Endpoint) : Prop :=
  e.undefined = false ∧ ∃ localHost localIpv4 events,
    e = run (endpointStep inet) (endpointNew localHost localIpv4) events

theorem Reachable.wellFormed (reached : Reachable inet e) : e.tables.WellFormed := by
  obtain ⟨_, localHost, localIpv4, events, rfl⟩ := reached
  exact run_of_invariant (fun e : Endpoint => e.tables.WellFormed) (endpointStep_wellFormed inet)
    (endpointNew_wellFormed localHost localIpv4) events

def localAddress : Bytes := "10.0.0.1".toUTF8.toList
def peerAddress : Bytes := "10.0.0.2".toUTF8.toList

def twoHosts : Inet where
  pton4 := fun host =>
    if host = localAddress then some [10, 0, 0, 1]
    else if host = peerAddress then some [10, 0, 0, 2]
    else none
  pton6 := fun _ => none
  ntop4 := fun addr => if addr = [10, 0, 0, 1] then localAddress else peerAddress
  ntop6 := fun _ => []

def attach : CreateSessionRequest where
  apn := [0x6E]
  bearers := [{}]

def CallEnv.works : CallEnv where
  send := .sent
  arm := true
  now := 0

def responseWire (mt seq cause : UInt8) : Bytes :=
  [0x48, mt, 0, 14, 0, 0, 0, 1, 0, 0, seq, 0, ieCause, 0, 2, 0, cause, 0]

def runTwoHosts (events : List EndpointEvent) : Endpoint :=
  run (endpointStep twoHosts) (endpointNew localAddress true) events

end Pro2Call.Gtp2

import Pro2Call.Gtp2.EndpointTables

namespace Pro2Call.Gtp2

open Pro2Call.Data

def Session.Finished (s : Session) : Prop := s.state = .deleted ∨ s.state = .failed

instance (s : Session) : Decidable s.Finished := inferInstanceAs (Decidable (_ ∨ _))

namespace Tables

/-- A lookup gives an owned session of that TEID, or there is none. -/
def Resolves (tables : Tables) : Prop :=
  ∀ teid, match tables.sessionByTeid teid with
    | some s => s ∈ tables.sessions ∧ s.localTeid = teid
    | none => ∀ s ∈ tables.sessions, s.localTeid ≠ teid

/-- A purge that takes the session a TEID resolves to leaves no other of that
TEID. -/
def PurgesWhole (tables : Tables) : Prop :=
  ∀ s ∈ tables.sessions, ∀ holder ∈ tables.sessionByTeid s.localTeid, holder.Finished → s.Finished

variable {tables : Tables}

theorem SessionsWf.resolves_iff (wf : tables.SessionsWf) :
    tables.Resolves ↔ ∀ s ∈ tables.sessions, ∃ entry ∈ tables.byTeid, entry.1 = s.localTeid := by
  constructor
  · intro resolves s member
    have here := resolves s.localTeid
    split at here
    next holder found => exact ⟨_, (wf.sessionByTeid.mp found).1, rfl⟩
    next => exact absurd rfl (here s member)
  · intro entries teid
    split
    next s found => exact (wf.sessionByTeid.mp found).2
    next missing =>
      rintro s member rfl
      obtain ⟨entry, indexed, same⟩ := entries s member
      obtain ⟨holder, owned, id, localTeid⟩ := wf.owned entry indexed
      have found : tables.sessionByTeid s.localTeid = some holder := by
        refine wf.sessionByTeid.mpr ⟨?_, owned, localTeid.trans same⟩
        rw [id, ← same]
        exact indexed
      rw [found] at missing
      cases missing

def SameTeids (tables other : Tables) : Prop :=
  other.sessions.map Session.localTeid = tables.sessions.map Session.localTeid ∧
    other.byTeid = tables.byTeid

theorem SameTeids.resolves_iff (same : tables.SameTeids other)
    (wf : tables.SessionsWf) (otherWf : other.SessionsWf) : other.Resolves ↔ tables.Resolves := by
  rw [wf.resolves_iff, otherWf.resolves_iff, same.2]
  have moved : ∀ holds : UInt32 → Prop, (∀ s ∈ other.sessions, holds s.localTeid) ↔
      ∀ s ∈ tables.sessions, holds s.localTeid := by
    intro holds
    rw [← List.forall_mem_map (f := Session.localTeid) (P := holds), same.1, List.forall_mem_map]
  exact moved fun teid => ∃ entry ∈ tables.byTeid, entry.1 = teid

theorem SameTeids.startTxn (same : tables.SameTeids other) (sent : Option Bytes)
    (due : Nat) (seq : UInt32) (mt : UInt8) (teid : UInt32) (host : Bytes) (port : UInt16) :
    tables.SameTeids (other.startTxn sent due seq mt teid host port) := by
  obtain ⟨sessions, byTeid, _⟩ := other.startTxn_sessions sent due seq mt teid host port
  exact ⟨by rw [sessions, same.1], by rw [byTeid, same.2]⟩

theorem sameTeids_updateSession (keeps : KeepsIdentity change)
    (id : Nat) : tables.SameTeids (tables.updateSession id change) :=
  ⟨Keyed.map_modify keeps.localTeid, rfl⟩

theorem sameTeids_updateByTeid (keeps : KeepsIdentity change)
    (teid : UInt32) : tables.SameTeids (tables.updateByTeid teid change) := by
  unfold Tables.updateByTeid
  split
  · exact ⟨rfl, rfl⟩
  · exact sameTeids_updateSession keeps _

theorem SessionsWf.resolves_purge_iff (wf : tables.SessionsWf) (resolves : tables.Resolves) :
    tables.purge.Resolves ↔ tables.PurgesWhole := by
  rw [wf.purge.resolves_iff]
  constructor
  · intro entries s member holder found finished
    obtain ⟨indexed, owned, sameTeid⟩ := wf.sessionByTeid.mp found
    by_contra alive
    obtain ⟨entry, kept, same⟩ := entries s (mem_purge.mpr ⟨member, not_or.mp alive⟩)
    obtain ⟨old, spared⟩ := mem_purge_byTeid.mp kept
    have own : entry = (s.localTeid, holder.id) := wf.teids.eq_of_key old indexed same
    subst own
    exact spared holder owned finished sameTeid rfl
  · intro whole s member
    obtain ⟨owned, alive⟩ := mem_purge.mp member
    have here := resolves s.localTeid
    split at here
    next holder found =>
      obtain ⟨indexed, holderOwned, sameTeid⟩ := wf.sessionByTeid.mp found
      refine ⟨_, mem_purge_byTeid.mpr ⟨indexed, ?_⟩, rfl⟩
      intro victim victimOwned finished _ same
      rw [wf.ids.eq_of_key victimOwned holderOwned same] at finished
      exact (not_or.mpr alive) (whole s owned holder found finished)
    next => exact absurd rfl (here s owned)

theorem Resolves.addSession (resolves : tables.Resolves) (wf : tables.SessionsWf)
    (req : CreateSessionRequest) (host : Bytes) (port : UInt16) :
    (tables.addSession req host port).Resolves := by
  rw [(wf.addSession req host port).resolves_iff]
  rw [wf.resolves_iff] at resolves
  have kept : tables.byTeid ⊆ (tables.addSession req host port).byTeid := by
    dsimp only [Tables.addSession]
    split
    · exact List.Subset.refl _
    · exact List.subset_append_left _ _
  intro s member
  rcases List.mem_append.mp member with old | new
  · obtain ⟨entry, indexed, same⟩ := resolves s old
    exact ⟨entry, kept indexed, same⟩
  · rw [List.mem_singleton.mp new]
    dsimp only [Tables.addSession]
    split
    next entry taken => exact ⟨entry, Keyed.mem_of_find taken⟩
    next => exact ⟨_, List.mem_append_right _ (List.mem_singleton_self _), rfl⟩

end Tables

def SparesHolders (e : Endpoint) (event : EndpointEvent) : Prop :=
  event = .purge → e.undefined = false → e.tables.PurgesWhole

theorem Tables.sameTeids_answer (tables : Tables) (inet : Inet) (wire : Bytes) (h : Gtp2Hdr) :
    tables.SameTeids (tables.answer inet wire h) := by
  unfold Tables.answer
  split
  · exact ⟨rfl, rfl⟩
  · exact sameTeids_updateByTeid (answerChange_keepsIdentity inet wire h.messageType) _

theorem Tables.sameTeids_expire (tables : Tables) (env : CallEnv) (t3Ms n3 : Nat) (t : Txn) :
    tables.SameTeids (tables.expire env t3Ms n3 t) := by
  unfold Tables.expire
  split_ifs
  · exact ⟨rfl, rfl⟩
  · exact ⟨rfl, rfl⟩
  · exact ⟨rfl, rfl⟩
  · exact sameTeids_updateByTeid (setState_keepsIdentity .failed) _

theorem outcome_resolves_iff (inet : Inet) {e : Endpoint} (defined : e.undefined = false)
    (wf : e.tables.WellFormed) (resolves : e.tables.Resolves) (event : EndpointEvent) :
    (outcome inet e event).tables.Resolves ↔ SparesHolders e event := by
  have step := outcome_tableStep inet e event
  have sound := outcome_wellFormed inet wf event
  generalize (outcome inet e event).tables = next, (outcome inet e event).undefined = lost
    at step sound ⊢
  have kept : event ≠ .purge → next.Resolves → (next.Resolves ↔ SparesHolders e event) :=
    fun other holds => ⟨fun _ purges => absurd purges other, fun _ => holds⟩
  have same : event ≠ .purge → e.tables.SameTeids next → (next.Resolves ↔ SparesHolders e event) :=
    fun other unmoved => kept other ((unmoved.resolves_iff wf.sessions sound.sessions).mpr resolves)
  cases step with
  | same other => exact same other ⟨rfl, rfl⟩
  | @create _ req host port sent =>
    have added := wf.sessions.addSession (e.fillRequest req).2 host port
    refine kept nofun ((Tables.SameTeids.resolves_iff ?_ added sound.sessions).mpr
      (resolves.addSession wf.sessions _ _ _))
    exact Tables.SameTeids.startTxn ⟨rfl, rfl⟩ _ _ _ _ _ _ _
  | request sent mt asked found keeps =>
    refine same ?_ ((Tables.sameTeids_updateSession keeps _).startTxn _ _ _ _ _ _ _)
    rintro rfl
    cases asked
  | answer read => exact same nofun (e.tables.sameTeids_answer inet _ _)
  | stale timerMember gone => exact same nofun ⟨rfl, rfl⟩
  | expire timerMember due member owner =>
    exact same nofun ((e.tables.cancelTimer _).sameTeids_expire _ _ _ _)
  | purge =>
    rw [wf.sessions.resolves_purge_iff resolves]
    exact ⟨fun whole _ _ => whole, fun spares => spares rfl defined⟩

theorem endpointStep_resolves_iff (inet : Inet) (e : Endpoint) (event : EndpointEvent)
    (sound : e.tables.WellFormed ∧ e.tables.Resolves) :
    ((endpointStep inet e event).tables.WellFormed ∧
      (endpointStep inet e event).tables.Resolves) ↔ SparesHolders e event := by
  obtain ⟨wf, resolves⟩ := sound
  rw [and_iff_right (endpointStep_wellFormed inet e event wf)]
  cases defined : e.undefined with
  | true =>
    rw [endpointStep_of_undefined inet defined]
    exact ⟨fun _ _ => by simp [defined], fun _ => resolves⟩
  | false =>
    rw [(endpointStep_quiet inet defined event).tables]
    exact outcome_resolves_iff inet defined wf resolves event

/-- A TEID resolves to an owned session exactly as long as no purge takes the
session that claimed it first and leaves one that claimed it later. -/
theorem teids_resolve_iff (inet : Inet) (localHost : Bytes) (localIpv4 : Bool)
    (events : List EndpointEvent) :
    EveryState (endpointStep inet) (fun e => e.tables.Resolves) (endpointNew localHost localIpv4)
        events ↔
      EveryStep (endpointStep inet) SparesHolders (endpointNew localHost localIpv4) events := by
  have sound := endpointNew_wellFormed localHost localIpv4
  have empty := sound.sessions.resolves_iff.mpr (by simp [endpointNew])
  rw [← everyState_iff_everyStep (endpointStep_resolves_iff inet) ⟨sound, empty⟩]
  exact ⟨EveryState.and_invariant (endpointStep_wellFormed inet) sound,
    EveryState.mono fun _ both => both.2⟩

def attachAt (teid : UInt32) : CreateSessionRequest :=
  { attach with senderFteid := { teid := teid } }

/-- Two sessions under one TEID: the first is rejected and purged, and the second,
still owned, is no longer found. -/
theorem second_claimant_unresolved :
    (runTwoHosts [.createSession .works (attachAt 9) peerAddress 2123,
      .createSession .works (attachAt 9) peerAddress 2123,
      .datagram .works (responseWire mtCreateSessionResponse 1 64) peerAddress 2123,
      .purge]).tables.sessions.map (fun s => (s.localTeid, s.state)) = [(9, .creating)] ∧
    (runTwoHosts [.createSession .works (attachAt 9) peerAddress 2123,
      .createSession .works (attachAt 9) peerAddress 2123,
      .datagram .works (responseWire mtCreateSessionResponse 1 64) peerAddress 2123,
      .purge]).tables.sessionByTeid 9 = none := by
  decide +kernel

end Pro2Call.Gtp2

import Pro2Call.Gtp2.EndpointTables

namespace Pro2Call.Gtp2

open Pro2Call.Data

def startedSeq (e : Endpoint) : EndpointEvent → Option UInt32
  | .createSession _ req _ _ => some (e.fillRequest req).2.sequence
  | .modifyBearer _ id _ | .deleteSession _ id | .deleteSessionReq _ id _ =>
    (e.tables.findSession id).map fun _ => e.nextSeq.2
  | _ => none

def StartsFresh (e : Endpoint) (event : EndpointEvent) : Prop :=
  ∀ t ∈ e.tables.txns, startedSeq e event ≠ some t.seq

instance (e : Endpoint) (event : EndpointEvent) : Decidable (StartsFresh e event) :=
  inferInstanceAs (Decidable (∀ t ∈ e.tables.txns, _))

theorem StartsFresh.unused (fresh : StartsFresh e event) (started : startedSeq e event = some seq) :
    ∀ t ∈ e.tables.txns, t.seq ≠ seq := by
  rintro t member rfl
  exact fresh t member started

def Tables.TimersLive (tables : Tables) : Prop :=
  ∀ timer ∈ tables.timers, ∃ t ∈ tables.txns, t.id = timer.txn

namespace Tables

variable {tables : Tables}

theorem addTxn_txns (tables : Tables) (unused : ∀ t ∈ tables.txns, t.seq ≠ seq) (due : Nat)
    (mt : UInt8) (wire : Bytes)
    (teid : UInt32) (host : Bytes) (port : UInt16) :
    (tables.addTxn due seq mt wire teid host port).txns = tables.txns ++
      [⟨tables.fresh, seq, mt, wire, teid, host, port, 1, tables.fresh + 1⟩] := by
  unfold addTxn Keyed.put
  rw [Keyed.erase_of_absent unused]

theorem TimersLive.of_same (live : tables.TimersLive) {other : Tables}
    (txns : other.txns = tables.txns) (timers : other.timers = tables.timers) :
    other.TimersLive := by
  unfold TimersLive
  rw [txns, timers]
  exact live

theorem TimersLive.startTxn (live : tables.TimersLive) {changed : Tables}
    (txns : changed.txns = tables.txns) (timers : changed.timers = tables.timers)
    (unused : ∀ t ∈ tables.txns, t.seq ≠ seq) (sent : Option Bytes)
    (due : Nat) (mt : UInt8) (teid : UInt32) (host : Bytes) (port : UInt16) :
    (changed.startTxn sent due seq mt teid host port).TimersLive := by
  cases sent with
  | none => exact live.of_same txns timers
  | some wire =>
    intro timer member
    show ∃ t ∈ (changed.addTxn due seq mt wire teid host port).txns, t.id = timer.txn
    rw [changed.addTxn_txns (txns ▸ unused)]
    rcases List.mem_append.mp member with old | new
    · obtain ⟨t, present, same⟩ := live timer (timers ▸ old)
      exact ⟨t, List.mem_append_left _ (txns ▸ present), same⟩
    · rw [List.mem_singleton.mp new]
      exact ⟨_, List.mem_append_right _ (List.mem_singleton_self _), rfl⟩

theorem TimersLive.updateByTeid (live : tables.TimersLive) (teid : UInt32)
    (change : Session → Session) : (tables.updateByTeid teid change).TimersLive := by
  obtain ⟨txns, timers⟩ := tables.updateByTeid_same teid change
  exact live.of_same txns timers

theorem TimersLive.eraseTxn (live : tables.TimersLive) (wf : tables.TxnsWf)
    (member : t ∈ tables.txns) {timers : List T3Timer}
    (fewer : ∀ timer ∈ timers, timer ∈ tables.timers ∧ t.id ≠ timer.txn) :
    ({ tables with
      txns := Keyed.erase Txn.seq tables.txns t.seq
      timers := timers } : Tables).TimersLive := by
  intro timer timerMember
  obtain ⟨old, other⟩ := fewer timer timerMember
  obtain ⟨owner, present, same⟩ := live timer old
  refine ⟨owner, Keyed.mem_erase.mpr ⟨present, ?_⟩, same⟩
  intro sameSeq
  rw [wf.seqs.eq_of_key present member sameSeq] at same
  exact other same

theorem TimersLive.answer (live : tables.TimersLive) (wf : tables.TxnsWf) (inet : Inet)
    (wire : Bytes) (h : Gtp2Hdr) : (tables.answer inet wire h).TimersLive := by
  unfold Tables.answer
  cases found : tables.findTxn h.sequence with
  | none => exact live
  | some t =>
    obtain ⟨member, same⟩ := wf.findTxn.mp found
    refine TimersLive.updateByTeid ?_ _ _
    rw [← same]
    refine live.eraseTxn wf member ?_
    intro timer timerMember
    obtain ⟨old, other⟩ := Keyed.mem_erase.mp timerMember
    exact ⟨old, fun owner => other ((wf.linked timer old t member).mp owner).symm⟩

theorem TimersLive.expire (live : tables.TimersLive) (wf : tables.TxnsWf) {fired : T3Timer}
    {t : Txn} (firedMember : fired ∈ tables.timers) (member : t ∈ tables.txns)
    (owner : t.id = fired.txn) (env : CallEnv) (t3Ms n3 : Nat) :
    ((tables.cancelTimer fired.id).expire env t3Ms n3 t).TimersLive := by
  have cancelled : (tables.cancelTimer fired.id).TimersLive := by
    intro timer timerMember
    exact live timer (Keyed.mem_erase.mp timerMember).1
  have resent : ∀ handle, ∀ timer ∈ (tables.cancelTimer fired.id).timers,
      ∃ t' ∈ Keyed.modify Txn.id tables.txns t.id fun t =>
        { t with sends := t.sends + 1, timerId := handle }, t'.id = timer.txn := by
    intro handle timer timerMember
    obtain ⟨t', present, same⟩ := cancelled timer timerMember
    have other := wf.txn_ne_of_cancelled firedMember member owner timerMember
    refine ⟨t', (wf.ids.mem_modify member).mpr (.inl ⟨present, ?_⟩), same⟩
    intro same'
    exact other (same'.symm.trans same)
  unfold Tables.expire
  split_ifs
  · intro timer timerMember
    rcases List.mem_append.mp timerMember with old | new
    · exact resent _ timer old
    · rw [List.mem_singleton.mp new]
      exact ⟨_, (wf.ids.mem_modify member).mpr (.inr rfl), rfl⟩
  · exact resent 0
  · exact cancelled
  · refine TimersLive.updateByTeid ?_ _ _
    refine cancelled.eraseTxn (wf.cancelTimer fired.id) member ?_
    intro timer timerMember
    exact ⟨timerMember, wf.txn_ne_of_cancelled firedMember member owner timerMember⟩

structure Waits (tables : Tables) (t : Txn) (due : Nat) : Prop where
  outstanding : t ∈ tables.txns
  armed : ⟨t.timerId, t.id, due⟩ ∈ tables.timers

theorem Waits.of_same (waits : tables.Waits t due) {other : Tables}
    (txns : other.txns = tables.txns) (timers : other.timers = tables.timers) :
    other.Waits t due :=
  ⟨txns ▸ waits.outstanding, timers ▸ waits.armed⟩

theorem Waits.startTxn (waits : tables.Waits t due) {changed : Tables}
    (txns : changed.txns = tables.txns) (timers : changed.timers = tables.timers)
    (unused : ∀ t ∈ tables.txns, t.seq ≠ seq) (sent : Option Bytes)
    (later : Nat) (mt : UInt8) (teid : UInt32) (host : Bytes) (port : UInt16) :
    (changed.startTxn sent later seq mt teid host port).Waits t due := by
  cases sent with
  | none => exact waits.of_same txns timers
  | some wire =>
    refine ⟨?_, List.mem_append_left _ (timers ▸ waits.armed)⟩
    show t ∈ (changed.addTxn later seq mt wire teid host port).txns
    rw [changed.addTxn_txns (txns ▸ unused)]
    exact List.mem_append_left _ (txns ▸ waits.outstanding)

theorem waits_started (tables : Tables) (wire : Bytes) (due : Nat) (seq : UInt32) (mt : UInt8)
    (teid : UInt32) (host : Bytes) (port : UInt16) :
    (tables.startTxn (some wire) due seq mt teid host port).Waits
      ⟨tables.fresh, seq, mt, wire, teid, host, port, 1, tables.fresh + 1⟩ due :=
  ⟨Keyed.mem_put.mpr (.inr rfl), List.mem_append_right _ (List.mem_singleton_self _)⟩

theorem Waits.cancel_fired (waits : tables.Waits t due) (wf : tables.TxnsWf)
    {fired : T3Timer} (firedMember : fired ∈ tables.timers) (other : t.id ≠ fired.txn) :
    (tables.cancelTimer fired.id).Waits t due := by
  refine ⟨waits.outstanding, Keyed.mem_erase.mpr ⟨waits.armed, ?_⟩⟩
  intro same
  apply other
  rw [← wf.timerIds.eq_of_key waits.armed firedMember same]

theorem Waits.eraseTxn (waits : tables.Waits t due) (wf : tables.TxnsWf) {ended : Txn}
    (member : ended ∈ tables.txns) (other : t ≠ ended) :
    (tables.eraseTxn ended.seq).Waits t due := by
  refine ⟨Keyed.mem_erase.mpr ⟨waits.outstanding, ?_⟩, waits.armed⟩
  intro same
  exact other (wf.seqs.eq_of_key waits.outstanding member same)

theorem Waits.close (waits : tables.Waits t due) (wf : tables.TxnsWf) {ended : Txn}
    (member : ended ∈ tables.txns) (other : t ≠ ended) :
    ((tables.eraseTxn ended.seq).cancelTimer ended.timerId).Waits t due := by
  have erased := waits.eraseTxn wf member other
  refine ⟨erased.outstanding, Keyed.mem_erase.mpr ⟨erased.armed, ?_⟩⟩
  intro same
  have owned := (wf.linked _ waits.armed ended member).mpr same.symm
  exact other (wf.ids.eq_of_key waits.outstanding member owned.symm)

theorem Waits.resendTxn (wf : tables.TxnsWf) (member : t ∈ tables.txns) (id due : Nat) :
    ((tables.cancelTimer id).resendTxn due t.id).Waits
      { t with sends := t.sends + 1, timerId := tables.fresh } due :=
  ⟨(wf.ids.mem_modify member).mpr (.inr rfl), List.mem_append_right _ (List.mem_singleton_self _)⟩

theorem Waits.expire (waits : tables.Waits t due) (wf : tables.TxnsWf) {fired : T3Timer}
    (firedMember : fired ∈ tables.timers) {expired : Txn} (member : expired ∈ tables.txns)
    (owner : expired.id = fired.txn) (other : t.id ≠ expired.id) (env : CallEnv) (t3Ms n3 : Nat) :
    ((tables.cancelTimer fired.id).expire env t3Ms n3 expired).Waits t due := by
  have kept := waits.cancel_fired wf firedMember (owner ▸ other)
  have untouched : ∀ change, t ∈ Keyed.modify Txn.id tables.txns expired.id change := fun change =>
    Keyed.mem_modify.mpr (.inl ⟨waits.outstanding, other⟩)
  unfold Tables.expire
  split_ifs
  · exact ⟨untouched _, List.mem_append_left _ kept.armed⟩
  · exact ⟨untouched _, kept.armed⟩
  · exact kept
  · obtain ⟨txns, timers⟩ := ((tables.cancelTimer fired.id).eraseTxn expired.seq).updateByTeid_same
      expired.sessionTeid fun s => { s with state := .failed }
    refine (kept.eraseTxn (wf.cancelTimer _) member ?_).of_same txns timers
    rintro rfl
    exact other rfl

end Tables

theorem startedSeq_requestOn {e : Endpoint} {id : Nat} (asked : requestOn event = some (env, id))
    (found : e.tables.findSession id = some s) : startedSeq e event = some e.nextSeq.2 := by
  cases event <;> cases asked <;> simp [startedSeq, found]

theorem outcome_timersLive (inet : Inet) {e : Endpoint} (wf : e.tables.WellFormed)
    (live : e.tables.TimersLive) (fresh : StartsFresh e event) :
    (outcome inet e event).tables.TimersLive ∧ (outcome inet e event).undefined = e.undefined := by
  have step := outcome_tableStep inet e event
  generalize (outcome inet e event).tables = next, (outcome inet e event).undefined = lost at step ⊢
  cases step with
  | same _ => exact ⟨live, rfl⟩
  | create sent =>
    exact ⟨live.startTxn (by rfl) (by rfl) (fresh.unused rfl) _ _ _ _ _ _, rfl⟩
  | request sent mt asked found keeps =>
    have unused := fresh.unused (startedSeq_requestOn asked found)
    exact ⟨live.startTxn (by rfl) (by rfl) unused _ _ _ _ _ _, rfl⟩
  | answer read => exact ⟨live.answer wf.txns inet _ _, rfl⟩
  | stale timerMember gone =>
    obtain ⟨t, member, owner⟩ := live _ timerMember
    exact absurd owner (gone t member)
  | expire timerMember due member owner =>
    exact ⟨live.expire wf.txns timerMember member owner _ _ _, rfl⟩
  | purge => exact ⟨live.of_same rfl rfl, rfl⟩

/-- Every armed timer is for an outstanding transaction, so none fires for one
that is gone. -/
structure Endpoint.Sound (e : Endpoint) : Prop where
  wellFormed : e.tables.WellFormed
  live : e.tables.TimersLive
  defined : e.undefined = false

theorem endpointNew_sound (localHost : Bytes) (localIpv4 : Bool) :
    (endpointNew localHost localIpv4).Sound :=
  ⟨endpointNew_wellFormed localHost localIpv4, by simp [Tables.TimersLive, endpointNew], rfl⟩

theorem Endpoint.Sound.step {e : Endpoint} (sound : e.Sound) (inet : Inet)
    (fresh : StartsFresh e event) :
    (endpointStep inet e event).Sound := by
  have quiet := endpointStep_quiet inet sound.defined event
  obtain ⟨live, defined⟩ := outcome_timersLive inet sound.wellFormed sound.live fresh
  refine ⟨endpointStep_wellFormed inet e event sound.wellFormed, ?_, ?_⟩
  · rw [quiet.tables]
    exact live
  · rw [quiet.undefined, defined, sound.defined]

end Pro2Call.Gtp2

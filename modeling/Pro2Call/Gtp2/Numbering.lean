import Pro2Call.Data.Cycle
import Pro2Call.Gtp2.Outstanding

namespace Pro2Call.Gtp2

open Pro2Call.Data

/-- Sequence numbers have 24 bits, TEIDs 32; 0 is never generated. -/
def seqPeriod : Nat := 0xFFFFFF
def teidPeriod : Nat := 0xFFFFFFFF

def generatedSeq (e : Endpoint) : EndpointEvent → Option UInt32
  | .createSession _ req _ _ =>
    if req.sequence = 0 then some (e.fillRequest req).2.sequence else none
  | .modifyBearer _ id _ | .deleteSession _ id | .deleteSessionReq _ id _ =>
    (e.tables.findSession id).map fun _ => e.nextSeq.2
  | .sendEcho _ _ _ => some e.nextSeq.2
  | _ => none

def generatedTeid (e : Endpoint) : EndpointEvent → Option UInt32
  | .createSession _ req _ _ =>
    if req.senderFteid.teid = 0 then some (e.fillRequest req).2.senderFteid.teid else none
  | _ => none

def chosenSeq : EndpointEvent → Option UInt32
  | .createSession _ req _ _ => if req.sequence = 0 then none else some req.sequence
  | _ => none

def chosenTeid : EndpointEvent → Option UInt32
  | .createSession _ req _ _ =>
    if req.senderFteid.teid = 0 then none else some req.senderFteid.teid
  | _ => none

def Session.Live (s : Session) : Prop := s.state ≠ .deleted ∧ s.state ≠ .failed

instance (s : Session) : Decidable s.Live := inferInstanceAs (Decidable (_ ∧ _))

/-- What an event generates is in use nowhere, and the transaction and the session
that it adds have the numbers it generated or was given. -/
structure NumbersApart (inet : Inet) (e : Endpoint) (event : EndpointEvent) : Prop where
  sequences : ∀ t ∈ e.tables.txns, generatedSeq e event ≠ some t.seq
  teids : ∀ s ∈ e.tables.sessions, s.Live → generatedTeid e event ≠ some s.localTeid
  started : ∀ t ∈ (endpointStep inet e event).tables.txns, (∀ old ∈ e.tables.txns, old.id ≠ t.id) →
    generatedSeq e event = some t.seq ∨ chosenSeq event = some t.seq
  created : ∀ s ∈ (endpointStep inet e event).tables.sessions,
    (∀ old ∈ e.tables.sessions, old.id ≠ s.id) →
      generatedTeid e event = some s.localTeid ∨ chosenTeid event = some s.localTeid

namespace Endpoint

variable {e : Endpoint}

theorem nextSeq_of_last {count : Nat} (last : e.seq.toNat % 0x1000000 = lastCycle seqPeriod count) :
    e.nextSeq.2.toNat = cycle seqPeriod count ∧
      e.nextSeq.1.seq.toNat % 0x1000000 = cycle seqPeriod count := by
  have masked : ∀ number : UInt32, (number &&& 0xFFFFFF).toNat = number.toNat % 0x1000000 := by
    intro number
    rw [UInt32.toNat_and]
    exact Nat.and_two_pow_sub_one_eq_mod number.toNat 24
  have bumped : ∀ number : UInt32, (number + 1).toNat % 0x1000000 =
      (number.toNat % 0x1000000 + 1) % 0x1000000 := by
    intro number
    rw [UInt32.toNat_add]
    show (number.toNat + 1) % 0x100000000 % 0x1000000 = (number.toNat % 0x1000000 + 1) % 0x1000000
    omega
  have zero : ∀ number : UInt32, number &&& 0xFFFFFF = 0 ↔ number.toNat % 0x1000000 = 0 := by
    intro number
    rw [← masked, ← UInt32.toNat_inj]
    rfl
  have next : (e.seq + 1).toNat % 0x1000000 = (lastCycle seqPeriod count + 1) %
      (seqPeriod + 1) := by
    rw [bumped, last]
    rfl
  unfold nextSeq
  rcases cycle_of_last (show 0 < seqPeriod by decide) count with ⟨wraps, one⟩ | same
  · have wrapped : e.seq + 1 &&& 0xFFFFFF = 0 := (zero _).mpr (next.trans wraps)
    have skipped : (e.seq + 1 + 1).toNat % 0x1000000 = 1 := by
      rw [bumped, next, wraps]
    simp only [wrapped, ne_eq, not_true, if_false, masked, skipped, one, and_self]
  · have kept : e.seq + 1 &&& 0xFFFFFF ≠ 0 := by
      rw [Ne, zero, next, same]
      exact Nat.succ_ne_zero _
    simp only [if_pos kept, masked, next, same, and_self]

theorem nextTeid_of_last {count : Nat} (last : e.ctrlTeid.toNat = lastCycle teidPeriod count) :
    e.nextTeid.2.toNat = cycle teidPeriod count ∧
      e.nextTeid.1.ctrlTeid.toNat = cycle teidPeriod count := by
  have next : (e.ctrlTeid + 1).toNat = (lastCycle teidPeriod count + 1) % (teidPeriod + 1) := by
    rw [UInt32.toNat_add, last]
    rfl
  unfold nextTeid
  rcases cycle_of_last (show 0 < teidPeriod by decide) count with ⟨wraps, one⟩ | same
  · have wrapped : e.ctrlTeid + 1 = 0 := UInt32.toNat_inj.mp (next.trans wraps)
    simp [wrapped, one]
  · have kept : e.ctrlTeid + 1 ≠ 0 := by
      intro wrapped
      rw [wrapped, same] at next
      exact Nat.succ_ne_zero _ next.symm
    simp only [if_pos kept, next, same, and_self]

variable (e) (req : CreateSessionRequest)

theorem fillSequence_seq :
    (e.fillSequence req).1.seq = if req.sequence = 0 then e.nextSeq.1.seq else e.seq := by
  unfold fillSequence
  split <;> rfl

theorem nextSeq_ctrlTeid : e.nextSeq.1.ctrlTeid = e.ctrlTeid := by
  unfold nextSeq
  dsimp only
  split <;> rfl

theorem nextTeid_seq : e.nextTeid.1.seq = e.seq := by
  unfold nextTeid
  dsimp only
  split <;> rfl

theorem nextTeid_congr {e e' : Endpoint} (same : e'.ctrlTeid = e.ctrlTeid) :
    e'.nextTeid.2 = e.nextTeid.2 ∧ e'.nextTeid.1.ctrlTeid = e.nextTeid.1.ctrlTeid := by
  unfold nextTeid
  dsimp only
  rw [same]
  split <;> exact ⟨rfl, rfl⟩

theorem fillSender_eq (sf : Fteid) :
    (e.fillSender sf).1 = (if sf.teid = 0 then e.nextTeid.1 else e) ∧
      (e.fillSender sf).2.teid = if sf.teid = 0 then e.nextTeid.2 else sf.teid := by
  unfold fillSender
  dsimp only
  split_ifs <;> simp_all

theorem fillRequest_sequence :
    (e.fillRequest req).2.sequence = if req.sequence = 0 then e.nextSeq.2 else req.sequence := by
  unfold fillRequest fillSequence
  split <;> rfl

theorem fillRequest_seq :
    (e.fillRequest req).1.seq = if req.sequence = 0 then e.nextSeq.1.seq else e.seq := by
  rw [← e.fillSequence_seq req]
  show ((e.fillSequence req).1.fillSender (e.fillSequence req).2.senderFteid).1.seq = _
  rw [(fillSender_eq _ _).1]
  split
  · exact nextTeid_seq _
  · rfl

theorem fillSequence_sender :
    (e.fillSequence req).2.senderFteid = req.senderFteid ∧
      (e.fillSequence req).1.ctrlTeid = e.ctrlTeid := by
  unfold fillSequence
  split
  · exact ⟨rfl, e.nextSeq_ctrlTeid⟩
  · exact ⟨rfl, rfl⟩

theorem fillRequest_teid :
    (e.fillRequest req).2.senderFteid.teid =
      if req.senderFteid.teid = 0 then e.nextTeid.2 else req.senderFteid.teid := by
  obtain ⟨sender, counter⟩ := e.fillSequence_sender req
  show ((e.fillSequence req).1.fillSender (e.fillSequence req).2.senderFteid).2.teid = _
  rw [sender, (fillSender_eq _ _).2, (nextTeid_congr counter).1]

theorem fillRequest_ctrlTeid :
    (e.fillRequest req).1.ctrlTeid =
      if req.senderFteid.teid = 0 then e.nextTeid.1.ctrlTeid else e.ctrlTeid := by
  obtain ⟨sender, counter⟩ := e.fillSequence_sender req
  show ((e.fillSequence req).1.fillSender (e.fillSequence req).2.senderFteid).1.ctrlTeid = _
  rw [sender, (fillSender_eq _ _).1]
  split
  · exact (nextTeid_congr counter).2
  · exact counter

end Endpoint

variable {event : EndpointEvent}

theorem generatedSeq_eq_some {e : Endpoint} (generated : generatedSeq e event = some seq) :
    seq = e.nextSeq.2 := by
  cases event with
  | createSession env req host port =>
    dsimp only [generatedSeq] at generated
    split_ifs at generated with unset
    rw [← Option.some.inj generated, e.fillRequest_sequence, if_pos unset]
  | modifyBearer env id req | deleteSession env id | deleteSessionReq env id req =>
    obtain ⟨_, _, same⟩ := Option.map_eq_some_iff.mp generated
    exact same.symm
  | sendEcho env host port => exact (Option.some.inj generated).symm
  | _ => cases generated

theorem generatedTeid_eq_some {e : Endpoint} (generated : generatedTeid e event = some teid) :
    teid = e.nextTeid.2 := by
  cases event with
  | createSession env req host port =>
    dsimp only [generatedTeid] at generated
    split_ifs at generated with unset
    rw [← Option.some.inj generated, e.fillRequest_teid, if_pos unset]
  | _ => cases generated

theorem outcome_timer_counters (inet : Inet) (e : Endpoint) (env : CallEnv) (id : Nat) :
    (outcome inet e (.timer env id)).seq = e.seq ∧
      (outcome inet e (.timer env id)).ctrlTeid = e.ctrlTeid := by
  dsimp only [outcome]
  split
  · exact ⟨rfl, rfl⟩
  · split_ifs
    · split <;> exact ⟨rfl, rfl⟩
    · exact ⟨rfl, rfl⟩

theorem outcome_seq (inet : Inet) (e : Endpoint) (event : EndpointEvent) :
    (outcome inet e event).seq =
      if (generatedSeq e event).isSome then e.nextSeq.1.seq else e.seq := by
  cases event with
  | createSession env req host port =>
    show (e.fillRequest req).1.seq = _
    rw [e.fillRequest_seq req]
    by_cases unset : req.sequence = 0 <;> simp [generatedSeq, unset]
  | modifyBearer env id req | deleteSession env id | deleteSessionReq env id req =>
    cases found : e.tables.findSession id <;> simp only [outcome, generatedSeq, found] <;> rfl
  | datagram env wire host port =>
    cases response : responseHdr wire <;> simp only [outcome, response] <;> rfl
  | timer env id =>
    exact (outcome_timer_counters inet e env id).1
  | _ => rfl

theorem outcome_ctrlTeid (inet : Inet) (e : Endpoint) (event : EndpointEvent) :
    (outcome inet e event).ctrlTeid =
      if (generatedTeid e event).isSome then e.nextTeid.1.ctrlTeid else e.ctrlTeid := by
  cases event with
  | createSession env req host port =>
    show (e.fillRequest req).1.ctrlTeid = _
    rw [e.fillRequest_ctrlTeid req]
    by_cases unset : req.senderFteid.teid = 0 <;> simp [generatedTeid, unset]
  | modifyBearer env id req | deleteSession env id | deleteSessionReq env id req =>
    cases found : e.tables.findSession id with
    | none =>
      simp only [outcome, found]
      rfl
    | some s =>
      simp only [outcome, found]
      exact e.nextSeq_ctrlTeid
  | sendEcho env host port => exact e.nextSeq_ctrlTeid
  | datagram env wire host port =>
    cases response : responseHdr wire <;> simp only [outcome, response] <;> rfl
  | timer env id =>
    exact (outcome_timer_counters inet e env id).2
  | _ => rfl

section Added

variable (inet : Inet) (e : Endpoint)

theorem fillRequest_numbers (env : CallEnv) (req : CreateSessionRequest) (host : Bytes)
    (port : UInt16) :
    (generatedSeq e (.createSession env req host port) = some (e.fillRequest req).2.sequence ∨
        chosenSeq (.createSession env req host port) = some (e.fillRequest req).2.sequence) ∧
      (generatedTeid e (.createSession env req host port) =
          some (e.fillRequest req).2.senderFteid.teid ∨
        chosenTeid (.createSession env req host port) =
          some (e.fillRequest req).2.senderFteid.teid) := by
  dsimp only [generatedSeq, chosenSeq, generatedTeid, chosenTeid]
  constructor
  · by_cases unset : req.sequence = 0
    · exact .inl (if_pos unset)
    · rw [if_neg unset, if_neg unset, e.fillRequest_sequence, if_neg unset]
      exact .inr rfl
  · by_cases unset : req.senderFteid.teid = 0
    · exact .inl (if_pos unset)
    · rw [if_neg unset, if_neg unset, e.fillRequest_teid, if_neg unset]
      exact .inr rfl

theorem startTxn_added {tables changed : Tables} (txns : changed.txns = tables.txns)
    {sent : Option Bytes} {mt : UInt8}
    (member : t ∈ (changed.startTxn sent due seq mt teid host port).txns)
    (new : ∀ old ∈ tables.txns, old.id ≠ t.id) : t.seq = seq := by
  cases sent with
  | none => exact absurd rfl (new t (txns ▸ member))
  | some wire =>
    rcases Keyed.mem_put.mp member with ⟨old, _⟩ | rfl
    · exact absurd rfl (new t (txns ▸ old))
    · rfl

theorem outcome_started (member : t ∈ (outcome inet e event).tables.txns)
    (new : ∀ old ∈ e.tables.txns, old.id ≠ t.id) :
    generatedSeq e event = some t.seq ∨ chosenSeq event = some t.seq := by
  have step := outcome_tableStep inet e event
  generalize (outcome inet e event).tables = next, (outcome inet e event).undefined = lost
    at step member
  have closed : ∀ seq (closed : Tables), closed.txns = Keyed.erase Txn.seq e.tables.txns seq →
      ∀ teid change, t ∉ (closed.updateByTeid teid change).txns := by
    intro seq closed txns teid change present
    rw [(closed.updateByTeid_same teid change).1, txns] at present
    exact new t (Keyed.mem_erase.mp present).1 rfl
  cases step with
  | same | stale | purge => exact absurd rfl (new t member)
  | create sent =>
    rw [startTxn_added (by rfl) member new]
    exact (fillRequest_numbers e _ _ _ _).1
  | request sent mt asked found keeps =>
    rw [startTxn_added (by rfl) member new]
    cases event <;> cases asked <;> simp [generatedSeq, found]
  | answer read =>
    unfold Tables.answer at member
    split at member
    · exact absurd rfl (new t member)
    · exact absurd member (closed _ _ (by rfl) _ _)
  | @expire env timer ended timerMember due owned owner =>
    have resent : ∀ handle, t ∉ Keyed.modify Txn.id e.tables.txns ended.id fun t =>
        { t with sends := t.sends + 1, timerId := handle } := by
      intro handle present
      rcases Keyed.mem_modify.mp present with ⟨old, _⟩ | ⟨old, oldMember, _, rfl⟩
      · exact new t old rfl
      · exact new old oldMember rfl
    unfold Tables.expire at member
    split_ifs at member
    · exact absurd member (resent _)
    · exact absurd member (resent 0)
    · exact absurd rfl (new t member)
    · exact absurd member (closed _ _ (by rfl) _ _)

theorem outcome_created (member : s ∈ (outcome inet e event).tables.sessions)
    (new : ∀ old ∈ e.tables.sessions, old.id ≠ s.id) :
    generatedTeid e event = some s.localTeid ∨ chosenTeid event = some s.localTeid := by
  have step := outcome_tableStep inet e event
  generalize (outcome inet e event).tables = next, (outcome inet e event).undefined = lost
    at step member
  have changed : ∀ id change, KeepsIdentity change →
      s ∉ Keyed.modify Session.id e.tables.sessions id change := by
    intro id change keeps present
    rcases Keyed.mem_modify.mp present with ⟨old, _⟩ | ⟨old, oldMember, _, rfl⟩
    · exact new s old rfl
    · exact new old oldMember (keeps.id old).symm
  have answered : ∀ closed : Tables, closed.sessions = e.tables.sessions → ∀ teid change,
      KeepsIdentity change → s ∉ (closed.updateByTeid teid change).sessions := by
    intro closed sessions teid change keeps present
    unfold Tables.updateByTeid at present
    split at present
    · exact new s (sessions ▸ present) rfl
    · rw [Tables.updateSession, sessions] at present
      exact changed _ _ keeps present
  cases step with
  | same | stale => exact absurd rfl (new s member)
  | create sent =>
    rw [(Tables.startTxn_sessions _ _ _ _ _ _ _ _).1] at member
    rcases List.mem_append.mp member with old | added
    · exact absurd rfl (new s old)
    · rw [List.mem_singleton.mp added]
      exact (fillRequest_numbers e _ _ _ _).2
  | request sent mt asked found keeps =>
    rw [(Tables.startTxn_sessions _ _ _ _ _ _ _ _).1] at member
    exact absurd member (changed _ _ keeps)
  | answer read =>
    unfold Tables.answer at member
    split at member
    · exact absurd rfl (new s member)
    · exact absurd member (answered _ (by rfl) _ _ (answerChange_keepsIdentity inet _ _))
  | expire =>
    unfold Tables.expire at member
    split_ifs at member
    · exact absurd rfl (new s member)
    · exact absurd rfl (new s member)
    · exact absurd rfl (new s member)
    · exact absurd member (answered _ (by rfl) _ _ (setState_keepsIdentity .failed))
  | purge => exact absurd rfl (new s (Tables.mem_purge.mp member).1)

end Added

/-- An endpoint with how many numbers of each kind it has generated, and how many
it had when each identity was given. -/
structure Ledger where
  endpoint : Endpoint
  sequences : Nat
  teids : Nat
  since : Nat → Nat × Nat

def ledgerNew (localHost : Bytes) (localIpv4 : Bool) : Ledger where
  endpoint := endpointNew localHost localIpv4
  sequences := 0
  teids := 0
  since := fun _ => (0, 0)

def ledgerStep (inet : Inet) (ledger : Ledger) (event : EndpointEvent) : Ledger :=
  let sequences := ledger.sequences + (generatedSeq ledger.endpoint event).toList.length
  let teids := ledger.teids + (generatedTeid ledger.endpoint event).toList.length
  { endpoint := endpointStep inet ledger.endpoint event
    sequences := sequences
    teids := teids
    since := fun id =>
      if id < ledger.endpoint.tables.fresh then ledger.since id else (sequences, teids) }

/-- Fewer numbers have been generated since then than come before this one; for one
that was itself generated then, a period less one. -/
def BeforeTurn (period started count : Nat) (number : UInt32) : Prop :=
  number.toNat ≤ period → count - started < ahead period started number.toNat

instance (period started count : Nat) (number : UInt32) :
    Decidable (BeforeTurn period started count number) :=
  inferInstanceAs (Decidable (_ → _))

/-- A caller does not choose an outstanding sequence number, and no transaction and
no live session is there until its number comes again. -/
def NumbersKept (ledger : Ledger) (event : EndpointEvent) : Prop :=
  (∀ t ∈ ledger.endpoint.tables.txns, chosenSeq event ≠ some t.seq) ∧
    ((generatedSeq ledger.endpoint event).isSome → ∀ t ∈ ledger.endpoint.tables.txns,
        BeforeTurn seqPeriod (ledger.since t.id).1 ledger.sequences t.seq) ∧
    ((generatedTeid ledger.endpoint event).isSome → ∀ s ∈ ledger.endpoint.tables.sessions, s.Live →
        BeforeTurn teidPeriod (ledger.since s.id).2 ledger.teids s.localTeid)

instance (ledger : Ledger) (event : EndpointEvent) : Decidable (NumbersKept ledger event) :=
  inferInstanceAs (Decidable (_ ∧ _ ∧ _))

/-- The allocators stand where the counts say, and no identity was given later than
now. -/
structure Ledger.Counts (ledger : Ledger) : Prop where
  seq : ledger.endpoint.seq.toNat % 0x1000000 = lastCycle seqPeriod ledger.sequences
  ctrlTeid : ledger.endpoint.ctrlTeid.toNat = lastCycle teidPeriod ledger.teids
  since : ∀ id, (ledger.since id).1 ≤ ledger.sequences ∧ (ledger.since id).2 ≤ ledger.teids

theorem Ledger.Counts.numbersApart {ledger : Ledger} (counts : ledger.Counts)
    (kept : NumbersKept ledger event) (inet : Inet)
    (defined : ledger.endpoint.undefined = false) :
    NumbersApart inet ledger.endpoint event := by
  obtain ⟨_, keptSeqs, keptTeids⟩ := kept
  have tables := (endpointStep_quiet inet defined event).tables
  constructor
  · intro t member generated
    have newest := (Endpoint.nextSeq_of_last counts.seq).1
    rw [← generatedSeq_eq_some generated] at newest
    exact cycle_ne_of_ahead (by decide) (counts.since t.id).1
      (keptSeqs (Option.isSome_of_mem generated) t member) newest.symm
  · intro s member live generated
    have newest := (Endpoint.nextTeid_of_last counts.ctrlTeid).1
    rw [← generatedTeid_eq_some generated] at newest
    exact cycle_ne_of_ahead (by decide) (counts.since s.id).2
      (keptTeids (Option.isSome_of_mem generated) s member live) newest.symm
  · rw [tables]
    exact fun t => outcome_started inet ledger.endpoint
  · rw [tables]
    exact fun s => outcome_created inet ledger.endpoint

theorem NumbersKept.startsFresh (kept : NumbersKept ledger event)
    (apart : ∀ t ∈ ledger.endpoint.tables.txns, generatedSeq ledger.endpoint event ≠ some t.seq) :
    StartsFresh ledger.endpoint event := by
  intro t member started
  cases event with
  | createSession env req host port =>
    obtain ⟨seq, _⟩ := fillRequest_numbers ledger.endpoint env req host port
    rw [show (ledger.endpoint.fillRequest req).2.sequence = t.seq from Option.some.inj started]
      at seq
    exact seq.elim (apart t member) (kept.1 t member)
  | modifyBearer env id req => exact apart t member started
  | deleteSession env id => exact apart t member started
  | deleteSessionReq env id req => exact apart t member started
  | _ => cases started

theorem Ledger.Counts.step {ledger : Ledger} (counts : ledger.Counts)
    (defined : ledger.endpoint.undefined = false) (inet : Inet) (event : EndpointEvent) :
    (ledgerStep inet ledger event).Counts := by
  have quiet := endpointStep_quiet inet defined event
  have seqAfter := quiet.seq.trans (outcome_seq inet ledger.endpoint event)
  have teidAfter := quiet.ctrlTeid.trans (outcome_ctrlTeid inet ledger.endpoint event)
  refine ⟨?_, ?_, fun id => ?_⟩ <;> dsimp only [ledgerStep]
  · rw [seqAfter]
    cases generatedSeq ledger.endpoint event with
    | none => exact counts.seq
    | some seq => exact (Endpoint.nextSeq_of_last counts.seq).2
  · rw [teidAfter]
    cases generatedTeid ledger.endpoint event with
    | none => exact counts.ctrlTeid
    | some teid => exact (Endpoint.nextTeid_of_last counts.ctrlTeid).2
  · obtain ⟨sequences, teids⟩ := counts.since id
    split_ifs
    · exact ⟨Nat.le_add_right_of_le sequences, Nat.le_add_right_of_le teids⟩
    · exact ⟨le_rfl, le_rfl⟩

/-- In a run that keeps its numbers apart nothing generated is in use, and every
armed timer is for an outstanding transaction. -/
theorem numbersApart_of_kept (inet : Inet) (localHost : Bytes) (localIpv4 : Bool)
    {events : List EndpointEvent}
    (kept : EveryStep (ledgerStep inet) NumbersKept (ledgerNew localHost localIpv4) events) :
    EveryStep (endpointStep inet) (NumbersApart inet) (endpointNew localHost localIpv4) events ∧
      EveryState (endpointStep inet) (fun e => e.undefined = false ∧ e.tables.TimersLive)
        (endpointNew localHost localIpv4) events := by
  have initial : (ledgerNew localHost localIpv4).Counts ∧
      (ledgerNew localHost localIpv4).endpoint.Sound :=
    ⟨⟨rfl, rfl, fun _ => ⟨le_rfl, le_rfl⟩⟩, endpointNew_sound localHost localIpv4⟩
  have keeps : ∀ ledger event, ledger.Counts ∧ ledger.endpoint.Sound → NumbersKept ledger event →
      (ledgerStep inet ledger event).Counts ∧ (ledgerStep inet ledger event).endpoint.Sound := by
    rintro ledger event ⟨counts, sound⟩ fine
    have apart := counts.numbersApart fine inet sound.defined
    exact ⟨counts.step sound.defined inet event, sound.step inet (fine.startsFresh apart.sequences)⟩
  have apart : EveryStep (ledgerStep inet) (fun ledger => NumbersApart inet ledger.endpoint)
      (ledgerNew localHost localIpv4) events :=
    EveryStep.of_step keeps
      (fun ledger event held fine => held.1.numbersApart fine inet held.2.defined) initial kept
  have live : EveryState (ledgerStep inet) (fun ledger =>
      ledger.endpoint.undefined = false ∧ ledger.endpoint.tables.TimersLive)
      (ledgerNew localHost localIpv4) events :=
    (EveryState.of_step keeps initial kept).mono fun ledger held => ⟨held.2.defined, held.2.live⟩
  have states : EveryState (endpointStep inet) (fun e => e.undefined = false ∧ e.tables.TimersLive)
      (ledgerNew localHost localIpv4).endpoint events :=
    EveryState.project (fun _ _ => rfl) live
  exact ⟨apart.project fun _ _ => rfl, states⟩

theorem attach_twice_numbersApart :
    EveryStep (endpointStep twoHosts) (NumbersApart twoHosts) (endpointNew localAddress true)
        [.createSession .works attach peerAddress 2123,
          .createSession .works { attach with sequence := 9 } peerAddress 2123,
          .deleteSession .works 1, .purge] ∧
      EveryState (endpointStep twoHosts)
        (fun e => e.undefined = false ∧ e.tables.TimersLive) (endpointNew localAddress true)
        [.createSession .works attach peerAddress 2123,
          .createSession .works { attach with sequence := 9 } peerAddress 2123,
          .deleteSession .works 1, .purge] :=
  numbersApart_of_kept twoHosts localAddress true
    ⟨by decide, by decide +kernel, by decide +kernel, by decide +kernel, trivial⟩

/-- The first generated number is the one an earlier caller chose: the earlier
transaction is destroyed while its timer stays, and the timer then fires for it. -/
theorem chosen_number_generated :
    (runTwoHosts [.createSession .works { attach with sequence := 1 } peerAddress
        2123]).nextSeq.2 = 1 ∧
      (runTwoHosts [.createSession .works { attach with sequence := 1 } peerAddress 2123,
        .createSession .works attach peerAddress 2123]).tables.txns.map Txn.id = [5] ∧
      (runTwoHosts [.createSession .works { attach with sequence := 1 } peerAddress 2123,
        .createSession .works attach peerAddress 2123]).tables.timers.map T3Timer.txn = [2, 5] ∧
      (runTwoHosts [.createSession .works { attach with sequence := 1 } peerAddress 2123,
        .createSession .works attach peerAddress 2123,
        .timer ⟨.sent, true, 3000⟩ 3]).undefined = true := by
  decide +kernel

end Pro2Call.Gtp2

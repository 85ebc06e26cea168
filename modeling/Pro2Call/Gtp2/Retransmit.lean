import Pro2Call.Gtp2.TeidIndex
import Pro2Call.Gtp2.Waiting

namespace Pro2Call.Gtp2

open Pro2Call.Data

def firing (e : Endpoint) (txn : Nat) : EndpointEvent → Option CallEnv
  | .timer env id =>
    if ∃ timer ∈ e.tables.timers, timer.id = id ∧ timer.txn = txn ∧ timer.due ≤ env.now then
      some env
    else none
  | _ => none

def Answers (seq : UInt32) : EndpointEvent → Prop
  | .datagram _ wire _ _ => ∃ h ∈ responseHdr wire, h.sequence = seq
  | _ => False

/-- Nothing is left that could send the request again or report its timeout. -/
def Tables.Gone (tables : Tables) (txn : Nat) : Prop :=
  (∀ t ∈ tables.txns, t.id ≠ txn) ∧ ∀ timer ∈ tables.timers, timer.txn ≠ txn

def Output.isSent : Output → Bool
  | .sent _ _ _ => true
  | _ => false

/-- `speaks` for an event that may send a message of its own; a timeout is no
event's own. -/
def Output.Own (speaks : Bool) : Output → Prop
  | .sent _ _ _ => speaks = true
  | .called (.timeout _ _) => False
  | _ => True

def Output.Of (t : Txn) : Output → Prop
  | .sent wire host port => wire = t.wire ∧ host = t.host ∧ port = t.port
  | .called call => ∃ session, call = .timeout session t.mt
  | .threw _ => True

/-- The log grows by such outputs, `sends` messages at most among them. -/
def Endpoint.Adds (sends : Nat) (such : Output → Prop) (e e' : Endpoint) : Prop :=
  ∃ outputs, e'.log = e.log ++ outputs ∧ outputs.countP Output.isSent ≤ sends ∧
    ∀ output ∈ outputs, such output

/-- The calls that send a message, and an Echo Request, which is answered. -/
def EndpointEvent.speaks : EndpointEvent → Bool
  | .createSession _ _ _ _ | .modifyBearer _ _ _ | .deleteSession _ _ | .deleteSessionReq _ _ _
  | .sendEcho _ _ _ | .sendRaw _ _ _ _ => true
  | .datagram _ wire _ _ => echoes wire
  | _ => false
where
  echoes (wire : Bytes) : Bool :=
    match gtp2HdrDecode wire with
    | .ok (h, _) => h.messageType = mtEchoRequest
    | .error _ => false

/-- The event sends nothing and reports nothing for the transaction: what it puts in
the log, one message at most, is its own or that of another transaction whose timer
runs out. -/
def Aside (inet : Inet) (txn : Nat) (e : Endpoint) (event : EndpointEvent) : Prop :=
  e.Adds 1 (Output.Own event.speaks) (endpointStep inet e event) ∨
    ∃ t ∈ e.tables.txns, t.id ≠ txn ∧ (firing e t.id event).isSome ∧
      e.Adds 1 (Output.Of t) (endpointStep inet e event)

/-- What a run does with a request that has been sent `t.sends` times, the last
time at `last`. -/
inductive Life (inet : Inet) (session : Nat) : Txn → Nat → Endpoint → List EndpointEvent → Prop
  | waits : e.tables.Waits t (last + e.t3Ms) → t.sends ≤ max 1 e.n3 → Life inet session t last e []
  | other : e.tables.Waits t (last + e.t3Ms) → firing e t.id event = none → ¬ Answers t.seq event →
      Aside inet t.id e event →
      Life inet session t last (endpointStep inet e event) rest →
      Life inet session t last e (event :: rest)
  | again : firing e t.id event = some env → last + e.t3Ms ≤ env.now → t.sends < max 1 e.n3 →
      (endpointStep inet e event).log = e.log ++ [.sent t.wire t.host t.port] →
      Life inet session { t with sends := t.sends + 1, timerId := handle } env.now
        (endpointStep inet e event) rest →
      Life inet session t last e (event :: rest)
  | answered : Answers t.seq event → Aside inet t.id e event →
      EveryState (endpointStep inet) (fun e => e.tables.Gone t.id) (endpointStep inet e event)
        rest →
      EveryStep (endpointStep inet) (Aside inet t.id) (endpointStep inet e event) rest →
      Life inet session t last e (event :: rest)
  | timeout : firing e t.id event = some env → last + e.t3Ms ≤ env.now → t.sends = max 1 e.n3 →
      (endpointStep inet e event).log =
        e.log ++ (if e.handler then [.called (.timeout session t.mt)] else []) →
      (∃ s ∈ (endpointStep inet e event).tables.sessions, s.id = session ∧ s.state = .failed) →
      EveryState (endpointStep inet) (fun e => e.tables.Gone t.id) (endpointStep inet e event)
        rest →
      EveryStep (endpointStep inet) (Aside inet t.id) (endpointStep inet e event) rest →
      Life inet session t last e (event :: rest)

def setsTiming : EndpointEvent → Bool
  | .setT3Ms _ | .setN3 _ => true
  | _ => false

/-- The numbers of outstanding requests are not given again, T3 and N3 stay, and
when the timer of the transaction runs out the request can be sent, its timer
armed, and its TEID resolves to the session it is for. -/
def Steady (txn session : Nat) (e : Endpoint) (event : EndpointEvent) : Prop :=
  StartsFresh e event ∧ setsTiming event = false ∧
    ∀ env ∈ firing e txn event, env.send = .sent ∧ env.arm = true ∧
      ∀ t ∈ e.tables.txns, t.id = txn → ∃ s ∈ e.tables.sessionByTeid t.sessionTeid, s.id = session

instance (txn session : Nat) (e : Endpoint) (event : EndpointEvent) :
    Decidable (Steady txn session e event) :=
  inferInstanceAs (Decidable (_ ∧ _ ∧ ∀ env ∈ _, _ ∧ _ ∧ ∀ t ∈ e.tables.txns, _ → ∃ s ∈ _, _))

theorem firing_eq_some {e : Endpoint} {txn : Nat} :
    firing e txn event = some env ↔ ∃ timer ∈ e.tables.timers, event = .timer env timer.id ∧
      timer.txn = txn ∧ timer.due ≤ env.now := by
  constructor
  · intro fired
    cases event with
    | timer env' id =>
      dsimp only [firing] at fired
      split_ifs at fired with armed
      obtain ⟨timer, member, rfl, owner, due⟩ := armed
      obtain rfl := Option.some.inj fired
      exact ⟨timer, member, rfl, owner, due⟩
    | _ => cases fired
  · rintro ⟨timer, member, rfl, owner, due⟩
    exact if_pos ⟨timer, member, rfl, owner, due⟩

namespace Endpoint

variable {such : Output → Prop} {e : Endpoint}

theorem Adds.of_same {e' : Endpoint} (same : e'.log = e.log) : e.Adds sends such e' :=
  ⟨[], by simp [same], by simp, by simp⟩

theorem Adds.trans {middle last : Endpoint} (left : e.Adds first such middle)
    (right : middle.Adds second such last) : e.Adds (first + second) such last := by
  obtain ⟨before, grown, few, fine⟩ := left
  obtain ⟨after, grown', few', fine'⟩ := right
  refine ⟨before ++ after, by rw [grown', grown, List.append_assoc], ?_, ?_⟩
  · rw [List.countP_append]
    exact Nat.add_le_add few few'
  · intro output member
    exact (List.mem_append.mp member).elim (fine output) (fine' output)

theorem Adds.mono (adds : e.Adds sends such e') (le : sends ≤ more) : e.Adds more such e' := by
  obtain ⟨outputs, grown, few, fine⟩ := adds
  exact ⟨outputs, grown, few.trans le, fine⟩

theorem Adds.of_log {same e' : Endpoint} (log : same.log = e.log)
    (adds : same.Adds sends such e') : e.Adds sends such e' := by
  unfold Adds at adds ⊢
  rwa [log] at adds

theorem adds_call (calls : List HandlerCall) (fine : ∀ call ∈ calls, such (.called call)) :
    e.Adds 0 such (e.call calls) := by
  unfold call
  split
  · refine ⟨_, rfl, ?_, ?_⟩
    · rw [List.countP_eq_zero.mpr]
      intro output member
      obtain ⟨_, _, rfl⟩ := List.mem_map.mp member
      exact Bool.false_ne_true
    · intro output member
      obtain ⟨call, called, rfl⟩ := List.mem_map.mp member
      exact fine call called
  · exact .of_same rfl

theorem Adds.settle {result : Endpoint × Option GtpError}
    (adds : e.Adds sends such result.1) (fine : ∀ err, such (.threw err)) :
    e.Adds sends such (.settle result) := by
  obtain ⟨e', _ | err⟩ := result
  · exact adds
  · have thrown : e'.Adds 0 such (e'.emit [.threw err]) :=
      ⟨_, rfl, by simp [Output.isSent], by simpa using fine err⟩
    exact adds.trans thrown

theorem adds_sendTo (env : CallEnv) (wire host : Bytes) (port : UInt16)
    (fine : such (.sent wire host port)) : e.Adds 1 such (e.sendTo env wire host port).1 := by
  unfold sendTo
  split
  · exact ⟨_, rfl, by simp [Output.isSent], by simpa using fine⟩
  · exact .of_same rfl
  · exact .of_same rfl

theorem sendTo_adds (env : CallEnv) (wire host : Bytes) (port : UInt16)
    (fine : such (.sent wire host port)) :
    ∃ next err, e.sendTo env wire host port = (next, err) ∧ e.Adds 1 such next :=
  ⟨_, _, rfl, adds_sendTo env wire host port fine⟩

theorem nextSeq_log (e : Endpoint) : e.nextSeq.1.log = e.log := by
  unfold nextSeq
  dsimp only
  split <;> rfl

theorem fillRequest_log (e : Endpoint) (req : CreateSessionRequest) :
    (e.fillRequest req).1.log = e.log := by
  have numbered : (e.fillSequence req).1.log = e.log := by
    unfold fillSequence
    split
    · exact e.nextSeq_log
    · rfl
  rw [← numbered]
  unfold fillRequest fillSender nextTeid
  dsimp only
  repeat' split
  all_goals rfl

theorem adds_startEncoded (env : CallEnv) (seq : UInt32) (mt : UInt8)
    (encoded : Except GtpError Bytes) (teid : UInt32) (host : Bytes) (port : UInt16) :
    e.Adds 1 (Output.Own true) (e.startEncoded env seq mt encoded teid host port).1 := by
  cases encoded with
  | error err => exact .of_same rfl
  | ok wire =>
    obtain ⟨next, err, result, adds⟩ : ∃ next err, _ ∧ e.Adds 1 (Output.Own true) next :=
      sendTo_adds env wire host port rfl
    dsimp only [startEncoded, startTxn]
    rw [result]
    cases err with
    | some err => exact adds
    | none =>
      dsimp only
      split
      · exact adds
      · exact adds

theorem adds_sendEcho (env : CallEnv) (host : Bytes) (port : UInt16) :
    e.Adds 1 (Output.Own true) (e.sendEcho env host port).1 := by
  unfold sendEcho
  split
  · exact .of_same e.nextSeq_log
  · exact .of_log e.nextSeq_log (adds_sendTo env _ host port rfl)

variable {speaks : Bool}

theorem adds_applyResponse (inet : Inet) (wire : Bytes) (h : Gtp2Hdr) (s : Session) :
    e.Adds 0 (Output.Own speaks) (e.applyResponse inet wire h s).1 := by
  have tunnels : ∀ (first : HandlerCall) (accepted : Prop) [Decidable accepted]
      (tunnels : List UserPlaneTunnel), Output.Own speaks (.called first) →
      ∀ call ∈ first :: (if accepted then tunnels.map (.userPlane s.id) else []),
        Output.Own speaks (.called call) := by
    intro first accepted _ tunnels own call member
    rcases List.mem_cons.mp member with rfl | member
    · exact own
    · split_ifs at member
      · obtain ⟨_, _, rfl⟩ := List.mem_map.mp member
        trivial
      · cases member
  unfold applyResponse
  split_ifs
  · split
    · exact .of_same rfl
    · exact adds_call _ (tunnels _ _ _ trivial)
  · split
    · exact .of_same rfl
    · exact adds_call _ (tunnels _ _ _ trivial)
  · split
    · exact .of_same rfl
    · exact adds_call _ (by simp [Output.Own])
  · exact .of_same rfl

theorem adds_handleResponse (inet : Inet) (wire : Bytes) (h : Gtp2Hdr) :
    e.Adds 0 (Output.Own speaks) (e.handleResponse inet wire h).1 := by
  unfold handleResponse
  split
  · exact .of_same rfl
  · dsimp only
    split
    · exact .of_same rfl
    · exact .of_log rfl (adds_applyResponse inet wire h _)

theorem adds_onRequest (decoded : Except GtpError Request)
    (toCall : Request → HandlerCall) (own : ∀ req, Output.Own speaks (.called (toCall req))) :
    e.Adds 0 (Output.Own speaks) (e.onRequest decoded toCall).1 := by
  unfold onRequest
  split
  · split
    · exact .of_same rfl
    · exact adds_call _ (by simpa using own _)
  · exact .of_same rfl

theorem adds_dispatch (inet : Inet) (env : CallEnv) (wire : Bytes) (h : Gtp2Hdr) (host : Bytes)
    (port : UInt16) :
    e.Adds 1 (Output.Own (h.messageType = mtEchoRequest))
      (e.dispatch inet env wire h host port).1 := by
  unfold dispatch
  by_cases echo : h.messageType = mtEchoRequest
  · rw [if_pos echo]
    split
    · exact .of_same rfl
    next answer encoded =>
      obtain ⟨next, err, result, adds⟩ :
          ∃ next err, _ ∧ e.Adds 1 (Output.Own (h.messageType = mtEchoRequest)) next :=
        sendTo_adds env answer host port (by simp [Output.Own, echo])
      rw [result]
      cases err with
      | some err => exact adds
      | none => exact adds.trans (adds_call _ (by simp [Output.Own]))
  · rw [if_neg echo]
    refine Adds.mono ?_ (Nat.zero_le 1)
    split_ifs
    · exact adds_call _ (by simp [Output.Own])
    · have adds : e.Adds 0 (Output.Own (h.messageType = mtEchoRequest))
          (e.handleResponse inet wire h).1 := adds_handleResponse inet wire h
      cases result : e.handleResponse inet wire h with
      | mk next outcome =>
        rw [result] at adds
        match outcome with
        | .error err => exact adds
        | .ok true => exact adds
        | .ok false => exact adds.trans (adds_call _ (by simp [Output.Own]))
    · exact adds_onRequest _ _ fun _ => trivial
    · exact adds_onRequest _ _ fun _ => trivial
    · exact adds_onRequest _ _ fun _ => trivial
    · exact adds_onRequest _ _ fun _ => trivial
    · exact adds_call _ (by simp [Output.Own])

theorem adds_onTxnTimer (env : CallEnv) (t : Txn) :
    e.Adds 1 (Output.Of t) (e.onTxnTimer env t).1 := by
  unfold onTxnTimer
  by_cases again : t.sends < e.n3
  · obtain ⟨next, err, result, adds⟩ : ∃ next err, _ ∧ e.Adds 1 (Output.Of t) next :=
      sendTo_adds env t.wire t.host t.port ⟨rfl, rfl, rfl⟩
    rw [if_pos again, result]
    cases err with
    | some err => exact adds
    | none =>
      dsimp only
      split
      · exact adds
      · exact adds
  · rw [if_neg again]
    refine Adds.mono ?_ (Nat.zero_le 1)
    dsimp only
    split
    · exact .of_same rfl
    · exact .of_log rfl (adds_call _ (by simp [Output.Of]))

theorem own_threw (err : GtpError) : Output.Own speaks (.threw err) := trivial

theorem adds_onSession (id : Nat) {act : Session → Endpoint × Option GtpError}
    (adds : ∀ s, e.Adds 1 (Output.Own true) (act s).1) :
    e.Adds 1 (Output.Own true) (e.onSession id act) := by
  unfold onSession
  split
  · exact .of_same rfl
  · exact (adds _).settle own_threw

theorem adds_deleteSessionReq (inet : Inet) (env : CallEnv) (s : Session)
    (req : DeleteSessionRequest) :
    e.Adds 1 (Output.Own true) (e.deleteSessionReq inet env s req).1 :=
  .of_log e.nextSeq_log (adds_startEncoded _ _ _ _ _ _ _)

theorem fireTimer_aside {id : Nat} (idle : firing e txn (.timer env id) = none) :
    e.Adds 1 (Output.Own false) (settle (e.fireTimer env id)) ∨
      ∃ t ∈ e.tables.txns, t.id ≠ txn ∧ (firing e t.id (.timer env id)).isSome ∧
        e.Adds 1 (Output.Of t) (settle (e.fireTimer env id)) := by
  dsimp only [fireTimer]
  split
  · exact .inl (.of_same rfl)
  next timer armed =>
    obtain ⟨timerMember, rfl⟩ := Keyed.mem_of_find armed
    split_ifs with due
    · split
      · exact .inl (.of_same rfl)
      next t found =>
        obtain ⟨member, owner⟩ := Keyed.mem_of_find found
        have fires := firing_eq_some.mpr ⟨timer, timerMember, rfl, owner.symm, due⟩
        refine .inr ⟨t, member, ?_, Option.isSome_of_mem fires, ?_⟩
        · rintro rfl
          rw [idle] at fires
          cases fires
        · exact .settle (.of_log rfl (adds_onTxnTimer env t)) fun _ => trivial
    · exact .inl (.of_same rfl)

end Endpoint

open Endpoint in
theorem endpointStep_aside (inet : Inet) (sound : e.Sound) (idle : firing e txn event = none) :
    Aside inet txn e event := by
  unfold Aside endpointStep
  rw [if_neg (by simp [sound.defined])]
  cases event with
  | createSession env req host port =>
    exact .inl (.settle (.of_log (e.fillRequest_log req) (adds_startEncoded _ _ _ _ _ _ _))
      own_threw)
  | modifyBearer env id req =>
    exact .inl (adds_onSession _ fun s =>
      .of_log e.nextSeq_log (adds_startEncoded _ _ _ _ _ _ _))
  | deleteSession env id =>
    exact .inl (adds_onSession _ fun s => adds_deleteSessionReq inet env s _)
  | deleteSessionReq env id req =>
    exact .inl (adds_onSession _ fun s => adds_deleteSessionReq inet env s req)
  | sendEcho env host port => exact .inl ((adds_sendEcho env host port).settle own_threw)
  | sendRaw env wire host port =>
    exact .inl (.settle (adds_sendTo env wire host port rfl) own_threw)
  | datagram env wire host port =>
    refine .inl (.settle ?_ own_threw)
    dsimp only [handleDatagram, EndpointEvent.speaks, EndpointEvent.speaks.echoes]
    cases gtp2HdrDecode wire with
    | error err => exact .of_same rfl
    | ok read => exact adds_dispatch inet env wire read.1 host port
  | timer env id => exact fireTimer_aside idle
  | _ => exact .inl (.of_same rfl)

theorem Endpoint.timing_onTables (e counted : Endpoint) (change : Tables → Tables) :
    ((e.withCounters counted).onTables change).t3Ms = e.t3Ms ∧
      ((e.withCounters counted).onTables change).n3 = e.n3 :=
  ⟨rfl, rfl⟩

theorem outcome_timing (inet : Inet) (e : Endpoint) (stays : setsTiming event = false) :
    (outcome inet e event).t3Ms = e.t3Ms ∧ (outcome inet e event).n3 = e.n3 := by
  fun_cases outcome inet e event
  all_goals first
    | exact e.timing_onTables _ _
    | exact ⟨rfl, rfl⟩
    | cases stays

section Absent

/-- The identity was given, and no transaction has it. -/
def Tables.Absent (tables : Tables) (txn : Nat) : Prop :=
  txn < tables.fresh ∧ ∀ t ∈ tables.txns, t.id ≠ txn

variable {tables : Tables} {txn : Nat}

theorem Tables.Absent.of_ids (absent : tables.Absent txn) {other : Tables}
    (fresh : tables.fresh ≤ other.fresh)
    (ids : ∀ t ∈ other.txns, t.id ∈ tables.txns.map Txn.id) : other.Absent txn := by
  refine ⟨absent.1.trans_le fresh, fun t member same => ?_⟩
  obtain ⟨old, oldMember, sameId⟩ := List.mem_map.mp (ids t member)
  exact absent.2 old oldMember (sameId.trans same)

theorem Tables.Absent.startTxn (absent : tables.Absent txn) (sent : Option Bytes) (due : Nat)
    (seq : UInt32) (mt : UInt8) (teid : UInt32) (host : Bytes) (port : UInt16) :
    (tables.startTxn sent due seq mt teid host port).Absent txn := by
  cases sent with
  | none => exact absent
  | some wire =>
    refine ⟨Nat.lt_add_right 2 absent.1, fun t member => ?_⟩
    rcases Keyed.mem_put.mp member with ⟨old, _⟩ | rfl
    · exact absent.2 t old
    · exact absent.1.ne'

theorem Tables.Absent.updateByTeid (absent : tables.Absent txn) (teid : UInt32)
    (change : Session → Session) : (tables.updateByTeid teid change).Absent txn := by
  unfold Tables.updateByTeid
  split
  · exact absent
  · exact absent

theorem Tables.Waits.absent_of_erase (waits : tables.Waits t due) (wf : tables.TxnsWf)
    {other : Tables} (fresh : other.fresh = tables.fresh)
    (txns : other.txns = Keyed.erase Txn.seq tables.txns t.seq) : other.Absent t.id := by
  refine ⟨fresh ▸ (wf.below t waits.outstanding).1, fun t' member same => ?_⟩
  obtain ⟨old, otherSeq⟩ := Keyed.mem_erase.mp (txns ▸ member)
  exact otherSeq (congrArg Txn.seq (wf.ids.eq_of_key old waits.outstanding same))

theorem Tables.Absent.expire (absent : tables.Absent txn) (env : CallEnv) (t3Ms n3 : Nat)
    (t : Txn) :
    (tables.expire env t3Ms n3 t).Absent txn := by
  have resent : ∀ handle, ∀ t' ∈ Keyed.modify Txn.id tables.txns t.id fun t =>
      { t with sends := t.sends + 1, timerId := handle }, t'.id ∈ tables.txns.map Txn.id := by
    intro handle t' member
    rcases Keyed.mem_modify.mp member with ⟨old, _⟩ | ⟨old, present, _, rfl⟩
    · exact List.mem_map_of_mem old
    · exact List.mem_map.mpr ⟨old, present, rfl⟩
  unfold Tables.expire
  split_ifs
  · exact absent.of_ids (Nat.le_succ _) (resent _)
  · exact absent.of_ids le_rfl (resent 0)
  · exact absent
  · refine Tables.Absent.updateByTeid ?_ _ _
    exact ⟨absent.1, fun t' member => absent.2 t' (Keyed.mem_erase.mp member).1⟩

theorem Tables.Absent.answer (absent : tables.Absent txn) (inet : Inet) (wire : Bytes)
    (h : Gtp2Hdr) : (tables.answer inet wire h).Absent txn := by
  unfold Tables.answer
  split
  · exact absent
  · refine Tables.Absent.updateByTeid ?_ _ _
    exact ⟨absent.1, fun t' member => absent.2 t' (Keyed.mem_erase.mp member).1⟩

theorem outcome_absent (inet : Inet) {e : Endpoint} (absent : e.tables.Absent txn)
    (event : EndpointEvent) : (outcome inet e event).tables.Absent txn := by
  have step := outcome_tableStep inet e event
  generalize (outcome inet e event).tables = next, (outcome inet e event).undefined = lost at step ⊢
  cases step with
  | create sent =>
    refine Tables.Absent.startTxn ?_ _ _ _ _ _ _ _
    exact ⟨Nat.lt_succ_of_lt absent.1, absent.2⟩
  | request sent mt asked found keeps =>
    refine Tables.Absent.startTxn ?_ _ _ _ _ _ _ _
    exact absent
  | answer read => exact absent.answer inet _ _
  | expire timerMember due member owner =>
    refine Tables.Absent.expire ?_ _ _ _ _
    exact absent
  | _ => exact absent

end Absent

theorem Endpoint.Sound.gone {e : Endpoint} (sound : e.Sound) (absent : e.tables.Absent txn) :
    e.tables.Gone txn := by
  refine ⟨absent.2, fun timer member same => ?_⟩
  obtain ⟨t, present, owner⟩ := sound.live timer member
  exact absent.2 t present (owner.trans same)

theorem firing_of_gone {e : Endpoint} (gone : e.tables.Gone txn) (event : EndpointEvent) :
    firing e txn event = none := by
  refine Option.eq_none_iff_forall_ne_some.mpr fun env fires => ?_
  obtain ⟨timer, member, _, owner, _⟩ := firing_eq_some.mp fires
  exact gone.2 timer member owner

theorem everyState_gone (inet : Inet) {e : Endpoint} (sound : e.Sound)
    (absent : e.tables.Absent txn)
    (steady : EveryStep (endpointStep inet) (Steady txn session) e events) :
    EveryState (endpointStep inet) (fun e => e.tables.Gone txn) e events ∧
      EveryStep (endpointStep inet) (Aside inet txn) e events := by
  have keeps : ∀ e event, e.Sound ∧ e.tables.Absent txn → Steady txn session e event →
      (endpointStep inet e event).Sound ∧ (endpointStep inet e event).tables.Absent txn := by
    rintro e event ⟨sound, absent⟩ fine
    refine ⟨sound.step inet fine.1, ?_⟩
    rw [(endpointStep_quiet inet sound.defined event).tables]
    exact outcome_absent inet absent event
  constructor
  · exact (EveryState.of_step keeps ⟨sound, absent⟩ steady).mono fun e ⟨sound, absent⟩ =>
      sound.gone absent
  · refine EveryStep.of_step keeps ?_ ⟨sound, absent⟩ steady
    rintro e event ⟨sound, absent⟩ _
    exact endpointStep_aside inet sound (firing_of_gone (sound.gone absent) event)

section Waiting

variable {e : Endpoint} (sound : e.Sound) (waits : e.tables.Waits t due)

include sound waits

theorem Tables.Waits.answered (inet : Inet) (answers : Answers t.seq event) :
    (endpointStep inet e event).tables.Absent t.id := by
  have wf := sound.wellFormed.txns
  rw [(endpointStep_quiet inet sound.defined event).tables]
  cases event with
  | datagram env wire host port =>
    obtain ⟨h, read, same⟩ := answers
    have found : e.tables.findTxn h.sequence = some t :=
      wf.findTxn.mpr ⟨waits.outstanding, same.symm⟩
    have erased : ((e.tables.eraseTxn h.sequence).cancelTimer t.timerId).Absent t.id := by
      rw [same]
      exact waits.absent_of_erase wf rfl rfl
    simpa [outcome, Option.mem_def.mp read, Tables.answer, found] using erased.updateByTeid _ _
  | _ => cases answers

theorem Tables.Waits.step (inet : Inet) (fresh : StartsFresh e event)
    (idle : firing e t.id event = none) (unanswered : ¬ Answers t.seq event) :
    (endpointStep inet e event).tables.Waits t due := by
  have wf := sound.wellFormed.txns
  rw [(endpointStep_quiet inet sound.defined event).tables]
  have step := outcome_tableStep inet e event
  generalize (outcome inet e event).tables = next, (outcome inet e event).undefined = lost at step ⊢
  cases step with
  | same _ => exact waits
  | create sent => exact waits.startTxn (by rfl) (by rfl) (fresh.unused rfl) _ _ _ _ _ _
  | request sent mt asked found keeps =>
    have unused := fresh.unused (startedSeq_requestOn asked found)
    exact waits.startTxn (by rfl) (by rfl) unused _ _ _ _ _ _
  | @answer _ wire _ _ h read =>
    unfold Tables.answer
    cases found : e.tables.findTxn h.sequence with
    | none => exact waits
    | some ended =>
      obtain ⟨member, same⟩ := wf.findTxn.mp found
      obtain ⟨txns, timers⟩ := Tables.updateByTeid_same _ ended.sessionTeid _
      refine Tables.Waits.of_same ?_ txns timers
      rw [← same]
      refine waits.close wf member ?_
      rintro rfl
      exact unanswered ⟨h, read, same.symm⟩
  | stale timerMember gone =>
    obtain ⟨t, member, owner⟩ := sound.live _ timerMember
    exact absurd owner (gone t member)
  | @expire env timer expired timerMember ran member owner =>
    refine waits.expire wf timerMember member owner ?_ _ _ _
    intro same
    have fired := firing_eq_some.mpr ⟨timer, timerMember, rfl, (same.trans owner).symm, ran⟩
    rw [idle] at fired
    cases fired
  | purge => exact waits.of_same rfl rfl

theorem Tables.Waits.fired (fires : firing e t.id event = some env) :
    event = .timer env t.timerId ∧ due ≤ env.now := by
  obtain ⟨timer, member, rfl, owner, ran⟩ := firing_eq_some.mp fires
  have wf := sound.wellFormed.txns
  have handle := (wf.linked timer member t waits.outstanding).mp owner.symm
  obtain rfl : ⟨t.timerId, t.id, due⟩ = timer := wf.timerIds.eq_of_key waits.armed member handle
  exact ⟨rfl, ran⟩

theorem Tables.Waits.resent (inet : Inet) (env : CallEnv) (ran : due ≤ env.now)
    (again : t.sends < e.n3) (sends : env.send = .sent) (arms : env.arm = true) :
    (endpointStep inet e (.timer env t.timerId)).log = e.log ++ [.sent t.wire t.host t.port] ∧
      (endpointStep inet e (.timer env t.timerId)).tables.Waits
        { t with sends := t.sends + 1, timerId := e.tables.fresh } (env.now + e.t3Ms) := by
  have logged := resend_log sound waits.armed waits.outstanding rfl env ran inet again sends arms
  have quiet := timer_step_quiet sound waits.armed waits.outstanding rfl env ran inet
  refine ⟨logged, ?_⟩
  rw [show (endpointStep inet e (.timer env t.timerId)).tables = _ from quiet.tables]
  dsimp only [Endpoint.tables_onTables, Tables.expire]
  rw [if_pos again, if_pos sends, if_pos arms]
  exact Tables.Waits.resendTxn sound.wellFormed.txns waits.outstanding _ _

theorem Tables.Waits.timedOut (inet : Inet) (env : CallEnv) (ran : due ≤ env.now)
    (last : e.n3 ≤ t.sends) (session : e.tables.sessionByTeid t.sessionTeid = some s) :
    (endpointStep inet e (.timer env t.timerId)).log =
        e.log ++ (if e.handler then [.called (.timeout s.id t.mt)] else []) ∧
      { s with state := .failed } ∈ (endpointStep inet e (.timer env t.timerId)).tables.sessions ∧
      (endpointStep inet e (.timer env t.timerId)).tables.Absent t.id := by
  have wf := sound.wellFormed
  have logged := timeout_log sound waits.armed waits.outstanding rfl env ran inet last session
  have quiet := timer_step_quiet sound waits.armed waits.outstanding rfl env ran inet
  have found : ((e.tables.cancelTimer t.timerId).eraseTxn t.seq).sessionByTeid t.sessionTeid =
      some s := session
  refine ⟨logged, ?_⟩
  rw [show (endpointStep inet e (.timer env t.timerId)).tables = _ from quiet.tables]
  dsimp only [Endpoint.tables_onTables, Tables.expire]
  rw [if_neg (Nat.not_lt.mpr last)]
  constructor
  · have member := (wf.sessions.sessionByTeid.mp session).2.1
    rw [Tables.updateByTeid, found]
    exact (wf.sessions.ids.mem_modify member).mpr (.inr rfl)
  · refine Tables.Absent.updateByTeid ?_ _ _
    exact waits.absent_of_erase wf.txns rfl rfl

end Waiting

/-- The induction is on the run; at each event the request either goes on waiting
as it was or takes one step of its life. -/
theorem life_of_waits (inet : Inet) {e : Endpoint} (sound : e.Sound) {t : Txn}
    {last : Nat} (waits : e.tables.Waits t (last + e.t3Ms)) (sent : 1 ≤ t.sends)
    (count : t.sends ≤ max 1 e.n3)
    (steady : EveryStep (endpointStep inet) (Steady t.id session) e events) :
    Life inet session t last e events := by
  induction events generalizing e t last with
  | nil => exact .waits waits count
  | cons event rest ih =>
    obtain ⟨⟨fresh, stays, works⟩, later⟩ := steady
    have next := sound.step inet fresh
    have quiet := endpointStep_quiet inet sound.defined event
    obtain ⟨t3Ms, n3⟩ := outcome_timing inet e stays
    rw [← quiet.t3Ms] at t3Ms
    rw [← quiet.n3] at n3
    cases fires : firing e t.id event with
    | none =>
      by_cases answers : Answers t.seq event
      · obtain ⟨gone, aside⟩ := everyState_gone inet next (waits.answered sound inet answers) later
        exact .answered answers (endpointStep_aside inet sound fires) gone aside
      · refine .other waits fires answers (endpointStep_aside inet sound fires)
          (ih next ?_ sent (n3 ▸ count) later)
        rw [t3Ms]
        exact waits.step sound inet fresh fires answers
    | some env =>
      obtain ⟨sends, arms, resolves⟩ := works env fires
      obtain ⟨s, found, rfl⟩ := resolves t waits.outstanding rfl
      obtain ⟨rfl, ran⟩ := waits.fired sound fires
      by_cases again : t.sends < e.n3
      · obtain ⟨logged, rearmed⟩ := waits.resent sound inet env ran again sends arms
        refine .again fires ran (lt_max_of_lt_right again) logged
          (ih next (t3Ms ▸ rearmed) (Nat.le_succ_of_le sent) ?_ later)
        rw [n3]
        exact le_max_of_le_right again
      · obtain ⟨logged, failed, absent⟩ :=
          waits.timedOut sound inet env ran (Nat.not_lt.mp again) found
        obtain ⟨gone, aside⟩ := everyState_gone inet next absent later
        exact .timeout fires ran (by omega) logged ⟨_, failed, rfl, rfl⟩ gone aside

def requestFor (e : Endpoint) : EndpointEvent → Option (CallEnv × Nat)
  | .createSession env _ _ _ => some (env, e.tables.fresh)
  | event => requestOn event

namespace Endpoint

variable (e : Endpoint)

theorem startEncoded_log (sent : transmitted env encoded = some wire) (seq : UInt32) (mt : UInt8)
    (teid : UInt32)
    (host : Bytes) (port : UInt16) :
    (settle (e.startEncoded env seq mt encoded teid host port)).log =
      e.log ++ [.sent wire host port] := by
  unfold transmitted at sent
  split at sent
  · cases sent
  · split_ifs at sent with works
    obtain rfl := Option.some.inj sent
    simp [startEncoded, startTxn, sendTo, works, settle, emit, onTables]

theorem startEncoded_started {seq : UInt32} {mt : UInt8} {t : Txn}
    (started : t ∈ (settle (e.startEncoded env seq mt encoded teid host port)).tables.txns)
    (new : t ∉ e.tables.txns) :
    (settle (e.startEncoded env seq mt encoded teid host port)).log =
        e.log ++ [.sent t.wire t.host t.port] ∧ t.sends = 1 ∧
      (settle (e.startEncoded env seq mt encoded teid host port)).tables.Waits t
        (env.now + e.t3Ms) := by
  have quiet := (e.startEncoded_quiet env seq mt encoded teid host port).trans (settle_quiet _)
  rw [quiet.tables] at started ⊢
  cases sent : transmitted env encoded with
  | none =>
    rw [tables_onTables, sent] at started
    exact absurd started new
  | some wire =>
    have waits := e.tables.waits_started wire (env.now + e.t3Ms) seq mt teid host port
    simp only [tables_onTables, sent] at started ⊢
    rcases Keyed.mem_put.mp started with ⟨old, _⟩ | rfl
    · exact absurd old new
    · exact ⟨e.startEncoded_log sent _ _ _ _ _, rfl, waits⟩

end Endpoint

/-- What a request does: nothing, when its session is gone, or it starts its
transaction on an endpoint that has only taken numbers and changed sessions. -/
inductive Starts (e : Endpoint) (env : CallEnv) : Endpoint → Prop
  | still : Starts e env e
  | encoded {filled : Endpoint} {mt : UInt8} :
      filled.log = e.log → filled.t3Ms = e.t3Ms → filled.tables.txns = e.tables.txns →
      Starts e env (.settle (filled.startEncoded env seq mt encoded teid host port))

theorem endpointStep_starts (inet : Inet) {e : Endpoint} (defined : e.undefined = false)
    (asks : requestFor e event = some (env, session)) :
    Starts e env (endpointStep inet e event) := by
  have numbered := e.nextSeq_quiet
  have txns : e.nextSeq.1.tables.txns = e.tables.txns := congrArg Tables.txns numbered.tables
  have onSession : ∀ id (act : Session → Endpoint × Option GtpError),
      (∀ s, Starts e env (.settle (act s))) → Starts e env (e.onSession id act) := by
    intro id act starts
    unfold Endpoint.onSession
    split
    · exact .still
    · exact starts _
  have deleting : ∀ s req, Starts e env (.settle (e.deleteSessionReq inet env s req)) :=
    fun s req => .encoded e.nextSeq_log numbered.t3Ms txns
  unfold endpointStep
  rw [if_neg (by simp [defined])]
  cases event with
  | createSession env req host port =>
    cases asks
    have filled := e.fillRequest_quiet req
    have kept : (e.fillRequest req).1.tables.txns = e.tables.txns :=
      congrArg Tables.txns filled.tables
    have log := e.fillRequest_log req
    have t3Ms := filled.t3Ms
    simp only [Endpoint.createSession]
    generalize e.fillRequest req = request at kept log t3Ms ⊢
    exact .encoded log t3Ms kept
  | modifyBearer env id req =>
    cases asks
    exact onSession _ _ fun s => .encoded e.nextSeq_log numbered.t3Ms txns
  | deleteSession env id =>
    cases asks
    exact onSession _ _ fun s => deleting s _
  | deleteSessionReq env id req =>
    cases asks
    exact onSession _ _ fun s => deleting s req
  | _ => cases asks

def FreshlyReached (inet : Inet) (e : Endpoint) : Prop :=
  ∃ localHost localIpv4 events,
    e = run (endpointStep inet) (endpointNew localHost localIpv4) events ∧
    EveryStep (endpointStep inet) StartsFresh (endpointNew localHost localIpv4) events

theorem FreshlyReached.sound {e : Endpoint} (reached : FreshlyReached inet e) : e.Sound := by
  obtain ⟨localHost, localIpv4, events, rfl, fresh⟩ := reached
  refine EveryState.last (EveryState.of_step ?_ (endpointNew_sound localHost localIpv4) fresh)
  exact fun e event sound unused => sound.step inet unused

def attachTxn : Txn where
  id := 2
  seq := 1
  mt := mtCreateSessionRequest
  wire := (((endpointNew localAddress true).fillRequest attach).2.encode twoHosts).toOption.getD []
  sessionTeid := 1
  host := peerAddress
  port := 2123
  sends := 1
  timerId := 3

def threeExpiries : List EndpointEvent :=
  [.timer ⟨.sent, true, 3000⟩ 3, .timer ⟨.sent, true, 6000⟩ 4, .timer ⟨.sent, true, 9000⟩ 5]

def rivalRequests : List EndpointEvent :=
  [.setHandler true, .setN3 1, .createSession .works (attachAt 9) peerAddress 2123,
    .createSession .works (attachAt 9) peerAddress 2123, .timer ⟨.sent, true, 3000⟩ 6]

end Pro2Call.Gtp2

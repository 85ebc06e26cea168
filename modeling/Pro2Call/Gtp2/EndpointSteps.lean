import Pro2Call.Data.Run
import Pro2Call.Gtp2.Endpoint

namespace Pro2Call.Gtp2

open Pro2Call.Data

/-- What the calls below read is the same: only the log moved. -/
structure Endpoint.Quiet (e e' : Endpoint) : Prop where
  tables : e'.tables = e.tables
  seq : e'.seq = e.seq
  ctrlTeid : e'.ctrlTeid = e.ctrlTeid
  undefined : e'.undefined = e.undefined
  handler : e'.handler = e.handler
  t3Ms : e'.t3Ms = e.t3Ms
  n3 : e'.n3 = e.n3

namespace Endpoint

theorem Quiet.refl (e : Endpoint) : Quiet e e := ⟨rfl, rfl, rfl, rfl, rfl, rfl, rfl⟩

theorem Quiet.trans (left : Quiet first second) (right : Quiet second third) : Quiet first third :=
  ⟨right.tables.trans left.tables, right.seq.trans left.seq,
    right.ctrlTeid.trans left.ctrlTeid, right.undefined.trans left.undefined,
    right.handler.trans left.handler, right.t3Ms.trans left.t3Ms,
    right.n3.trans left.n3⟩

theorem Quiet.onTables {e e' : Endpoint} (quiet : Quiet e e')
    (change : Tables → Tables) : Quiet (e.onTables change) (e'.onTables change) :=
  ⟨congrArg change quiet.tables, quiet.seq, quiet.ctrlTeid, quiet.undefined, quiet.handler,
    quiet.t3Ms, quiet.n3⟩

variable (e : Endpoint)

def withCounters (counted : Endpoint) : Endpoint :=
  { e with seq := counted.seq, ctrlTeid := counted.ctrlTeid }

@[simp] theorem tables_withCounters (counted : Endpoint) :
    (e.withCounters counted).tables = e.tables := rfl

@[simp] theorem tables_onTables (change : Tables → Tables) :
    (e.onTables change).tables = change e.tables := rfl

@[simp] theorem onTables_self : (e.onTables fun tables => tables) = e := rfl

variable {e} in
theorem Quiet.of_tables {tables : Tables}
    (same : change e.tables = tables) (quiet : Quiet { e with tables := tables } e') :
    Quiet (e.onTables change) e' := by
  subst same
  exact quiet

theorem emit_quiet (outputs : List Output) : Quiet e (e.emit outputs) :=
  ⟨rfl, rfl, rfl, rfl, rfl, rfl, rfl⟩

theorem call_quiet (calls : List HandlerCall) : Quiet e (e.call calls) := by
  unfold call
  split
  · exact e.emit_quiet _
  · exact .refl e

theorem settle_quiet (result : Endpoint × Option GtpError) : Quiet result.1 (settle result) := by
  obtain ⟨e, _ | err⟩ := result
  · exact .refl e
  · exact e.emit_quiet _

theorem nextSeq_quiet : Quiet (e.withCounters e.nextSeq.1) e.nextSeq.1 := by
  unfold nextSeq
  dsimp only
  split <;> exact .refl _

theorem nextTeid_quiet : Quiet (e.withCounters e.nextTeid.1) e.nextTeid.1 := by
  unfold nextTeid
  dsimp only
  split <;> exact .refl _

theorem fillSequence_quiet (req : CreateSessionRequest) :
    Quiet (e.withCounters (e.fillSequence req).1) (e.fillSequence req).1 := by
  unfold fillSequence
  split
  · exact e.nextSeq_quiet
  · exact .refl e

theorem fillSender_quiet (sf : Fteid) :
    Quiet (e.withCounters (e.fillSender sf).1) (e.fillSender sf).1 := by
  unfold fillSender
  dsimp only
  split_ifs <;> first | exact e.nextTeid_quiet | exact .refl e

theorem Quiet.countersTrans {first second third : Endpoint}
    (left : Quiet (first.withCounters second) second)
    (right : Quiet (second.withCounters third) third) :
    Quiet (first.withCounters third) third :=
  ⟨right.tables.trans left.tables, rfl, rfl, right.undefined.trans left.undefined,
    right.handler.trans left.handler, right.t3Ms.trans left.t3Ms, right.n3.trans left.n3⟩

theorem fillRequest_quiet (req : CreateSessionRequest) :
    Quiet (e.withCounters (e.fillRequest req).1) (e.fillRequest req).1 := by
  have filled : (e.fillRequest req).1 =
      ((e.fillSequence req).1.fillSender (e.fillSequence req).2.senderFteid).1 := rfl
  rw [filled]
  exact (e.fillSequence_quiet req).countersTrans (fillSender_quiet _ _)

theorem sendTo_quiet (env : CallEnv) (wire host : Bytes) (port : UInt16) :
    Quiet e (e.sendTo env wire host port).1 := by
  unfold sendTo
  split
  · exact e.emit_quiet _
  · exact .refl e
  · exact .refl e

theorem sendTo_snd (env : CallEnv) (wire host : Bytes) (port : UInt16) :
    (e.sendTo env wire host port).2 = none ↔ env.send = .sent := by
  unfold sendTo
  split <;> simp_all

end Endpoint

def transmitted (env : CallEnv) (wire : Except GtpError Bytes) : Option Bytes :=
  match wire with
  | .error _ => none
  | .ok wire => if env.send = .sent ∧ env.arm then some wire else none

def Tables.startTxn (tables : Tables) (sent : Option Bytes) (due : Nat) (seq : UInt32)
    (mt : UInt8) (sessionTeid : UInt32) (host : Bytes) (port : UInt16) : Tables :=
  match sent with
  | none => tables
  | some wire => tables.addTxn due seq mt wire sessionTeid host port

def answerChange (inet : Inet) (wire : Bytes) (messageType : UInt8) : Session → Session :=
  if messageType = mtCreateSessionResponse then
    match CreateSessionResponse.decode inet wire with
    | .error _ => id
    | .ok rsp => Session.created rsp
  else if messageType = mtModifyBearerResponse then
    match ModifyBearerResponse.decode inet wire with
    | .error _ => id
    | .ok rsp => Session.modified rsp
  else if messageType = mtDeleteSessionResponse then
    match DeleteSessionResponse.decode wire with
    | .error _ => id
    | .ok _ => fun s => { s with state := .deleted }
  else id

theorem Session.created_state (rsp : CreateSessionResponse) (s : Session) :
    (s.created rsp).state =
      if rsp.cause = causeRequestAccepted then .active else .failed := by
  unfold Session.created
  split <;> rfl

theorem Session.modified_state (rsp : ModifyBearerResponse) (s : Session) :
    (s.modified rsp).state = s.state := by
  unfold Session.modified
  split <;> rfl

theorem answerChange_create_state (decoded : CreateSessionResponse.decode inet wire = .ok rsp)
    (s : Session) :
    (answerChange inet wire mtCreateSessionResponse s).state =
      if rsp.cause = causeRequestAccepted then .active else .failed := by
  rw [← s.created_state]
  simp [answerChange, decoded]

theorem answerChange_modify_state (inet : Inet) (wire : Bytes) (s : Session) :
    (answerChange inet wire mtModifyBearerResponse s).state = s.state := by
  have other : mtModifyBearerResponse ≠ mtCreateSessionResponse := by decide
  unfold answerChange
  rw [if_neg other, if_pos rfl]
  cases ModifyBearerResponse.decode inet wire with
  | error err => rfl
  | ok rsp => exact s.modified_state rsp

theorem answerChange_delete_state (decoded : DeleteSessionResponse.decode wire = .ok rsp)
    (s : Session) :
    (answerChange inet wire mtDeleteSessionResponse s).state = .deleted := by
  have notCreate : mtDeleteSessionResponse ≠ mtCreateSessionResponse := by decide
  have notModify : mtDeleteSessionResponse ≠ mtModifyBearerResponse := by decide
  simp [answerChange, notCreate, notModify, decoded]

def Tables.updateByTeid (tables : Tables) (teid : UInt32) (change : Session → Session) : Tables :=
  match tables.sessionByTeid teid with
  | none => tables
  | some s => tables.updateSession s.id change

def Tables.answer (tables : Tables) (inet : Inet) (wire : Bytes) (h : Gtp2Hdr) : Tables :=
  match tables.findTxn h.sequence with
  | none => tables
  | some t =>
    ((tables.eraseTxn h.sequence).cancelTimer t.timerId).updateByTeid t.sessionTeid
      (answerChange inet wire h.messageType)

def responseHdr (wire : Bytes) : Option Gtp2Hdr :=
  match gtp2HdrDecode wire with
  | .error _ => none
  | .ok (h, _) => if isResponse h.messageType then some h else none

def Tables.expire (tables : Tables) (env : CallEnv) (t3Ms n3 : Nat) (t : Txn) : Tables :=
  if t.sends < n3 then
    if env.send = .sent then
      if env.arm then tables.resendTxn (env.now + t3Ms) t.id
      else tables.resendUnarmed t.id
    else tables
  else (tables.eraseTxn t.seq).updateByTeid t.sessionTeid fun s => { s with state := .failed }

theorem Tables.updateByTeid_same (tables : Tables) (teid : UInt32) (change : Session → Session) :
    (tables.updateByTeid teid change).txns = tables.txns ∧
      (tables.updateByTeid teid change).timers = tables.timers := by
  unfold updateByTeid
  split <;> exact ⟨rfl, rfl⟩

theorem Tables.updateSession_id (tables : Tables) (session : Nat) :
    tables.updateSession session id = tables := by
  simp [updateSession, Keyed.modify]

namespace Endpoint

variable (e : Endpoint)

theorem startTxn_quiet (env : CallEnv) (seq : UInt32) (mt : UInt8) (wire : Bytes)
    (sessionTeid : UInt32) (host : Bytes) (port : UInt16) :
    Quiet (e.onTables fun tables => tables.startTxn (transmitted env (.ok wire))
        (env.now + e.t3Ms) seq mt sessionTeid host port)
      (e.startTxn env seq mt wire sessionTeid host port).1 := by
  have quiet := e.sendTo_quiet env wire host port
  have sent := e.sendTo_snd env wire host port
  unfold startTxn
  cases result : e.sendTo env wire host port with
  | mk next err =>
    rw [result] at quiet sent
    cases err with
    | some err =>
      have failed : env.send ≠ .sent := fun sends => by simp [sends] at sent
      simpa [transmitted, failed, Tables.startTxn] using quiet
    | none =>
      have sends : env.send = .sent := sent.mp rfl
      cases armed : env.arm with
      | false => simpa [transmitted, armed, Tables.startTxn] using quiet
      | true =>
        have due : next.t3Ms = e.t3Ms := quiet.t3Ms
        simpa [transmitted, sends, armed, Tables.startTxn, due] using quiet.onTables _

theorem startEncoded_quiet (env : CallEnv) (seq : UInt32) (mt : UInt8)
    (wire : Except GtpError Bytes) (sessionTeid : UInt32) (host : Bytes)
    (port : UInt16) :
    Quiet (e.onTables fun tables => tables.startTxn (transmitted env wire)
        (env.now + e.t3Ms) seq mt sessionTeid host port)
      (e.startEncoded env seq mt wire sessionTeid host port).1 := by
  cases wire with
  | error err => exact .refl e
  | ok wire => exact e.startTxn_quiet env seq mt wire sessionTeid host port

theorem createSession_quiet (inet : Inet) (env : CallEnv) (req : CreateSessionRequest)
    (host : Bytes) (port : UInt16) :
    Quiet ((e.withCounters (e.fillRequest req).1).onTables fun tables =>
        (tables.addSession (e.fillRequest req).2 host port).startTxn
          (transmitted env ((e.fillRequest req).2.encode inet)) (env.now + e.t3Ms)
          (e.fillRequest req).2.sequence mtCreateSessionRequest
          (e.fillRequest req).2.senderFteid.teid host port)
      (e.createSession inet env req host port).1 := by
  have filled := e.fillRequest_quiet req
  unfold createSession
  generalize e.fillRequest req = request at filled ⊢
  refine Quiet.trans ?_ (startEncoded_quiet _ _ _ _ _ _ _ _)
  have due : (request.1.onTables fun tables =>
      tables.addSession request.2 host port).t3Ms = e.t3Ms := filled.t3Ms
  rw [due]
  exact filled.onTables _

theorem modifyBearer_quiet (inet : Inet) (env : CallEnv) (s : Session) (req : ModifyBearerRequest) :
    Quiet ((e.withCounters e.nextSeq.1).onTables fun tables =>
        (tables.updateSession s.id fun s => { s with modBearers := req.bearers }).startTxn
          (transmitted env ({ req with teid := s.remoteTeid, sequence := e.nextSeq.2 }.encode inet))
          (env.now + e.t3Ms) e.nextSeq.2 mtModifyBearerRequest s.localTeid s.peerHost
          s.peerPort)
      (e.modifyBearer inet env s req).1 := by
  have numbered := e.nextSeq_quiet
  unfold modifyBearer
  generalize e.nextSeq = next at numbered ⊢
  refine Quiet.trans ?_ (startEncoded_quiet _ _ _ _ _ _ _ _)
  have due : (next.1.onTables fun tables => tables.updateSession s.id
      fun s => { s with modBearers := req.bearers }).t3Ms = e.t3Ms := numbered.t3Ms
  rw [due]
  exact numbered.onTables _

theorem deleteSessionReq_quiet (inet : Inet) (env : CallEnv) (s : Session)
    (req : DeleteSessionRequest) :
    Quiet ((e.withCounters e.nextSeq.1).onTables fun tables =>
        (tables.updateSession s.id fun s => { s with state := .deleting }).startTxn (transmitted env
            ({ req with teid := s.remoteTeid, sequence := e.nextSeq.2 }.encode inet))
          (env.now + e.t3Ms) e.nextSeq.2 mtDeleteSessionRequest s.localTeid s.peerHost
          s.peerPort)
      (e.deleteSessionReq inet env s req).1 := by
  have numbered := e.nextSeq_quiet
  unfold deleteSessionReq
  generalize e.nextSeq = next at numbered ⊢
  refine Quiet.trans ?_ (startEncoded_quiet _ _ _ _ _ _ _ _)
  have due : (next.1.onTables fun tables => tables.updateSession s.id
      fun s => { s with state := .deleting }).t3Ms = e.t3Ms := numbered.t3Ms
  rw [due]
  exact numbered.onTables _

theorem sendEcho_quiet (env : CallEnv) (host : Bytes) (port : UInt16) :
    Quiet (e.withCounters e.nextSeq.1) (e.sendEcho env host port).1 := by
  unfold sendEcho
  split
  · exact e.nextSeq_quiet
  · exact e.nextSeq_quiet.trans (sendTo_quiet _ _ _ _ _)

theorem applyResponse_quiet (inet : Inet) (wire : Bytes) (h : Gtp2Hdr) (s : Session) :
    Quiet (e.onTables fun tables =>
        tables.updateSession s.id (answerChange inet wire h.messageType))
      (e.applyResponse inet wire h s).1 := by
  have unchanged : Quiet (e.onTables fun tables => tables.updateSession s.id id) e :=
    .of_tables (e.tables.updateSession_id s.id) (.refl e)
  unfold applyResponse answerChange
  split_ifs
  · cases CreateSessionResponse.decode inet wire with
    | error err => exact unchanged
    | ok rsp => exact call_quiet _ _
  · cases ModifyBearerResponse.decode inet wire with
    | error err => exact unchanged
    | ok rsp => exact call_quiet _ _
  · cases DeleteSessionResponse.decode wire with
    | error err => exact unchanged
    | ok rsp => exact call_quiet _ _
  · exact unchanged

theorem handleResponse_quiet (inet : Inet) (wire : Bytes) (h : Gtp2Hdr) :
    Quiet (e.onTables fun tables => tables.answer inet wire h)
      (e.handleResponse inet wire h).1 := by
  unfold handleResponse
  cases found : e.tables.findTxn h.sequence with
  | none =>
    have same : e.tables.answer inet wire h = e.tables := by
      simp [Tables.answer, found]
    exact .of_tables same (.refl e)
  | some t =>
    dsimp only [tables_onTables]
    cases owner : ((e.tables.eraseTxn h.sequence).cancelTimer t.timerId).sessionByTeid
        t.sessionTeid with
    | none =>
      have same : e.tables.answer inet wire h =
          (e.tables.eraseTxn h.sequence).cancelTimer t.timerId := by
        simp [Tables.answer, found, Tables.updateByTeid, owner]
      exact .of_tables same (.refl _)
    | some s =>
      have same : e.tables.answer inet wire h =
          ((e.tables.eraseTxn h.sequence).cancelTimer t.timerId).updateSession s.id
            (answerChange inet wire h.messageType) := by
        simp [Tables.answer, found, Tables.updateByTeid, owner]
      refine .of_tables same (applyResponse_quiet (e.onTables fun tables =>
        (tables.eraseTxn h.sequence).cancelTimer t.timerId) inet wire h s)

theorem onRequest_quiet (decoded : Except GtpError Request)
    (toCall : Request → HandlerCall) : Quiet e (e.onRequest decoded toCall).1 := by
  unfold onRequest
  split
  · cases decoded with
    | error err => exact .refl e
    | ok req => exact e.call_quiet _
  · exact .refl e

theorem dispatch_quiet (inet : Inet) (env : CallEnv) (wire : Bytes) (h : Gtp2Hdr)
    (host : Bytes) (port : UInt16) :
    Quiet (if isResponse h.messageType then
        e.onTables fun tables => tables.answer inet wire h
      else e)
      (e.dispatch inet env wire h host port).1 := by
  by_cases response : isResponse h.messageType
  · have notEcho : h.messageType ≠ mtEchoRequest ∧ h.messageType ≠ mtEchoResponse := by
      rcases response with same | same | same <;> rw [same] <;> decide
    have quiet := e.handleResponse_quiet inet wire h
    rw [if_pos response]
    unfold dispatch
    rw [if_neg notEcho.1, if_neg notEcho.2, if_pos response]
    cases result : e.handleResponse inet wire h with
    | mk next outcome =>
      rw [result] at quiet
      match outcome with
      | .error err => exact quiet
      | .ok true => exact quiet
      | .ok false => exact quiet.trans (call_quiet _ _)
  · rw [if_neg response]
    unfold dispatch
    rw [if_neg response]
    split_ifs
    · cases (echoMessage mtEchoResponse h.sequence e.recovery).encode with
      | error err => exact .refl e
      | ok answer =>
        have quiet := e.sendTo_quiet env answer host port
        cases result : e.sendTo env answer host port with
        | mk next err =>
          rw [result] at quiet
          cases err with
          | some err => simpa only [result] using quiet
          | none => simpa only [result] using quiet.trans (call_quiet _ _)
    · exact e.call_quiet _
    · exact e.onRequest_quiet _ _
    · exact e.onRequest_quiet _ _
    · exact e.onRequest_quiet _ _
    · exact e.onRequest_quiet _ _
    · exact e.call_quiet _

theorem handleDatagram_quiet (inet : Inet) (env : CallEnv) (wire host : Bytes) (port : UInt16) :
    Quiet (match responseHdr wire with
        | none => e
        | some h => e.onTables fun tables => tables.answer inet wire h)
      (e.handleDatagram inet env wire host port).1 := by
  unfold handleDatagram responseHdr
  cases gtp2HdrDecode wire with
  | error err => exact .refl e
  | ok decoded =>
    obtain ⟨h, rest⟩ := decoded
    have quiet := e.dispatch_quiet inet env wire h host port
    by_cases response : isResponse h.messageType
    · simpa [response] using quiet
    · simpa [response] using quiet

theorem onTxnTimer_quiet (env : CallEnv) (t : Txn) :
    Quiet (e.onTables fun tables => tables.expire env e.t3Ms e.n3 t) (e.onTxnTimer env t).1 := by
  unfold onTxnTimer Tables.expire
  by_cases again : t.sends < e.n3
  · have quiet := e.sendTo_quiet env t.wire t.host t.port
    have sent := e.sendTo_snd env t.wire t.host t.port
    simp only [if_pos again]
    cases result : e.sendTo env t.wire t.host t.port with
    | mk next err =>
      rw [result] at quiet sent
      cases err with
      | some err =>
        have failed : env.send ≠ .sent := fun sends => by simp [sends] at sent
        simpa [failed] using quiet
      | none =>
        have sends : env.send = .sent := sent.mp rfl
        cases armed : env.arm with
        | false => simpa [sends] using quiet.onTables _
        | true =>
          have due : next.t3Ms = e.t3Ms := quiet.t3Ms
          simpa [sends, due] using quiet.onTables _
  · simp only [if_neg again, tables_onTables]
    cases owner : (e.tables.eraseTxn t.seq).sessionByTeid t.sessionTeid with
    | none =>
      refine .of_tables ?_ (.refl _)
      simp [Tables.updateByTeid, owner]
    | some s =>
      refine .of_tables ?_ (call_quiet _ _)
      simp [Tables.updateByTeid, owner]

theorem fireTimer_quiet (env : CallEnv) (id : Nat) :
    Quiet (match Keyed.find T3Timer.id e.tables.timers id with
        | none => e
        | some timer =>
          if timer.due ≤ env.now then
            match Keyed.find Txn.id e.tables.txns timer.txn with
            | none =>
              { e.onTables fun tables => tables.cancelTimer id with undefined := true }
            | some t =>
              e.onTables fun tables =>
                (tables.cancelTimer id).expire env e.t3Ms e.n3 t
          else e)
      (e.fireTimer env id).1 := by
  unfold fireTimer
  cases Keyed.find T3Timer.id e.tables.timers id with
  | none => exact .refl e
  | some timer =>
    by_cases due : timer.due ≤ env.now
    · simp only [if_pos due]
      have same : (e.onTables fun tables => tables.cancelTimer id).tables.txns =
          e.tables.txns := rfl
      rw [same]
      cases Keyed.find Txn.id e.tables.txns timer.txn with
      | none => exact .refl _
      | some t => exact onTxnTimer_quiet (e.onTables fun tables => tables.cancelTimer id) env t
    · simp only [if_neg due]
      exact .refl e

end Endpoint

def outcome (inet : Inet) (e : Endpoint) : EndpointEvent → Endpoint
  | .createSession env req host port =>
    (e.withCounters (e.fillRequest req).1).onTables fun tables =>
      (tables.addSession (e.fillRequest req).2 host port).startTxn
        (transmitted env ((e.fillRequest req).2.encode inet)) (env.now + e.t3Ms)
        (e.fillRequest req).2.sequence mtCreateSessionRequest
        (e.fillRequest req).2.senderFteid.teid host port
  | .modifyBearer env id req =>
    match e.tables.findSession id with
    | none => e
    | some s =>
      (e.withCounters e.nextSeq.1).onTables fun tables =>
        (tables.updateSession s.id fun s =>
          { s with modBearers := req.bearers }).startTxn (transmitted env
              ({ req with teid := s.remoteTeid, sequence := e.nextSeq.2 }.encode inet))
            (env.now + e.t3Ms) e.nextSeq.2 mtModifyBearerRequest s.localTeid
            s.peerHost s.peerPort
  | .deleteSession env id =>
    match e.tables.findSession id with
    | none => e
    | some s => deleting env s { linkedEbi := s.defaultEbi.toNat }
  | .deleteSessionReq env id req =>
    match e.tables.findSession id with
    | none => e
    | some s => deleting env s req
  | .datagram _ wire _ _ =>
    match responseHdr wire with
    | none => e
    | some h => e.onTables fun tables => tables.answer inet wire h
  | .timer env id =>
    match Keyed.find T3Timer.id e.tables.timers id with
    | none => e
    | some timer =>
      if timer.due ≤ env.now then
        match Keyed.find Txn.id e.tables.txns timer.txn with
        | none =>
          { e.onTables fun tables => tables.cancelTimer id with undefined := true }
        | some t =>
          e.onTables fun tables => (tables.cancelTimer id).expire env e.t3Ms e.n3 t
      else e
  | .purge => e.onTables Tables.purge
  | .sendEcho _ _ _ => e.withCounters e.nextSeq.1
  | .sendRaw _ _ _ _ | .setRecovery _ | .setTxLoop _ => e
  | .setT3Ms ms => { e with t3Ms := ms }
  | .setN3 n => { e with n3 := n }
  | .setHandler present => { e with handler := present }
where
  deleting (env : CallEnv) (s : Session) (req : DeleteSessionRequest) : Endpoint :=
    (e.withCounters e.nextSeq.1).onTables fun tables =>
      (tables.updateSession s.id fun s => { s with state := .deleting }).startTxn (transmitted env
          ({ req with teid := s.remoteTeid, sequence := e.nextSeq.2 }.encode inet))
        (env.now + e.t3Ms) e.nextSeq.2 mtDeleteSessionRequest s.localTeid s.peerHost
        s.peerPort

theorem Endpoint.onSession_quiet {e : Endpoint} {effect : Session → Endpoint}
    (quiet : ∀ s, (effect s).Quiet (act s).1) (id : Nat) :
    Endpoint.Quiet (match e.tables.findSession id with
        | none => e
        | some s => effect s)
      (e.onSession id act) := by
  unfold Endpoint.onSession
  cases e.tables.findSession id with
  | none => exact .refl e
  | some s => exact (quiet s).trans (Endpoint.settle_quiet _)

theorem endpointStep_quiet (inet : Inet) {e : Endpoint} (defined : e.undefined = false)
    (event : EndpointEvent) : (outcome inet e event).Quiet (endpointStep inet e event) := by
  unfold endpointStep
  rw [if_neg (by simp [defined])]
  cases event with
  | createSession env req host port =>
    exact (e.createSession_quiet inet env req host port).trans (Endpoint.settle_quiet _)
  | modifyBearer env id req =>
    exact Endpoint.onSession_quiet (fun s => e.modifyBearer_quiet inet env s req) id
  | deleteSession env id =>
    exact Endpoint.onSession_quiet
      (fun s => e.deleteSessionReq_quiet inet env s { linkedEbi := s.defaultEbi.toNat }) id
  | deleteSessionReq env id req =>
    exact Endpoint.onSession_quiet (fun s => e.deleteSessionReq_quiet inet env s req) id
  | sendEcho env host port =>
    exact (e.sendEcho_quiet env host port).trans (Endpoint.settle_quiet _)
  | sendRaw env wire host port =>
    exact (e.sendTo_quiet env wire host port).trans (Endpoint.settle_quiet _)
  | datagram env wire host port =>
    exact (e.handleDatagram_quiet inet env wire host port).trans (Endpoint.settle_quiet _)
  | timer env id => exact (e.fireTimer_quiet env id).trans (Endpoint.settle_quiet _)
  | purge => exact .refl _
  | setT3Ms ms => exact .refl _
  | setN3 n => exact .refl _
  | setRecovery counter => exact ⟨rfl, rfl, rfl, rfl, rfl, rfl, rfl⟩
  | setHandler present => exact .refl _
  | setTxLoop on => exact ⟨rfl, rfl, rfl, rfl, rfl, rfl, rfl⟩

theorem endpointStep_of_undefined (inet : Inet) {e : Endpoint} (undefined : e.undefined = true)
    (event : EndpointEvent) : endpointStep inet e event = e := by
  simp [endpointStep, undefined]

end Pro2Call.Gtp2

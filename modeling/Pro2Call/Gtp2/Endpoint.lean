import Pro2Call.Data.Keyed
import Pro2Call.Gtp2.Message

namespace Pro2Call.Gtp2

open Pro2Call.Data

/-! The session layer: an endpoint with its sessions, the outstanding requests
and their T3 timers. Objects have identities, as pointers do; an identity is
never given twice. -/

inductive SessionState where
  | creating
  | active
  | deleting
  | deleted
  | failed
  deriving DecidableEq, Repr

structure UserPlaneTunnel where
  ebi : UInt8
  ifType : UInt8
  localTeid : UInt32
  remoteTeid : UInt32
  remoteAddr : Bytes
  deriving DecidableEq, Repr

structure Session where
  id : Nat
  state : SessionState
  localTeid : UInt32
  remoteTeid : UInt32
  peerHost : Bytes
  peerPort : UInt16
  req : CreateSessionRequest
  modBearers : List BearerContext
  tunnels : List UserPlaneTunnel
  deriving DecidableEq, Repr

/-- An outstanding request; `timerId` is 0 when arming the timer failed. -/
structure Txn where
  id : Nat
  seq : UInt32
  mt : UInt8
  wire : Bytes
  sessionTeid : UInt32
  host : Bytes
  port : UInt16
  sends : Nat
  timerId : Nat
  deriving DecidableEq, Repr

structure T3Timer where
  id : Nat
  txn : Nat
  due : Nat
  deriving DecidableEq, Repr

inductive HandlerCall where
  | createSessionResponse (session : Nat) (rsp : CreateSessionResponse)
  | modifyBearerResponse (session : Nat) (rsp : ModifyBearerResponse)
  | deleteSessionResponse (session : Nat) (rsp : DeleteSessionResponse)
  | userPlane (session : Nat) (tunnel : UserPlaneTunnel)
  | timeout (session : Nat) (messageType : UInt8)
  | echoRequest (host : Bytes) (port : UInt16) (recovery : Int)
  | echoResponse (host : Bytes) (port : UInt16) (recovery : Int)
  | createSessionRequest (req : CreateSessionRequest) (host : Bytes) (port : UInt16)
  | modifyBearerRequest (req : ModifyBearerRequest) (host : Bytes) (port : UInt16)
  | deleteSessionRequest (req : DeleteSessionRequest) (host : Bytes) (port : UInt16)
  | createBearerRequest (req : CreateBearerRequest) (host : Bytes) (port : UInt16)
  | message (messageType : UInt8) (wire : Bytes) (host : Bytes) (port : UInt16)
  deriving DecidableEq, Repr

inductive Output where
  | sent (wire : Bytes) (host : Bytes) (port : UInt16)
  | called (call : HandlerCall)
  | threw (error : GtpError)
  deriving DecidableEq, Repr

/-- What an endpoint and its loop keep: the sessions in order of creation, the
index by local TEID, the outstanding requests by sequence number and the armed
timers. `fresh` is above every identity given so far. -/
structure Tables where
  sessions : List Session
  byTeid : List (UInt32 × Nat)
  txns : List Txn
  timers : List T3Timer
  fresh : Nat
  deriving DecidableEq, Repr

/-- `undefined` is set when a timer fires for a transaction that no longer
exists. -/
structure Endpoint where
  localHost : Bytes
  localIpv4 : Bool
  handler : Bool
  txOnLoop : Bool
  t3Ms : Nat
  n3 : Nat
  recovery : UInt8
  seq : UInt32
  ctrlTeid : UInt32
  tables : Tables
  log : List Output
  undefined : Bool
  deriving DecidableEq, Repr

def endpointNew (localHost : Bytes) (localIpv4 : Bool) : Endpoint where
  localHost := localHost
  localIpv4 := localIpv4
  handler := false
  txOnLoop := true
  t3Ms := 3000
  n3 := 3
  recovery := 0
  seq := 0
  ctrlTeid := 0
  tables := { sessions := [], byTeid := [], txns := [], timers := [], fresh := 1 }
  log := []
  undefined := false

inductive SendResult where
  | sent
  | badAddress
  | refused
  deriving DecidableEq, Repr

structure CallEnv where
  send : SendResult
  arm : Bool
  now : Nat
  deriving DecidableEq, Repr

def localTeidForEbi (sent : List BearerContext) (ebi : UInt8) : UInt32 :=
  match sent with
  | [] => 0
  | b :: rest =>
    if b.ebi = ebi then
      match b.fteids with
      | fe :: _ => fe.fteid.teid
      | [] => localTeidForEbi rest ebi
    else localTeidForEbi rest ebi

def tunnelsFrom (sent answered : List BearerContext) : List UserPlaneTunnel :=
  answered.flatMap fun bc =>
    bc.fteids.map fun fe => {
      ebi := bc.ebi
      ifType := fe.fteid.ifType
      localTeid := localTeidForEbi sent bc.ebi
      remoteTeid := fe.fteid.teid
      remoteAddr := if fe.fteid.addr4 ≠ [] then fe.fteid.addr4 else fe.fteid.addr6 }

def recoveryOf (wire : Bytes) : Int :=
  match RawMessage.decode wire with
  | .error _ => -1
  | .ok m =>
    match m.ies.find? fun ie => ie.type = ieRecovery ∧ ie.inst = 0 with
    | none => -1
    | some ie =>
      match ie.value with
      | [] => -1
      | counter :: _ => counter.toNat

def echoMessage (mt : UInt8) (sequence : UInt32) (recovery : UInt8) : RawMessage where
  messageType := mt
  hasTeid := false
  teid := 0
  sequence := sequence
  piggyback := false
  ies := [⟨ieRecovery, 0, [recovery], []⟩]

def isResponse (messageType : UInt8) : Prop :=
  messageType = mtCreateSessionResponse ∨ messageType = mtModifyBearerResponse ∨
    messageType = mtDeleteSessionResponse

instance (messageType : UInt8) : Decidable (isResponse messageType) :=
  inferInstanceAs (Decidable (_ ∨ _ ∨ _))

def Session.defaultEbi (s : Session) : UInt8 :=
  match s.req.bearers with
  | b :: _ => b.ebi
  | [] => 5

def Session.created (rsp : CreateSessionResponse) (s : Session) : Session :=
  if rsp.cause = causeRequestAccepted then
    { s with
      state := .active
      remoteTeid :=
        if rsp.hasSenderFteid then rsp.senderFteid.teid
        else if rsp.hasPgwFteid then rsp.pgwFteid.teid
        else s.remoteTeid
      tunnels := tunnelsFrom s.req.bearers rsp.bearers }
  else { s with state := .failed }

def Session.modified (rsp : ModifyBearerResponse) (s : Session) : Session :=
  if rsp.cause = causeRequestAccepted then
    { s with tunnels := tunnelsFrom s.modBearers rsp.bearers }
  else s

namespace Tables

variable (tables : Tables)

def findTxn (seq : UInt32) : Option Txn := Keyed.find Txn.seq tables.txns seq

def eraseTxn (seq : UInt32) : Tables := { tables with txns := Keyed.erase Txn.seq tables.txns seq }

def findSession (id : Nat) : Option Session := Keyed.find Session.id tables.sessions id

def updateSession (id : Nat) (change : Session → Session) : Tables :=
  { tables with sessions := Keyed.modify Session.id tables.sessions id change }

def sessionByTeid (localTeid : UInt32) : Option Session :=
  (Keyed.find Prod.fst tables.byTeid localTeid).bind fun entry =>
    tables.findSession entry.2

/-- The index keeps the first session that claims a TEID. -/
def addSession (req : CreateSessionRequest) (peerHost : Bytes) (peerPort : UInt16) : Tables :=
  let teid := req.senderFteid.teid
  { tables with
    sessions := tables.sessions ++ [{
      id := tables.fresh
      state := .creating
      localTeid := teid
      remoteTeid := 0
      peerHost := peerHost
      peerPort := peerPort
      req := req
      modBearers := []
      tunnels := [] }]
    byTeid :=
      match Keyed.find Prod.fst tables.byTeid teid with
      | some _ => tables.byTeid
      | none => tables.byTeid ++ [(teid, tables.fresh)]
    fresh := tables.fresh + 1 }

/-- A transaction sent once, with its timer armed. Storing it destroys the one
under the same sequence number, whose timer stays. -/
def addTxn (due : Nat) (seq : UInt32) (mt : UInt8) (wire : Bytes)
    (sessionTeid : UInt32) (host : Bytes) (port : UInt16) : Tables :=
  { tables with
    timers := tables.timers ++ [⟨tables.fresh + 1, tables.fresh, due⟩]
    txns := Keyed.put Txn.seq tables.txns {
      id := tables.fresh
      seq := seq
      mt := mt
      wire := wire
      sessionTeid := sessionTeid
      host := host
      port := port
      sends := 1
      timerId := tables.fresh + 1 }
    fresh := tables.fresh + 2 }

def resendTxn (due : Nat) (txn : Nat) : Tables :=
  { tables with
    timers := tables.timers ++ [⟨tables.fresh, txn, due⟩]
    txns := Keyed.modify Txn.id tables.txns txn fun t =>
      { t with sends := t.sends + 1, timerId := tables.fresh }
    fresh := tables.fresh + 1 }

def resendUnarmed (txn : Nat) : Tables :=
  { tables with
    txns := Keyed.modify Txn.id tables.txns txn fun t =>
      { t with sends := t.sends + 1, timerId := 0 } }

def cancelTimer (id : Nat) : Tables :=
  { tables with timers := Keyed.erase T3Timer.id tables.timers id }

def purge : Tables :=
  let victims := tables.sessions.filter fun s => s.state = .deleted ∨ s.state = .failed
  { tables with
    sessions := tables.sessions.filter fun s =>
      ¬ (s.state = .deleted ∨ s.state = .failed)
    -- An entry is dropped only when it points at the purged session itself.
    byTeid := tables.byTeid.filter fun entry =>
      ¬ victims.any fun s => s.localTeid = entry.1 ∧ s.id = entry.2 }

end Tables

namespace Endpoint

variable (e : Endpoint)

def emit (outputs : List Output) : Endpoint := { e with log := e.log ++ outputs }

def call (calls : List HandlerCall) : Endpoint :=
  if e.handler then e.emit (calls.map .called) else e

def onTables (change : Tables → Tables) : Endpoint := { e with tables := change e.tables }

def nextSeq : Endpoint × UInt32 :=
  let seq := e.seq + 1
  if seq &&& 0xFFFFFF ≠ 0 then ({ e with seq := seq }, seq &&& 0xFFFFFF)
  else ({ e with seq := seq + 1 }, (seq + 1) &&& 0xFFFFFF)

def nextTeid : Endpoint × UInt32 :=
  let teid := e.ctrlTeid + 1
  if teid ≠ 0 then ({ e with ctrlTeid := teid }, teid)
  else ({ e with ctrlTeid := teid + 1 }, teid + 1)

def sendTo (env : CallEnv) (wire host : Bytes) (port : UInt16) : Endpoint × Option GtpError :=
  match env.send with
  | .sent => (e.emit [.sent wire host port], none)
  | .badAddress => (e, some (gtpError ("bad peer address: " ++ text host)))
  | .refused =>
    (e, some (gtpError
      (if e.txOnLoop then "gtp send queue full for " ++ text host ++ ":" ++ toString port
      else "gtp send to " ++ text host ++ ":" ++ toString port ++ " failed")))

def startTxn (env : CallEnv) (seq : UInt32) (mt : UInt8) (wire : Bytes)
    (sessionTeid : UInt32) (host : Bytes) (port : UInt16) :
    Endpoint × Option GtpError :=
  match e.sendTo env wire host port with
  | (e, some err) => (e, some err)
  | (e, none) =>
    if env.arm then
      (e.onTables fun tables =>
        tables.addTxn (env.now + e.t3Ms) seq mt wire sessionTeid host port, none)
    else (e, some (gtpError "net_loop_after failed"))

def onTxnTimer (env : CallEnv) (t : Txn) : Endpoint × Option GtpError :=
  if t.sends < e.n3 then
    match e.sendTo env t.wire t.host t.port with
    | (e, some err) => (e, some err)
    | (e, none) =>
      if env.arm then
        (e.onTables fun tables => tables.resendTxn (env.now + e.t3Ms) t.id, none)
      else
        (e.onTables fun tables => tables.resendUnarmed t.id,
          some (gtpError "net_loop_after failed"))
  else
    let e := e.onTables fun tables => tables.eraseTxn t.seq
    match e.tables.sessionByTeid t.sessionTeid with
    | none => (e, none)
    | some s =>
      ((e.onTables fun tables =>
        tables.updateSession s.id fun s => { s with state := .failed }).call
          [.timeout s.id t.mt], none)

def fillSequence (req : CreateSessionRequest) : Endpoint × CreateSessionRequest :=
  if req.sequence = 0 then (e.nextSeq.1, { req with sequence := e.nextSeq.2 })
  else (e, req)

def fillSender (sf : Fteid) : Endpoint × Fteid :=
  let sf :=
    if sf.ifType = 0 ∧ sf.teid = 0 ∧ sf.addr4 = [] ∧ sf.addr6 = [] then
      { sf with ifType := ifS11Mme }
    else sf
  let filled : Endpoint × Fteid :=
    if sf.teid = 0 then (e.nextTeid.1, { sf with teid := e.nextTeid.2 }) else (e, sf)
  let sf := filled.2
  if sf.addr4 = [] ∧ sf.addr6 = [] then
    if e.localIpv4 then (filled.1, { sf with addr4 := e.localHost })
    else (filled.1, { sf with addr6 := e.localHost })
  else filled

def fillRequest (req : CreateSessionRequest) : Endpoint × CreateSessionRequest :=
  let numbered := e.fillSequence req
  let addressed := numbered.1.fillSender numbered.2.senderFteid
  (addressed.1, { numbered.2 with senderFteid := addressed.2 })

/-- A request that does not encode throws before its transaction is started. -/
def startEncoded (env : CallEnv) (seq : UInt32) (mt : UInt8)
    (wire : Except GtpError Bytes) (sessionTeid : UInt32) (host : Bytes)
    (port : UInt16) : Endpoint × Option GtpError :=
  match wire with
  | .error err => (e, some err)
  | .ok wire => e.startTxn env seq mt wire sessionTeid host port

def createSession (inet : Inet) (env : CallEnv) (req : CreateSessionRequest)
    (peerHost : Bytes) (peerPort : UInt16) : Endpoint × Option GtpError :=
  let filled := e.fillRequest req
  let req := filled.2
  let e := filled.1.onTables fun tables => tables.addSession req peerHost peerPort
  e.startEncoded env req.sequence mtCreateSessionRequest (req.encode inet)
    req.senderFteid.teid peerHost peerPort

def modifyBearer (inet : Inet) (env : CallEnv) (s : Session)
    (req : ModifyBearerRequest) : Endpoint × Option GtpError :=
  let seq := e.nextSeq.2
  let req := { req with teid := s.remoteTeid, sequence := seq }
  let e := e.nextSeq.1.onTables fun tables =>
    tables.updateSession s.id fun s => { s with modBearers := req.bearers }
  e.startEncoded env seq mtModifyBearerRequest (req.encode inet) s.localTeid s.peerHost s.peerPort

def deleteSessionReq (inet : Inet) (env : CallEnv) (s : Session)
    (req : DeleteSessionRequest) : Endpoint × Option GtpError :=
  let seq := e.nextSeq.2
  let req := { req with teid := s.remoteTeid, sequence := seq }
  let e := e.nextSeq.1.onTables fun tables =>
    tables.updateSession s.id fun s => { s with state := .deleting }
  e.startEncoded env seq mtDeleteSessionRequest (req.encode inet) s.localTeid s.peerHost s.peerPort

def deleteSession (inet : Inet) (env : CallEnv) (s : Session) : Endpoint × Option GtpError :=
  e.deleteSessionReq inet env s { linkedEbi := s.defaultEbi.toNat }

def sendEcho (env : CallEnv) (peerHost : Bytes) (peerPort : UInt16) : Endpoint × Option GtpError :=
  match (echoMessage mtEchoRequest e.nextSeq.2 e.recovery).encode with
  | .error err => (e.nextSeq.1, some err)
  | .ok wire => e.nextSeq.1.sendTo env wire peerHost peerPort

def applyResponse (inet : Inet) (wire : Bytes) (h : Gtp2Hdr) (s : Session) :
    Endpoint × Except GtpError Bool :=
  if h.messageType = mtCreateSessionResponse then
    match CreateSessionResponse.decode inet wire with
    | .error err => (e, .error err)
    | .ok rsp =>
      ((e.onTables fun tables => tables.updateSession s.id (Session.created rsp)).call
        (.createSessionResponse s.id rsp ::
          if rsp.cause = causeRequestAccepted then
            (s.created rsp).tunnels.map (.userPlane s.id)
          else []), .ok true)
  else if h.messageType = mtModifyBearerResponse then
    match ModifyBearerResponse.decode inet wire with
    | .error err => (e, .error err)
    | .ok rsp =>
      ((e.onTables fun tables => tables.updateSession s.id (Session.modified rsp)).call
        (.modifyBearerResponse s.id rsp ::
          if rsp.cause = causeRequestAccepted then
            (s.modified rsp).tunnels.map (.userPlane s.id)
          else []), .ok true)
  else if h.messageType = mtDeleteSessionResponse then
    match DeleteSessionResponse.decode wire with
    | .error err => (e, .error err)
    | .ok rsp =>
      ((e.onTables fun tables =>
        tables.updateSession s.id fun s => { s with state := .deleted }).call
          [.deleteSessionResponse s.id rsp], .ok true)
  else (e, .ok true)

/-- The transaction is matched by sequence number alone; its request type is not
compared with the response. -/
def handleResponse (inet : Inet) (wire : Bytes) (h : Gtp2Hdr) : Endpoint × Except GtpError Bool :=
  match e.tables.findTxn h.sequence with
  | none => (e, .ok false)
  | some t =>
    let e := e.onTables fun tables =>
      (tables.eraseTxn h.sequence).cancelTimer t.timerId
    match e.tables.sessionByTeid t.sessionTeid with
    | none => (e, .ok true)
    | some s => e.applyResponse inet wire h s

def onRequest {Request : Type} (decoded : Except GtpError Request)
    (toCall : Request → HandlerCall) : Endpoint × Option GtpError :=
  if e.handler then
    match decoded with
    | .error err => (e, some err)
    | .ok req => (e.call [toCall req], none)
  else (e, none)

def dispatch (inet : Inet) (env : CallEnv) (wire : Bytes) (h : Gtp2Hdr)
    (host : Bytes) (port : UInt16) : Endpoint × Option GtpError :=
  if h.messageType = mtEchoRequest then
    match (echoMessage mtEchoResponse h.sequence e.recovery).encode with
    | .error err => (e, some err)
    | .ok answer =>
      match e.sendTo env answer host port with
      | (e, some err) => (e, some err)
      | (e, none) => (e.call [.echoRequest host port (recoveryOf wire)], none)
  else if h.messageType = mtEchoResponse then
    (e.call [.echoResponse host port (recoveryOf wire)], none)
  else if isResponse h.messageType then
    match e.handleResponse inet wire h with
    | (e, .error err) => (e, some err)
    | (e, .ok true) => (e, none)
    | (e, .ok false) => (e.call [.message h.messageType wire host port], none)
  else if h.messageType = mtCreateSessionRequest then
    e.onRequest (CreateSessionRequest.decode inet wire)
      fun req => .createSessionRequest req host port
  else if h.messageType = mtModifyBearerRequest then
    e.onRequest (ModifyBearerRequest.decode inet wire) fun req => .modifyBearerRequest req host port
  else if h.messageType = mtDeleteSessionRequest then
    e.onRequest (DeleteSessionRequest.decode inet wire)
      fun req => .deleteSessionRequest req host port
  else if h.messageType = mtCreateBearerRequest then
    e.onRequest (CreateBearerRequest.decode inet wire) fun req => .createBearerRequest req host port
  else (e.call [.message h.messageType wire host port], none)

def handleDatagram (inet : Inet) (env : CallEnv) (wire host : Bytes)
    (port : UInt16) : Endpoint × Option GtpError :=
  match gtp2HdrDecode wire with
  | .error _ => (e, none)
  | .ok (h, _) => e.dispatch inet env wire h host port

/-- The loop runs the callback of a timer that is due, after it has taken the
timer off. -/
def fireTimer (env : CallEnv) (id : Nat) : Endpoint × Option GtpError :=
  match Keyed.find T3Timer.id e.tables.timers id with
  | none => (e, none)
  | some timer =>
    if timer.due ≤ env.now then
      let e := e.onTables fun tables => tables.cancelTimer id
      match Keyed.find Txn.id e.tables.txns timer.txn with
      | none => ({ e with undefined := true }, none)
      | some t => e.onTxnTimer env t
    else (e, none)

/-- A thrown error reaches the caller, or the loop defers it. -/
def settle (result : Endpoint × Option GtpError) : Endpoint :=
  match result with
  | (e, none) => e
  | (e, some err) => e.emit [.threw err]

/-- A session is named by its identity. A call on a session that was purged is
the caller's error and does nothing here. -/
def onSession (id : Nat) (act : Session → Endpoint × Option GtpError) : Endpoint :=
  match e.tables.findSession id with
  | none => e
  | some s => settle (act s)

end Endpoint

/-! Runs. Every state change of a call is made before its callbacks, so what a
callback does to the endpoint is the next event. -/

inductive EndpointEvent where
  | createSession (env : CallEnv) (req : CreateSessionRequest) (peerHost : Bytes)
      (peerPort : UInt16)
  | modifyBearer (env : CallEnv) (session : Nat) (req : ModifyBearerRequest)
  | deleteSession (env : CallEnv) (session : Nat)
  | deleteSessionReq (env : CallEnv) (session : Nat) (req : DeleteSessionRequest)
  | sendEcho (env : CallEnv) (peerHost : Bytes) (peerPort : UInt16)
  | sendRaw (env : CallEnv) (wire host : Bytes) (port : UInt16)
  | datagram (env : CallEnv) (wire host : Bytes) (port : UInt16)
  | timer (env : CallEnv) (id : Nat)
  | purge
  | setT3Ms (ms : Nat)
  | setN3 (n : Nat)
  | setRecovery (counter : UInt8)
  | setHandler (present : Bool)
  | setTxLoop (on : Bool)
  deriving DecidableEq, Repr

def endpointStep (inet : Inet) (e : Endpoint) (event : EndpointEvent) : Endpoint :=
  if e.undefined then e
  else
    match event with
    | .createSession env req peerHost peerPort =>
      .settle (e.createSession inet env req peerHost peerPort)
    | .modifyBearer env session req =>
      e.onSession session fun s => e.modifyBearer inet env s req
    | .deleteSession env session =>
      e.onSession session fun s => e.deleteSession inet env s
    | .deleteSessionReq env session req =>
      e.onSession session fun s => e.deleteSessionReq inet env s req
    | .sendEcho env peerHost peerPort => .settle (e.sendEcho env peerHost peerPort)
    | .sendRaw env wire host port => .settle (e.sendTo env wire host port)
    | .datagram env wire host port =>
      .settle (e.handleDatagram inet env wire host port)
    | .timer env id => .settle (e.fireTimer env id)
    | .purge => e.onTables Tables.purge
    | .setT3Ms ms => { e with t3Ms := ms }
    | .setN3 n => { e with n3 := n }
    | .setRecovery counter => { e with recovery := counter }
    | .setHandler present => { e with handler := present }
    | .setTxLoop on => { e with txOnLoop := on }

end Pro2Call.Gtp2

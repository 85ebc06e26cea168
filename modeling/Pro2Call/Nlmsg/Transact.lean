import Pro2Call.Task.Tlv

namespace Pro2Call.Nlmsg

open Pro2Call.Data
open Pro2Call.Task (toInt)

/-! Requests over a netlink socket. The xfrm and the rtnl module send one
request and wait for the kernel's answer with the same code; they differ in the
size of the buffer they read into. -/

def nlOk : Int := 0
def nlESys : Int := -1
def nlEInval : Int := -2
def nlEOverflow : Int := -3
def nlEAck : Int := -5

def xfrmBufMax : Nat := 2048
def rtnlBufMax : Nat := 1024

def nlmsgHdrlen : Nat := 16
def nlmsgError : Nat := 2
def nlmsgDone : Nat := 3

def nlmsgAlign (len : Nat) : Nat := (len + 3) / 4 * 4

inductive NlVerdict where
  | ack
  | nack (errno : Int)
  | inconclusive
  deriving DecidableEq, Repr

def nlmsgWalk (mem : List UInt8) : NlVerdict :=
  let len := leNat (slice mem 0 4)
  if nlmsgHdrlen ≤ mem.length ∧ nlmsgHdrlen ≤ len ∧ len ≤ mem.length then
    if leNat (slice mem 4 2) = nlmsgError then
      let error := toInt (leNat (slice mem nlmsgHdrlen 4))
      if error = 0 then .ack else .nack (-error)
    else if leNat (slice mem 4 2) = nlmsgDone then .ack
    else nlmsgWalk (mem.drop (nlmsgAlign len))
  else .inconclusive
termination_by mem.length
decreasing_by
  simp only [nlmsgHdrlen, nlmsgAlign, List.length_drop] at *
  omega

/-- A datagram in the socket's receive queue; `request` counts the requests of
the socket and names the one that is answered. -/
structure NlDatagram where
  request : Nat
  bytes : List UInt8
  deriving DecidableEq, Repr

/-- A socket with the kernel's end of it: `sent` requests were taken, and the
answers in `queue` were not read yet. -/
structure NlSock where
  fd : Int
  seq : Nat
  nlErrno : Int
  sent : Nat
  queue : List NlDatagram
  deriving DecidableEq, Repr

def nlOpen (fd : Int) : NlSock where
  fd := fd
  seq := 1
  nlErrno := 0
  sent := 0
  queue := []

/-- The NLMSG_ERROR message that answers a request: an error code, 0 for
success, and an echo of the request. -/
structure KernelAnswer where
  error : Int
  flags : Nat
  pid : Nat
  echo : List UInt8
  error_range : -2 ^ 31 < error ∧ error < 2 ^ 31
  echo_range : 20 + echo.length < 2 ^ 32

def KernelAnswer.bytes (answer : KernelAnswer) (seq : Nat) : List UInt8 :=
  leBytes 4 (20 + answer.echo.length) ++ leBytes 2 nlmsgError ++
    leBytes 2 answer.flags ++ leBytes 4 seq ++ leBytes 4 answer.pid ++
    leBytes 4 (answer.error % 2 ^ 32).toNat ++ answer.echo

inductive RecvEvent where
  | interrupted
  | failed
  | delivered
  deriving DecidableEq, Repr

structure NlResult where
  rc : Int
  answered : Option Nat
  deriving DecidableEq, Repr

/-- The receive loop of `transact`; `none` while the call has not returned. -/
def transactLoop (bufMax : Nat) (s : NlSock) :
    List RecvEvent → Option (NlSock × NlResult)
  | [] => none
  | .interrupted :: rest => transactLoop bufMax s rest
  | .failed :: _ => some (s, ⟨nlESys, none⟩)
  | .delivered :: rest =>
    match s.queue with
    | [] => none
    | datagram :: queue =>
      let s := { s with queue := queue }
      match nlmsgWalk (datagram.bytes.take bufMax) with
      | .ack => some (s, ⟨nlOk, some datagram.request⟩)
      | .nack errno =>
        some ({ s with nlErrno := errno }, ⟨nlEAck, some datagram.request⟩)
      | .inconclusive => transactLoop bufMax s rest

/-- The kernel takes a request and queues its answer, which carries the
sequence number of the request. -/
def kernelTake (s : NlSock) (req : List UInt8) (answer : KernelAnswer) : NlSock :=
  { s with
    sent := s.sent + 1
    queue := s.queue ++ [⟨s.sent, answer.bytes (leNat (slice req 8 4))⟩] }

/-- `answer` is absent when `sendto` fails. -/
def transact (bufMax : Nat) (s : NlSock) (req : List UInt8)
    (answer : Option KernelAnswer) (recvs : List RecvEvent) :
    Option (NlSock × NlResult) :=
  match answer with
  | none => some (s, ⟨nlESys, none⟩)
  | some answer => transactLoop bufMax (kernelTake s req answer) recvs

inductive NlBuildErr where
  | inval
  | overflow
  deriving DecidableEq, Repr

def NlBuildErr.code : NlBuildErr → Int
  | .inval => nlEInval
  | .overflow => nlEOverflow

/-- One call on a socket: the builder it runs with the socket's sequence
number, and what the system calls answer. -/
structure NlCall where
  build : Nat → Except NlBuildErr (List UInt8)
  answer : Option KernelAnswer
  recvs : List RecvEvent

def nlRun (bufMax : Nat) (s : NlSock) (call : NlCall) : Option (NlSock × NlResult) :=
  if s.fd < 0 then some (s, ⟨nlEInval, none⟩)
  else
    match call.build s.seq with
    | .error err => some (s, ⟨err.code, none⟩)
    | .ok req =>
      match transact bufMax s req call.answer call.recvs with
      | none => none
      | some (s, result) => some ({ s with seq := (s.seq + 1) % 2 ^ 32 }, result)

def xfrmRun : NlSock → NlCall → Option (NlSock × NlResult) := nlRun xfrmBufMax

-- The callers of rtnl's `run` check the descriptor and build the message.
def rtnlRun : NlSock → NlCall → Option (NlSock × NlResult) := nlRun rtnlBufMax

/-- Closing drops what was not read. -/
def nlClose (s : NlSock) : NlSock :=
  if 0 ≤ s.fd then { s with fd := -1, queue := [] } else s

inductive NlReached (bufMax : Nat) : NlSock → Prop where
  | opened (fd : Int) : NlReached bufMax (nlOpen fd)
  | called {s s' : NlSock} {call : NlCall} {result : NlResult} (before : NlReached bufMax s)
      (returned : nlRun bufMax s call = some (s', result)) :
      NlReached bufMax s'
  | closed {s : NlSock} (before : NlReached bufMax s) :
      NlReached bufMax (nlClose s)

end Pro2Call.Nlmsg

import Pro2Call.Nlmsg.Transact

namespace Pro2Call.Nlmsg

open Pro2Call.Data
open Pro2Call.Task (toInt)

/-! Which request a call's return code answers. The receive loop takes the
first conclusive answer of the queue and does not look at its sequence number,
so an answer that an earlier call left unread is taken for the call's own. -/

def KernelAnswer.verdict (answer : KernelAnswer) : NlVerdict :=
  if answer.error = 0 then .ack else .nack (-answer.error)

def NlVerdict.Reported (verdict : NlVerdict) (s : NlSock) (rc : Int) : Prop :=
  match verdict with
  | .ack => rc = nlOk
  | .nack errno => rc = nlEAck ∧ s.nlErrno = errno
  | .inconclusive => False

def NlResult.Conclusive (result : NlResult) : Prop := result.rc = nlOk ∨ result.rc = nlEAck

/-- However the system calls of the next call end, the code it returns for an
answer reports the answer to its own request. -/
def OwnAnswer (bufMax : Nat) (s : NlSock) (build : Nat → Except NlBuildErr (List UInt8)) : Prop :=
  ∀ (answer : Option KernelAnswer) (recvs : List RecvEvent) (s' : NlSock) (result : NlResult),
    nlRun bufMax s ⟨build, answer, recvs⟩ = some (s', result) →
    result.Conclusive →
    result.answered = some s.sent ∧ ∃ own, answer = some own ∧ own.verdict.Reported s' result.rc

theorem KernelAnswer.length_bytes (answer : KernelAnswer) (seq : Nat) :
    (answer.bytes seq).length = 20 + answer.echo.length := by
  simp only [KernelAnswer.bytes, List.length_append, length_leBytes]

theorem slice_take {mem : List UInt8} {pos len count : Nat} (inside : pos + len ≤ count) :
    slice (mem.take count) pos len = slice mem pos len := by
  simp only [slice, List.drop_take, List.take_take]
  congr 1
  omega

theorem KernelAnswer.slice_length (answer : KernelAnswer) (seq : Nat) :
    leNat (slice (answer.bytes seq) 0 4) = 20 + answer.echo.length := by
  have head : slice (answer.bytes seq) 0 4 = leBytes 4 (20 + answer.echo.length) := by
    simp [KernelAnswer.bytes, slice]
  rw [head, leNat_leBytes (by have := answer.echo_range; omega)]

theorem KernelAnswer.slice_type (answer : KernelAnswer) (seq : Nat) :
    leNat (slice (answer.bytes seq) 4 2) = nlmsgError := by
  have part : slice (answer.bytes seq) 4 2 = leBytes 2 nlmsgError := by
    simp [KernelAnswer.bytes, slice]
  rw [part, leNat_leBytes (by decide)]

theorem toInt_emod {value : Int} (range : -2 ^ 31 < value ∧ value < 2 ^ 31) :
    toInt (value % 2 ^ 32).toNat = value := by
  simp only [toInt]
  omega

theorem KernelAnswer.slice_error (answer : KernelAnswer) (seq : Nat) :
    toInt (leNat (slice (answer.bytes seq) nlmsgHdrlen 4)) = answer.error := by
  have part := slice_append_length (leBytes 4 (20 + answer.echo.length) ++ leBytes 2 nlmsgError ++
      leBytes 2 answer.flags ++ leBytes 4 seq ++ leBytes 4 answer.pid)
    (leBytes 4 (answer.error % 2 ^ 32).toNat) answer.echo
  simp only [List.length_append, length_leBytes, Nat.reduceAdd] at part
  rw [KernelAnswer.bytes, nlmsgHdrlen, part, leNat_leBytes (by omega),
    toInt_emod answer.error_range]

variable {bufMax : Nat} {s s' : NlSock} {recvs : List RecvEvent} {result : NlResult}
    {req : List UInt8}

theorem nlmsgWalk_fits {answer : KernelAnswer} (fits : (answer.bytes seq).length ≤ bufMax) :
    nlmsgWalk ((answer.bytes seq).take bufMax) = answer.verdict := by
  rw [List.take_of_length_le fits, nlmsgWalk]
  have size := answer.length_bytes seq
  have header : nlmsgHdrlen ≤ 20 + answer.echo.length := by
    simp only [nlmsgHdrlen]
    omega
  simp only [answer.slice_length, answer.slice_type, answer.slice_error, size,
    header, Nat.le_refl, and_self, if_true, KernelAnswer.verdict]

theorem nlmsgWalk_cut {answer : KernelAnswer} (long : bufMax < (answer.bytes seq).length) :
    nlmsgWalk ((answer.bytes seq).take bufMax) = .inconclusive := by
  have size := answer.length_bytes seq
  rw [nlmsgWalk]
  apply if_neg
  rintro ⟨header, _, whole⟩
  simp only [List.length_take, nlmsgHdrlen] at header whole
  rw [slice_take (by omega), answer.slice_length] at whole
  omega

theorem KernelAnswer.verdict_ne_inconclusive (answer : KernelAnswer) :
    answer.verdict ≠ .inconclusive := by
  simp only [KernelAnswer.verdict]
  split <;> simp

/-- An exchange only takes datagrams off the socket, and a conclusive result is
what one of them reports. -/
theorem transactLoop_ok (returned : transactLoop bufMax s recvs = some (s', result)) :
    (s'.fd = s.fd ∧ s'.sent = s.sent ∧ s'.queue ⊆ s.queue) ∧
      (result.Conclusive → ∃ datagram ∈ s.queue, result.answered = some datagram.request ∧
        (nlmsgWalk (datagram.bytes.take bufMax)).Reported s' result.rc) := by
  induction recvs generalizing s with
  | nil => simp [transactLoop] at returned
  | cons event rest ih =>
    cases event with
    | interrupted => exact ih returned
    | failed =>
      simp only [transactLoop, Option.some.injEq, Prod.mk.injEq] at returned
      obtain ⟨rfl, rfl⟩ := returned
      refine ⟨⟨rfl, rfl, List.Subset.refl _⟩, fun conclusive => ?_⟩
      simp [NlResult.Conclusive, nlESys, nlOk, nlEAck] at conclusive
    | delivered =>
      cases pending : s.queue with
      | nil => simp [transactLoop, pending] at returned
      | cons datagram queue =>
        simp only [transactLoop, pending] at returned
        cases walked : nlmsgWalk (datagram.bytes.take bufMax) with
        | ack | nack errno =>
          simp only [walked, Option.some.injEq, Prod.mk.injEq] at returned
          obtain ⟨rfl, rfl⟩ := returned
          exact ⟨⟨rfl, rfl, List.subset_cons_self _ _⟩, fun _ =>
            ⟨datagram, List.mem_cons_self, rfl, by simp [walked, NlVerdict.Reported]⟩⟩
        | inconclusive =>
          simp only [walked] at returned
          obtain ⟨⟨sameFd, sameSent, queued⟩, answered⟩ := ih returned
          refine ⟨⟨sameFd, sameSent, List.Subset.trans queued (List.subset_cons_self _ _)⟩,
            fun conclusive => ?_⟩
          obtain ⟨found, inQueue, facts⟩ := answered conclusive
          exact ⟨found, List.mem_cons_of_mem _ inQueue, facts⟩

theorem transactLoop_returns {pending later : List NlDatagram} (queued : s.queue = pending ++ later)
    (conclusive : ∃ datagram ∈ pending, nlmsgWalk (datagram.bytes.take bufMax) ≠ .inconclusive) :
    ∃ recvs s' result, transactLoop bufMax s recvs = some (s', result) ∧
      result.Conclusive ∧ ∃ datagram ∈ pending, result.answered = some datagram.request := by
  induction pending generalizing s with
  | nil => simp at conclusive
  | cons datagram pending ih =>
    cases walked : nlmsgWalk (datagram.bytes.take bufMax) with
    | ack =>
      refine ⟨[.delivered], { s with queue := pending ++ later },
        ⟨nlOk, some datagram.request⟩, ?_, Or.inl rfl, datagram, List.mem_cons_self, rfl⟩
      simp [transactLoop, queued, walked]
    | nack errno =>
      refine ⟨[.delivered], { s with queue := pending ++ later, nlErrno := errno },
        ⟨nlEAck, some datagram.request⟩, ?_, Or.inr rfl, datagram, List.mem_cons_self, rfl⟩
      simp [transactLoop, queued, walked]
    | inconclusive =>
      have further : ∃ datagram ∈ pending,
          nlmsgWalk (datagram.bytes.take bufMax) ≠ .inconclusive := by
        obtain ⟨found, inQueue, decided⟩ := conclusive
        cases List.mem_cons.mp inQueue with
        | inl same => exact absurd (same ▸ walked) decided
        | inr inPending => exact ⟨found, inPending, decided⟩
      obtain ⟨recvs, s', result, returned, decided, found, inPending, answered⟩ :=
        ih (s := { s with queue := pending ++ later }) rfl further
      refine ⟨.delivered :: recvs, s', result, ?_, decided, found,
        List.mem_cons_of_mem _ inPending, answered⟩
      simpa only [transactLoop, queued, List.cons_append, walked] using returned

/-- The queue holds answers to requests taken before, and none without an open
descriptor. -/
structure Backlog (s : NlSock) : Prop where
  isOpen : s.fd < 0 → s.queue = []
  answers : ∀ datagram ∈ s.queue, datagram.request < s.sent ∧
    ∃ (answer : KernelAnswer) (seq : Nat), datagram.bytes = answer.bytes seq

theorem Backlog.take (backlog : Backlog s) (isOpen : ¬ s.fd < 0)
    (req : List UInt8) (answer : KernelAnswer) :
    Backlog (kernelTake s req answer) where
  isOpen closed := absurd closed isOpen
  answers := by
    intro datagram inQueue
    cases List.mem_append.mp inQueue with
    | inl earlier =>
      obtain ⟨before, form⟩ := backlog.answers datagram earlier
      exact ⟨Nat.lt_succ_of_lt before, form⟩
    | inr own =>
      rw [List.mem_singleton.mp own]
      exact ⟨Nat.lt_succ_self _, answer, _, rfl⟩

theorem Backlog.shrink (backlog : Backlog s) (sameFd : s'.fd = s.fd) (sameSent : s'.sent = s.sent)
    (queued : s'.queue ⊆ s.queue) : Backlog s' where
  isOpen closed := List.eq_nil_of_subset_nil (backlog.isOpen (sameFd ▸ closed) ▸ queued)
  answers datagram inQueue := by
    rw [sameSent]
    exact backlog.answers datagram (queued inQueue)

theorem Backlog.of_transact {answer : Option KernelAnswer}
    (backlog : Backlog s) (isOpen : ¬ s.fd < 0)
    (returned : transact bufMax s req answer recvs = some (s', result)) :
    Backlog s' := by
  cases answer with
  | none =>
    simp only [transact, Option.some.injEq, Prod.mk.injEq] at returned
    exact returned.1 ▸ backlog
  | some answer =>
    obtain ⟨sameFd, sameSent, queued⟩ := (transactLoop_ok returned).1
    exact (backlog.take isOpen req answer).shrink sameFd sameSent queued

theorem Backlog.of_run {call : NlCall} (backlog : Backlog s)
    (returned : nlRun bufMax s call = some (s', result)) : Backlog s' := by
  simp only [nlRun] at returned
  split at returned
  · cases returned
    exact backlog
  next isOpen =>
    split at returned
    · cases returned
      exact backlog
    next req _ =>
      split at returned
      · cases returned
      next taken ended exchanged =>
        cases returned
        exact (backlog.of_transact isOpen exchanged).shrink rfl rfl (List.Subset.refl _)

theorem Backlog.close (backlog : Backlog s) : Backlog (nlClose s) := by
  simp only [nlClose]
  split
  · exact ⟨fun _ => rfl, by simp⟩
  · exact backlog

theorem NlReached.backlog (reached : NlReached bufMax s) : Backlog s := by
  induction reached with
  | opened fd => exact ⟨fun _ => rfl, by simp [nlOpen]⟩
  | called _ returned ih => exact ih.of_run returned
  | closed _ ih => exact ih.close

theorem nlRun_eq {call : NlCall} (isOpen : ¬ s.fd < 0) (builds : call.build s.seq = .ok req) :
    nlRun bufMax s call = (transact bufMax s req call.answer call.recvs).map fun (s, result) =>
        ({ s with seq := (s.seq + 1) % 2 ^ 32 }, result) := by
  simp only [nlRun, if_neg isOpen, builds]
  cases transact bufMax s req call.answer call.recvs <;> rfl

theorem NlVerdict.Reported.of_errno {verdict : NlVerdict} (reported : verdict.Reported s rc)
    (same : s'.nlErrno = s.nlErrno) :
    verdict.Reported s' rc := by
  cases verdict with
  | ack => exact reported
  | nack errno => exact ⟨reported.1, same.trans reported.2⟩
  | inconclusive => exact reported

theorem Backlog.ownAnswer {build : Nat → Except NlBuildErr (List UInt8)} (backlog : Backlog s)
    (builds : build s.seq = .ok req)
    (unreadable : ∀ datagram ∈ s.queue, bufMax < datagram.bytes.length) :
    OwnAnswer bufMax s build := by
  intro answer recvs s' result returned conclusive
  by_cases isOpen : s.fd < 0
  · simp only [nlRun, if_pos isOpen, Option.some.injEq, Prod.mk.injEq] at returned
    obtain ⟨-, rfl⟩ := returned
    simp [NlResult.Conclusive, nlEInval, nlOk, nlEAck] at conclusive
  rw [nlRun_eq isOpen builds, Option.map_eq_some_iff] at returned
  obtain ⟨⟨ended, _⟩, exchanged, same⟩ := returned
  cases same
  cases answer with
  | none =>
    simp only [transact, Option.some.injEq, Prod.mk.injEq] at exchanged
    obtain ⟨-, rfl⟩ := exchanged
    simp [NlResult.Conclusive, nlESys, nlOk, nlEAck] at conclusive
  | some own =>
    obtain ⟨datagram, inQueue, answered, reported⟩ := (transactLoop_ok exchanged).2 conclusive
    cases List.mem_append.mp inQueue with
    | inl earlier =>
      obtain ⟨-, answer, seq, form⟩ := backlog.answers datagram earlier
      have long := unreadable datagram earlier
      rw [form] at long reported
      rw [nlmsgWalk_cut long] at reported
      exact reported.elim
    | inr last =>
      rw [List.mem_singleton.mp last] at answered reported
      refine ⟨answered, own, rfl, ?_⟩
      by_cases fits : (own.bytes (leNat (slice req 8 4))).length ≤ bufMax
      · rw [nlmsgWalk_fits fits] at reported
        exact reported.of_errno rfl
      · rw [nlmsgWalk_cut (Nat.lt_of_not_le fits)] at reported
        exact reported.elim

def accepted : KernelAnswer where
  error := 0
  flags := 0
  pid := 0
  echo := []
  error_range := by decide
  echo_range := by decide

theorem Backlog.unreadable {build : Nat → Except NlBuildErr (List UInt8)} (backlog : Backlog s)
    (builds : build s.seq = .ok req) (own : OwnAnswer bufMax s build) :
    ∀ datagram ∈ s.queue, bufMax < datagram.bytes.length := by
  intro datagram inQueue
  apply Nat.lt_of_not_le
  intro fits
  have isOpen : ¬ s.fd < 0 := fun closed => by
    simp [backlog.isOpen closed] at inQueue
  have readable : nlmsgWalk (datagram.bytes.take bufMax) ≠ .inconclusive := by
    obtain ⟨-, answer, seq, form⟩ := backlog.answers datagram inQueue
    rw [form] at fits ⊢
    rw [nlmsgWalk_fits fits]
    exact answer.verdict_ne_inconclusive
  -- With its own request accepted, the call still returns the stale datagram.
  obtain ⟨recvs, s', result, returned, conclusive, stale, inPending, answered⟩ :=
    transactLoop_returns (s := kernelTake s req accepted) rfl ⟨datagram, inQueue, readable⟩
  have ran : nlRun bufMax s ⟨build, some accepted, recvs⟩ =
      some ({ s' with seq := (s'.seq + 1) % 2 ^ 32 }, result) := by
    rw [nlRun_eq isOpen builds]
    simp only [transact, returned, Option.map_some]
  have sameRequest := (own _ _ _ _ ran conclusive).1
  rw [answered, Option.some.injEq] at sameRequest
  exact absurd sameRequest (Nat.ne_of_lt (backlog.answers stale inPending).1)

/-- In a reached state the next call returns its own answer, however its system
calls end, exactly when no unread answer fits the buffer. -/
theorem ownAnswer_iff_unreadable {bufMax : Nat} {s : NlSock} {req : List UInt8}
    {build : Nat → Except NlBuildErr (List UInt8)}
    (reached : NlReached bufMax s) (builds : build s.seq = .ok req) :
    OwnAnswer bufMax s build ↔ ∀ datagram ∈ s.queue, bufMax < datagram.bytes.length :=
  ⟨reached.backlog.unreadable builds, reached.backlog.ownAnswer builds⟩

def headerOnly (seq : Nat) : Except NlBuildErr (List UInt8) :=
  .ok (leBytes 4 nlmsgHdrlen ++ leBytes 2 0x1c ++ leBytes 2 5 ++ leBytes 4 seq ++ leBytes 4 0)

def rejected : KernelAnswer where
  error := -17
  flags := 0
  pid := 0
  echo := []
  error_range := by decide
  echo_range := by decide

def unreadRejection : NlSock := ⟨3, 2, 0, 1, [⟨0, rejected.bytes 1⟩]⟩

def answerRead : NlSock := ⟨3, 2, 0, 1, []⟩

theorem ownAnswer_after_request :
    (OwnAnswer xfrmBufMax answerRead headerOnly ∧
        ¬ OwnAnswer xfrmBufMax unreadRejection headerOnly) ∧
      OwnAnswer rtnlBufMax answerRead headerOnly ∧
        ¬ OwnAnswer rtnlBufMax unreadRejection headerOnly := by
  have read : ∀ bufMax, ∀ datagram ∈ answerRead.queue, bufMax < datagram.bytes.length := by
    intro bufMax datagram queued
    cases queued
  have xfrmRead : xfrmRun (nlOpen 3) ⟨headerOnly, some accepted, [.delivered]⟩ =
      some (answerRead, ⟨nlOk, some 0⟩) := by decide +kernel
  have rtnlRead : rtnlRun (nlOpen 3) ⟨headerOnly, some accepted, [.delivered]⟩ =
      some (answerRead, ⟨nlOk, some 0⟩) := by decide +kernel
  have xfrmStale : xfrmRun (nlOpen 3) ⟨headerOnly, some rejected, [.failed]⟩ =
      some (unreadRejection, ⟨nlESys, none⟩) := by decide +kernel
  have rtnlStale : rtnlRun (nlOpen 3) ⟨headerOnly, some rejected, [.failed]⟩ =
      some (unreadRejection, ⟨nlESys, none⟩) := by decide +kernel
  refine ⟨⟨?_, ?_⟩, ?_, ?_⟩
  · exact (ownAnswer_iff_unreadable (.called (.opened 3) xfrmRead) rfl).mpr (read _)
  · rw [ownAnswer_iff_unreadable (.called (.opened 3) xfrmStale) rfl]
    decide
  · exact (ownAnswer_iff_unreadable (.called (.opened 3) rtnlRead) rfl).mpr (read _)
  · rw [ownAnswer_iff_unreadable (.called (.opened 3) rtnlStale) rfl]
    decide

def rejectionRead : NlSock := ⟨3, 3, 17, 2, [⟨1, accepted.bytes 2⟩]⟩

/-- The first call's `recv` fails with its rejection queued; the second call's
request is accepted, and the call returns the rejection of the first. -/
theorem stale_rejection_returned :
    (xfrmRun (nlOpen 3) ⟨headerOnly, some rejected, [.failed]⟩ =
        some (unreadRejection, ⟨nlESys, none⟩) ∧
      xfrmRun unreadRejection ⟨headerOnly, some accepted, [.delivered]⟩ =
        some (rejectionRead, ⟨nlEAck, some 0⟩)) ∧
    (rtnlRun (nlOpen 3) ⟨headerOnly, some rejected, [.failed]⟩ =
        some (unreadRejection, ⟨nlESys, none⟩) ∧
      rtnlRun unreadRejection ⟨headerOnly, some accepted, [.delivered]⟩ =
        some (rejectionRead, ⟨nlEAck, some 0⟩)) := by
  refine ⟨⟨?_, ?_⟩, ?_, ?_⟩ <;> decide +kernel

end Pro2Call.Nlmsg

import Pro2Call.Gtp2.EndpointTables

namespace Pro2Call.Gtp2

open Pro2Call.Data

def answerTo (request : UInt8) : Option UInt8 :=
  if request = mtCreateSessionRequest then some mtCreateSessionResponse
  else if request = mtModifyBearerRequest then some mtModifyBearerResponse
  else if request = mtDeleteSessionRequest then some mtDeleteSessionResponse
  else none

/-- An outstanding transaction has the response's sequence number and is
answered by a message of its type. -/
def Tables.Awaits (tables : Tables) (h : Gtp2Hdr) : Prop :=
  ∃ t ∈ tables.txns, t.seq = h.sequence ∧ answerTo t.mt = some h.messageType

theorem Tables.answer_txns (tables : Tables) (inet : Inet) (wire : Bytes) (h : Gtp2Hdr) :
    (tables.answer inet wire h).txns = Keyed.erase Txn.seq tables.txns h.sequence := by
  unfold answer
  cases found : tables.findTxn h.sequence with
  | none => exact (Keyed.erase_of_absent (Keyed.find_eq_none.mp found)).symm
  | some t => exact (updateByTeid_same _ _ _).1

theorem Tables.answer_of_absent {tables : Tables} {h : Gtp2Hdr}
    (absent : ∀ t ∈ tables.txns, t.seq ≠ h.sequence) (inet : Inet) (wire : Bytes) :
    tables.answer inet wire h = tables := by
  have unmatched : tables.findTxn h.sequence = none := Keyed.find_eq_none.mpr absent
  simp [answer, unmatched]

theorem endpointStep_response {e : Endpoint} (defined : e.undefined = false)
    (env : CallEnv) (response : responseHdr wire = some h)
    (host : Bytes) (port : UInt16) :
    (endpointStep inet e (.datagram env wire host port)).tables = e.tables.answer inet wire h := by
  rw [(endpointStep_quiet inet defined _).tables]
  simp only [outcome, response, Endpoint.tables_onTables]

theorem responseHdr_eq_some {len : Nat}
    (decoded : gtp2HdrDecode wire = .ok (h, len)) (response : isResponse h.messageType) :
    responseHdr wire = some h := by
  simp [responseHdr, decoded, response]

/-- A message that no outstanding request awaits leaves the sessions and the
transactions alone exactly when it is no response, or not one with the sequence
number of a request of another kind. -/
theorem response_confined_iff {inet : Inet} {e : Endpoint} (reached : Reachable inet e)
    (env : CallEnv) {wire : Bytes} {h : Gtp2Hdr} {len : Nat}
    (decoded : gtp2HdrDecode wire = .ok (h, len)) (host : Bytes) (port : UInt16) :
    (¬ e.tables.Awaits h → (endpointStep inet e (.datagram env wire host port)).tables.sessions =
          e.tables.sessions ∧
        (endpointStep inet e (.datagram env wire host port)).tables.txns = e.tables.txns) ↔
      (isResponse h.messageType →
        ∀ t ∈ e.tables.txns, t.seq = h.sequence → answerTo t.mt = some h.messageType) := by
  have wf := reached.wellFormed
  by_cases response : isResponse h.messageType
  swap
  · have unread : responseHdr wire = none := by simp [responseHdr, decoded, response]
    refine iff_of_true (fun _ => ?_) (absurd · response)
    rw [(endpointStep_quiet inet reached.1 _).tables]
    simp [outcome, unread]
  rw [endpointStep_response reached.1 env (responseHdr_eq_some decoded response), imp_iff_right
    response]
  constructor
  · intro confined t member same
    by_contra mismatch
    have unawaited : ¬ e.tables.Awaits h := by
      rintro ⟨other, otherMember, otherSame, answered⟩
      rw [wf.txns.seqs.eq_of_key otherMember member (otherSame.trans same.symm)] at answered
      exact mismatch answered
    have kept := (confined unawaited).2
    rw [Tables.answer_txns] at kept
    rw [← kept] at member
    exact (Keyed.mem_erase.mp member).2 same
  · intro matching unawaited
    have absent : ∀ t ∈ e.tables.txns, t.seq ≠ h.sequence := by
      intro t member same
      exact unawaited ⟨t, member, same, matching t member same⟩
    rw [Tables.answer_of_absent absent]
    exact ⟨rfl, rfl⟩

def attached : Endpoint := runTwoHosts [.createSession .works attach peerAddress 2123]

theorem attached_reachable : Reachable twoHosts attached :=
  ⟨by decide +kernel, localAddress, true, [.createSession .works attach peerAddress 2123], rfl⟩

theorem unknown_response_confined :
    (endpointStep twoHosts attached (.datagram .works
        (responseWire mtCreateSessionResponse 2 causeRequestAccepted) peerAddress
        2123)).tables.sessions = attached.tables.sessions ∧
      (endpointStep twoHosts attached (.datagram .works
        (responseWire mtCreateSessionResponse 2 causeRequestAccepted) peerAddress
        2123)).tables.txns = attached.tables.txns := by
  have unused : ∀ t ∈ attached.tables.txns, t.seq ≠ 2 := by decide +kernel
  have decoded : gtp2HdrDecode (responseWire mtCreateSessionResponse 2 causeRequestAccepted) =
      .ok (⟨2, false, true, false, mtCreateSessionResponse, 14, 1, 2, 0⟩, 12) := by
    decide
  have confined := (response_confined_iff attached_reachable .works decoded
    peerAddress 2123).mpr (fun _ t member same => absurd same (unused t member))
  apply confined
  rintro ⟨t, member, same, _⟩
  exact unused t member same

/-- A Delete Session Response to a Create Session Request ends the session. -/
theorem create_answered_by_delete :
    attached.tables.txns.map (fun t => (t.seq, t.mt)) = [(1, mtCreateSessionRequest)] ∧
      attached.tables.sessions.map Session.state = [.creating] ∧
      (endpointStep twoHosts attached (.datagram .works
        (responseWire mtDeleteSessionResponse 1 causeRequestAccepted) peerAddress
        2123)).tables.txns = [] ∧
      (endpointStep twoHosts attached (.datagram .works
        (responseWire mtDeleteSessionResponse 1 causeRequestAccepted) peerAddress
        2123)).tables.sessions.map Session.state = [.deleted] := by
  decide +kernel

end Pro2Call.Gtp2

import Pro2Call.Gtpu.TableStep

namespace Pro2Call.Gtpu

open Pro2Call.Data

/-! Each call writes two maps in turn. A call that reports an error should
leave all four maps as they were. -/

def FailsClean (s : ForwardingMaps) (call : TableCall) : Prop :=
  (call.exec s).2 ≠ .ok → (call.exec s).1 = s

/-- When the second write or deletion of a call cannot fail after the first
one has changed something. Only the strict add undoes its first write. -/
def SecondWriteSafe (s : ForwardingMaps) : TableCall → Prop
  | .teidAdd _ => True
  | .teidUpdate t => tunCheck t = .ok → ∀ cur, s.rx.lookup t.localTeid = some cur →
        ((s.lpm (tunLpm t).1).lookup (tunLpm t).2).isSome ∨ cur = tunToRx t
  | .teidDel t => tunCheck t = .ok → ((s.rx.lookup t.localTeid).isSome ↔
        ((s.lpm (tunLpm t).1).lookup (tunLpm t).2).isSome)
  | .tftAdd f => ∀ k, tftKeyBuild f = .ok k → ∀ cur, s.rx.lookup f.tunnel.localTeid = some cur →
        (s.tft.lookup k = none ∧ ¬ s.tft.Full) ∨ cur = tftRx f.tunnel (some cur)
  | .tftDel f => ∀ k, tftKeyBuild f = .ok k →
      ((s.tft.lookup k).isSome ↔ (s.rx.lookup f.tunnel.localTeid).isSome)

private theorem withRx_eq_self_iff (s : ForwardingMaps) (rx : BoundedMap UInt32 GtpuRxTun) :
    { s with rx := rx } = s ↔ rx = s.rx := by
  constructor
  · intro equal
    exact congrArg ForwardingMaps.rx equal
  · rintro rfl
    rfl

theorem failsClean_teidAdd (s : ForwardingMaps) (t : GtpuTunnel) : FailsClean s (.teidAdd t) := by
  intro failed
  simp only [TableCall.exec] at failed ⊢
  rcases gtpuTeidAdd_cases s t with ⟨room, lpmRoom, written⟩ | ⟨unchanged, _⟩
  · simp [written] at failed
  · exact unchanged

theorem failsClean_teidUpdate_iff (s : ForwardingMaps) (t : GtpuTunnel) :
    FailsClean s (.teidUpdate t) ↔ SecondWriteSafe s (.teidUpdate t) := by
  simp only [FailsClean, TableCall.exec, SecondWriteSafe]
  by_cases checked : tunCheck t = .ok
  · cases found : s.rx.lookup t.localTeid with
    | none =>
      rw [gtpuTeidUpdate_of_missing s checked found]
      simp
    | some cur =>
      have present : (s.rx.lookup t.localTeid).isSome := by simp [found]
      cases lpmFound : (s.lpm (tunLpm t).1).lookup (tunLpm t).2 with
      | none =>
        rw [gtpuTeidUpdate_of_lpm_missing s checked present lpmFound,
          withRx_eq_self_iff, BoundedMap.put_eq_self_iff s.rx _ _ found]
        simp [checked]
      | some tun =>
        rw [gtpuTeidUpdate_of_present s checked present (by simp [lpmFound])]
        simp
  · rw [gtpuTeidUpdate, teidWrite_of_refused s .exist checked]
    simp [checked]

private theorem deletePair_clean_iff [DecidableEq Key] [DecidableEq Key']
    (first : BoundedMap Key Value) (second : BoundedMap Key' Value')
    (key : Key) (key' : Key') :
    (errSys ((bpfMapDeleteElem first key).2 <|> (bpfMapDeleteElem second key').2) ≠ .ok →
        (bpfMapDeleteElem first key).1 = first ∧ (bpfMapDeleteElem second key').1 = second) ↔
      ((first.lookup key).isSome ↔ (second.lookup key').isSome) := by
  cases found : first.lookup key with
  | none =>
    rw [bpfMapDeleteElem_of_missing found]
    cases found' : second.lookup key' with
    | none =>
      rw [bpfMapDeleteElem_of_missing found']
      simp
    | some value' =>
      have present' : (second.lookup key').isSome := by simp [found']
      rw [bpfMapDeleteElem_of_present present']
      have changed := BoundedMap.remove_ne_self second present'
      simp [errSys, changed]
  | some value =>
    have present : (first.lookup key).isSome := by simp [found]
    rw [bpfMapDeleteElem_of_present present]
    have changed := BoundedMap.remove_ne_self first present
    cases found' : second.lookup key' with
    | none =>
      rw [bpfMapDeleteElem_of_missing found']
      simp [errSys, changed]
    | some value' =>
      rw [bpfMapDeleteElem_of_present (by simp [found'])]
      simp [errSys]

private theorem withRxLpm_eq_self_iff (s : ForwardingMaps) (fd : LpmFd)
    (rx : BoundedMap UInt32 GtpuRxTun) (trie : LpmTrie) :
    { s with rx := rx }.setLpm trie fd = s ↔
      rx = s.rx ∧ trie = s.lpm fd := by
  cases s
  cases fd <;> simp [ForwardingMaps.setLpm, ForwardingMaps.lpm]

private theorem withRxTft_eq_self_iff (s : ForwardingMaps) (rx : BoundedMap UInt32 GtpuRxTun)
    (tft : BoundedMap GtpuTftKey GtpuTxTun) :
    { s with rx := rx, tft := tft } = s ↔ tft = s.tft ∧ rx = s.rx := by
  cases s
  simp [and_comm]

theorem failsClean_teidDel_iff (s : ForwardingMaps) (t : GtpuTunnel) :
    FailsClean s (.teidDel t) ↔ SecondWriteSafe s (.teidDel t) := by
  simp only [FailsClean, TableCall.exec, SecondWriteSafe]
  by_cases checked : tunCheck t = .ok
  · rw [gtpuTeidDel_of_checked s checked, withRxLpm_eq_self_iff, deletePair_clean_iff]
    simp [checked]
  · rw [gtpuTeidDel_of_refused s checked]
    simp [checked]

theorem failsClean_tftDel_iff (s : ForwardingMaps) (f : GtpuTft) :
    FailsClean s (.tftDel f) ↔ SecondWriteSafe s (.tftDel f) := by
  simp only [FailsClean, TableCall.exec, SecondWriteSafe]
  cases built : tftKeyBuild f with
  | error rc =>
    rw [gtpuTftDel_of_refused s built]
    simp
  | ok k =>
    rw [gtpuTftDel_of_key s built, withRxTft_eq_self_iff, deletePair_clean_iff]
    simp

theorem failsClean_tftAdd_iff (s : ForwardingMaps) (f : GtpuTft) :
    FailsClean s (.tftAdd f) ↔ SecondWriteSafe s (.tftAdd f) := by
  simp only [FailsClean, TableCall.exec, SecondWriteSafe]
  cases built : tftKeyBuild f with
  | error rc =>
    rw [gtpuTftAdd_of_refused s built]
    simp
  | ok k =>
    simp only [Except.ok.injEq, forall_eq']
    by_cases room : (s.rx.lookup f.tunnel.localTeid).isSome ∨ ¬ s.rx.Full
    · by_cases accepted : s.tft.lookup k = none ∧ ¬ s.tft.Full
      · rw [gtpuTftAdd_of_accepted s built room accepted.1 accepted.2]
        simp [accepted]
      · obtain ⟨failed, left⟩ :=
          gtpuTftAdd_of_filter_refused s built room accepted
        rw [left]
        cases found : s.rx.lookup f.tunnel.localTeid with
        | none => simp
        | some cur =>
          simp only [Option.isSome_some, if_true, withRx_eq_self_iff,
            tftRefresh, BoundedMap.put_eq_self_iff s.rx _ room found]
          simp [failed, accepted, found]
    · have missing : s.rx.lookup f.tunnel.localTeid = none := by
        simpa using (not_or.mp room).1
      rw [gtpuTftAdd_of_rx_full s built room]
      simp [missing]

theorem failsClean_iff (s : ForwardingMaps) (call : TableCall) :
    FailsClean s call ↔ SecondWriteSafe s call := by
  cases call with
  | teidAdd t => exact ⟨fun _ => trivial, fun _ => failsClean_teidAdd s t⟩
  | teidUpdate t => exact failsClean_teidUpdate_iff s t
  | teidDel t => exact failsClean_teidDel_iff s t
  | tftAdd f => exact failsClean_tftAdd_iff s f
  | tftDel f => exact failsClean_tftDel_iff s f

/-- In every state a history of calls can reach, a call fails without a trace
exactly when its second write cannot fail behind its first. -/
theorem failed_call_clean_iff_second_write_safe (bearers filters : Nat)
    (calls : List TableCall) (call : TableCall) :
    FailsClean (run tableStep (.empty bearers filters) calls) call ↔
      SecondWriteSafe (run tableStep (.empty bearers filters) calls) call :=
  failsClean_iff _ call

def movedBearer : GtpuTunnel :=
  { homeBearer with
    innerAddr := #v[10, 45, 0, 2, 0, 0, 0, 0, 0, 0, 0, 0, 0, 0, 0, 0] }

theorem refused_update_rewrites_rx :
    ((TableCall.teidUpdate movedBearer).exec
        (run tableStep (.empty 16 16) [.teidAdd homeBearer])).2 = .noent ∧
      ¬ FailsClean (run tableStep (.empty 16 16) [.teidAdd homeBearer])
        (.teidUpdate movedBearer) := by
  constructor
  · decide
  · intro clean
    have kept := congrArg (fun s => s.rx.lookup 7) (clean (by decide))
    revert kept
    decide

end Pro2Call.Gtpu

import Pro2Call.Gtpu.TableCoverage

namespace Pro2Call.Gtpu

open Pro2Call.Data

/-! A tunnel that decapsulates towards its UE has the UE's address in its
decapsulation entry, and the datapath drops what is sent to any other inner
destination. Filters on the same local TEID write and delete that entry too. -/

def GuardKept (t : GtpuTunnel) (s : ForwardingMaps) : Prop :=
  ∃ rx, s.rx.lookup t.localTeid = some rx ∧ rx.innerAddr = t.innerAddr

instance (t : GtpuTunnel) (s : ForwardingMaps) : Decidable (GuardKept t s) :=
  decidable_of_iff ((s.rx.lookup t.localTeid).any fun rx => rx.innerAddr = t.innerAddr) <| by
      simp [GuardKept, Option.any_eq_true]

/-- The call neither updates nor deletes the tunnel; one that is refused for its
arguments does not. -/
def LeavesTunnel (teid : UInt32) : TableCall → Prop
  | .teidUpdate t | .teidDel t => tunCheck t = .ok → t.localTeid ≠ teid
  | _ => True

/-- The call is not a filter call that takes effect on the tunnel's TEID. A
filter that is added takes away no check from a tunnel whose inner address is
zero, which has none. -/
def SparesGuard (t : GtpuTunnel) : TableCall → Prop
  | .tftAdd f => f.tunnel.localTeid = t.localTeid →
      t.innerAddr = Vector.replicate 16 0 ∨ ∃ rc, tftKeyBuild f = .error rc
  | .tftDel f => f.tunnel.localTeid = t.localTeid → ∃ rc, tftKeyBuild f = .error rc
  | _ => True

variable {t : GtpuTunnel}

section Frame

variable {s : ForwardingMaps} {teid : UInt32}

theorem rx_lookup_teidAdd (other : teid ≠ t.localTeid) :
    (gtpuTeidAdd s t).1.rx.lookup teid = s.rx.lookup teid := by
  rcases gtpuTeidAdd_cases s t with ⟨room, lpmRoom, written⟩ | ⟨unchanged, _⟩
  · simp [written, BoundedMap.lookup_put_of_ne _ _ room other]
  · rw [unchanged]

theorem rx_lookup_teidUpdate (other : teid ≠ t.localTeid) :
    (gtpuTeidUpdate s t).1.rx.lookup teid = s.rx.lookup teid := by
  by_cases checked : tunCheck t = .ok
  · by_cases present : (s.rx.lookup t.localTeid).isSome
    · have kept := BoundedMap.lookup_put_of_ne s.rx (tunToRx t) (.inl present) other
      cases lpmFound : (s.lpm (tunLpm t).1).lookup (tunLpm t).2 with
      | none => simpa [gtpuTeidUpdate_of_lpm_missing s checked present lpmFound]
      | some tun =>
        simpa [gtpuTeidUpdate_of_present s checked present (by simp [lpmFound])]
    · rw [gtpuTeidUpdate_of_missing s checked (by simpa using present)]
  · rw [gtpuTeidUpdate, teidWrite_of_refused s .exist checked]

theorem rx_lookup_teidDel (other : teid ≠ t.localTeid) :
    (gtpuTeidDel s t).1.rx.lookup teid = s.rx.lookup teid := by
  by_cases checked : tunCheck t = .ok
  · simp [gtpuTeidDel_of_checked s checked, lookup_bpfMapDeleteElem, other]
  · rw [gtpuTeidDel_of_refused s checked]

theorem rx_lookup_tftAdd {f : GtpuTft} (other : teid ≠ f.tunnel.localTeid) :
    (gtpuTftAdd s f).1.rx.lookup teid = s.rx.lookup teid := by
  cases built : tftKeyBuild f with
  | error rc => rw [gtpuTftAdd_of_refused s built]
  | ok k =>
    by_cases room : (s.rx.lookup f.tunnel.localTeid).isSome ∨ ¬ s.rx.Full
    · have kept : (tftRefresh s f.tunnel room).lookup teid = s.rx.lookup teid :=
        BoundedMap.lookup_put_of_ne s.rx _ room other
      by_cases accepted : s.tft.lookup k = none ∧ ¬ s.tft.Full
      · rw [gtpuTftAdd_of_accepted s built room accepted.1 accepted.2]
        exact kept
      · rw [(gtpuTftAdd_of_filter_refused s built room accepted).2]
        split
        · exact kept
        · rfl
    · rw [gtpuTftAdd_of_rx_full s built room]

theorem rx_lookup_tftDel {f : GtpuTft} (other : teid ≠ f.tunnel.localTeid) :
    (gtpuTftDel s f).1.rx.lookup teid = s.rx.lookup teid := by
  cases built : tftKeyBuild f with
  | error rc => rw [gtpuTftDel_of_refused s built]
  | ok k => simp [gtpuTftDel_of_key s built, lookup_bpfMapDeleteElem, other]

theorem teidAdd_of_present (present : s.rx.lookup t.localTeid = some rx) :
    (gtpuTeidAdd s t).1 = s := by
  have taken : ¬ (s.rx.lookup t.localTeid = none ∧ ¬ s.rx.Full) := by
    simp [present]
  obtain ⟨rc, refused⟩ := bpfMapUpdateElem_noexist_refused (tunToRx t) taken
  by_cases checked : tunCheck t = .ok
  · simp [gtpuTeidAdd, teidWrite, checked, refused]
  · rw [gtpuTeidAdd, teidWrite_of_refused s .noexist checked]

theorem tftAdd_of_present (built : tftKeyBuild f = .ok k)
    (present : s.rx.lookup f.tunnel.localTeid = some rx) :
    (gtpuTftAdd s f).1.rx.lookup f.tunnel.localTeid = some (tftRx f.tunnel (some rx)) := by
  have room : (s.rx.lookup f.tunnel.localTeid).isSome ∨ ¬ s.rx.Full := .inl (by simp [present])
  have refreshed : (tftRefresh s f.tunnel room).lookup f.tunnel.localTeid =
      some (tftRx f.tunnel (some rx)) := by
    rw [tftRefresh, BoundedMap.lookup_put_self, present]
  by_cases accepted : s.tft.lookup k = none ∧ ¬ s.tft.Full
  · rw [gtpuTftAdd_of_accepted s built room accepted.1 accepted.2]
    exact refreshed
  · rw [(gtpuTftAdd_of_filter_refused s built room accepted).2, if_pos (by simp [present])]
    exact refreshed

end Frame

theorem tftRx_innerAddr (t : GtpuTunnel) (cur : Option GtpuRxTun) :
    (tftRx t cur).innerAddr = Vector.replicate 16 0 := by
  unfold tftRx
  cases cur with
  | none => rfl
  | some rx =>
    dsimp only
    split <;> rfl

theorem guardKept_of_lookup_eq {s s' : ForwardingMaps}
    (same : s'.rx.lookup t.localTeid = s.rx.lookup t.localTeid) :
    GuardKept t s' ↔ GuardKept t s := by
  rw [GuardKept, GuardKept, same]

theorem guardKept_tftAdd_iff {s : ForwardingMaps} (kept : GuardKept t s) (f : GtpuTft) :
    GuardKept t (gtpuTftAdd s f).1 ↔ SparesGuard t (.tftAdd f) := by
  by_cases same : f.tunnel.localTeid = t.localTeid
  · obtain ⟨rx, present, guarded⟩ := kept
    cases built : tftKeyBuild f with
    | error rc =>
      rw [gtpuTftAdd_of_refused s built]
      exact ⟨fun _ _ => .inr ⟨rc, built⟩, fun _ => ⟨rx, present, guarded⟩⟩
    | ok k =>
      have refreshed := tftAdd_of_present built (same ▸ present)
      rw [same] at refreshed
      simp [GuardKept, refreshed, tftRx_innerAddr, SparesGuard, same, built, eq_comm]
  · rw [guardKept_of_lookup_eq (rx_lookup_tftAdd (Ne.symm same))]
    exact ⟨fun _ shared => absurd shared same, fun _ => kept⟩

theorem guardKept_tftDel_iff {s : ForwardingMaps} (kept : GuardKept t s) (f : GtpuTft) :
    GuardKept t (gtpuTftDel s f).1 ↔ SparesGuard t (.tftDel f) := by
  by_cases same : f.tunnel.localTeid = t.localTeid
  · cases built : tftKeyBuild f with
    | error rc =>
      rw [gtpuTftDel_of_refused s built]
      exact ⟨fun _ _ => ⟨rc, built⟩, fun _ => kept⟩
    | ok k =>
      simp [GuardKept, gtpuTftDel_of_key s built, lookup_bpfMapDeleteElem, SparesGuard, same, built]
  · rw [guardKept_of_lookup_eq (rx_lookup_tftDel (Ne.symm same))]
    exact ⟨fun _ shared => absurd shared same, fun _ => kept⟩

theorem guardKept_step_iff {s : ForwardingMaps} {call : TableCall}
    (leaves : LeavesTunnel t.localTeid call) (kept : GuardKept t s) :
    GuardKept t (tableStep s call) ↔ SparesGuard t call := by
  cases call with
  | teidAdd u =>
    refine ⟨fun _ => trivial, fun _ => ?_⟩
    by_cases same : t.localTeid = u.localTeid
    · obtain ⟨rx, present, guarded⟩ := kept
      show GuardKept t (gtpuTeidAdd s u).1
      rw [teidAdd_of_present (same ▸ present)]
      exact ⟨rx, present, guarded⟩
    · exact (guardKept_of_lookup_eq (rx_lookup_teidAdd same)).mpr kept
  | teidUpdate u =>
    refine ⟨fun _ => trivial, fun _ => ?_⟩
    by_cases checked : tunCheck u = .ok
    · have other := (leaves checked).symm
      exact (guardKept_of_lookup_eq (rx_lookup_teidUpdate other)).mpr kept
    · show GuardKept t (gtpuTeidUpdate s u).1
      rwa [gtpuTeidUpdate, teidWrite_of_refused s .exist checked]
  | teidDel u =>
    refine ⟨fun _ => trivial, fun _ => ?_⟩
    by_cases checked : tunCheck u = .ok
    · have other := (leaves checked).symm
      exact (guardKept_of_lookup_eq (rx_lookup_teidDel other)).mpr kept
    · show GuardKept t (gtpuTeidDel s u).1
      rwa [gtpuTeidDel_of_refused s checked]
  | tftAdd f => exact guardKept_tftAdd_iff kept f
  | tftDel f => exact guardKept_tftDel_iff kept f

theorem guardKept_of_added {s : ForwardingMaps}
    (towardsUe : t.coreSide = false) (added : (gtpuTeidAdd s t).2 = .ok) :
    GuardKept t (gtpuTeidAdd s t).1 := by
  rcases gtpuTeidAdd_cases s t with ⟨room, lpmRoom, written⟩ | ⟨_, refused⟩
  · exact ⟨tunToRx t, by simp [written], by simp [tunToRx, towardsUe]⟩
  · exact absurd added refused

/-- From the call that adds a tunnel on, as long as the tunnel is neither
updated nor deleted, its entry checks the inner destination in every state
exactly when no filter call takes effect on its TEID. -/
theorem guard_kept_iff_filters_elsewhere {t : GtpuTunnel} {s : ForwardingMaps}
    {calls : List TableCall} (towardsUe : t.coreSide = false)
    (added : (gtpuTeidAdd s t).2 = .ok)
    (leaves : ∀ call ∈ calls, LeavesTunnel t.localTeid call) :
    EveryState tableStep (GuardKept t) (gtpuTeidAdd s t).1 calls ↔
      ∀ call ∈ calls, SparesGuard t call := by
  have exact_step : ∀ state, ∀ call ∈ calls, GuardKept t state →
      (GuardKept t (tableStep state call) ↔ SparesGuard t call) :=
    fun _ call member => guardKept_step_iff (leaves call member)
  have installed := guardKept_of_added towardsUe added
  rw [everyState_iff_everyStep_of_mem installed exact_step, everyStep_iff_forall_mem]

theorem other_bearer_filter_spares_guard :
    homeBearer.coreSide = false ∧ (gtpuTeidAdd (.empty 16 16) homeBearer).2 = .ok ∧
      EveryState tableStep (GuardKept homeBearer) (gtpuTeidAdd (.empty 16 16) homeBearer).1
        [.tftAdd { sipFilter with tunnel := { homeBearer with localTeid := 8 } }] := by
  have added : (gtpuTeidAdd (.empty 16 16) homeBearer).2 = .ok := by decide
  refine ⟨rfl, added, ?_⟩
  rw [guard_kept_iff_filters_elsewhere rfl added (by simp [LeavesTunnel])]
  intro call member
  rw [List.mem_singleton.mp member]
  exact fun same => absurd same (by decide)

/-- A filter on the default bearer takes away the check that the bearer's
tunnel was added with. -/
theorem filter_clears_guard :
    (gtpuTeidAdd (.empty 16 16) homeBearer).2 = .ok ∧
      GuardKept homeBearer (gtpuTeidAdd (.empty 16 16) homeBearer).1 ∧
      ¬ GuardKept homeBearer
        (run tableStep (gtpuTeidAdd (.empty 16 16) homeBearer).1 [.tftAdd sipFilter]) := by
  decide

end Pro2Call.Gtpu

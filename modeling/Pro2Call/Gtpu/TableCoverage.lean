import Pro2Call.Gtpu.TableStep

namespace Pro2Call.Gtpu

open Pro2Call.Data

/-! Several filters may ride one bearer and share its decapsulation entry.
The coupling of the two maps is that every installed filter finds the entry of
the local TEID it was installed with. -/

def FiltersCovered (s : ForwardingMaps) : Prop :=
  ∀ k tun, s.tft.lookup k = some tun → (s.rx.lookup tun.localTeid).isSome

/-- A deletion takes the decapsulation entry of its TEID with it, so it must
not find another filter on that TEID. -/
def BearerNotShared (s : ForwardingMaps) : TableCall → Prop
  | .teidDel t => tunCheck t = .ok →
      ∀ k tun, s.tft.lookup k = some tun → tun.localTeid ≠ t.localTeid
  | .tftDel f => ∀ k, tftKeyBuild f = .ok k →
      ∀ other tun, s.tft.lookup other = some tun → other ≠ k → tun.localTeid ≠ f.tunnel.localTeid
  | _ => True

theorem filtersCovered_empty (bearers filters : Nat) : FiltersCovered (.empty bearers filters) := by
  intro k tun found
  simp [ForwardingMaps.empty] at found

variable {s : ForwardingMaps}

theorem FiltersCovered.mono {s' : ForwardingMaps} (covered : FiltersCovered s)
    (filters : s'.tft = s.tft)
    (entries : ∀ teid, (s.rx.lookup teid).isSome →
      (s'.rx.lookup teid).isSome) : FiltersCovered s' := by
  intro k tun found
  rw [filters] at found
  exact entries tun.localTeid (covered k tun found)

theorem FiltersCovered.teidAdd (covered : FiltersCovered s)
    (t : GtpuTunnel) : FiltersCovered (gtpuTeidAdd s t).1 := by
  rcases gtpuTeidAdd_cases s t with ⟨room, lpmRoom, written⟩ | ⟨unchanged, _⟩
  · rw [written]
    apply covered.mono (by simp)
    intro teid present
    simpa using lookup_isSome_put s.rx _ _ room present
  · rw [unchanged]
    exact covered

theorem FiltersCovered.teidUpdate (covered : FiltersCovered s) (t : GtpuTunnel) :
    FiltersCovered (gtpuTeidUpdate s t).1 := by
  by_cases checked : tunCheck t = .ok
  · by_cases present : (s.rx.lookup t.localTeid).isSome
    · have kept : ∀ teid, (s.rx.lookup teid).isSome →
          ((s.rx.put t.localTeid (tunToRx t) (.inl present)).lookup teid).isSome :=
        fun teid found => lookup_isSome_put s.rx _ _ (.inl present) found
      cases lpmFound : (s.lpm (tunLpm t).1).lookup (tunLpm t).2 with
      | none =>
        rw [gtpuTeidUpdate_of_lpm_missing s checked present lpmFound]
        exact covered.mono rfl kept
      | some tun =>
        rw [gtpuTeidUpdate_of_present s checked present (by simp [lpmFound])]
        apply covered.mono (by simp)
        simpa using kept
    · rw [gtpuTeidUpdate_of_missing s checked (by simpa using present)]
      exact covered
  · rw [gtpuTeidUpdate, teidWrite_of_refused s .exist checked]
    exact covered

theorem FiltersCovered.tftAdd (covered : FiltersCovered s)
    (f : GtpuTft) : FiltersCovered (gtpuTftAdd s f).1 := by
  cases built : tftKeyBuild f with
  | error rc =>
    rw [gtpuTftAdd_of_refused s built]
    exact covered
  | ok k =>
    by_cases room : (s.rx.lookup f.tunnel.localTeid).isSome ∨ ¬ s.rx.Full
    · have refreshed : ∀ teid, (s.rx.lookup teid).isSome →
          ((tftRefresh s f.tunnel room).lookup teid).isSome :=
        fun teid present => lookup_isSome_put s.rx _ _ room present
      by_cases accepted : s.tft.lookup k = none ∧ ¬ s.tft.Full
      · rw [gtpuTftAdd_of_accepted s built room accepted.1 accepted.2]
        intro other tun found
        simp only [BoundedMap.lookup_put] at found
        split at found
        · cases found
          simp [tftRefresh, tunToTx]
        · exact refreshed tun.localTeid (covered other tun found)
      · rw [(gtpuTftAdd_of_filter_refused s built room accepted).2]
        split
        · exact covered.mono rfl refreshed
        · exact covered
    · rw [gtpuTftAdd_of_rx_full s built room]
      exact covered

theorem filtersCovered_teidDel_iff (covered : FiltersCovered s) (t : GtpuTunnel) :
    FiltersCovered (gtpuTeidDel s t).1 ↔ BearerNotShared s (.teidDel t) := by
  by_cases checked : tunCheck t = .ok
  · rw [gtpuTeidDel_of_checked s checked]
    constructor
    · intro after _ k tun found shared
      have entry := after k tun (by simpa using found)
      simp [lookup_bpfMapDeleteElem, shared] at entry
    · intro unshared k tun found
      have present : s.tft.lookup k = some tun := by simpa using found
      have distinct := unshared checked k tun present
      simpa [lookup_bpfMapDeleteElem, distinct] using covered k tun present
  · rw [gtpuTeidDel_of_refused s checked]
    exact ⟨fun _ accepted => absurd accepted checked, fun _ => covered⟩

theorem filtersCovered_tftDel_iff (covered : FiltersCovered s) (f : GtpuTft) :
    FiltersCovered (gtpuTftDel s f).1 ↔ BearerNotShared s (.tftDel f) := by
  cases built : tftKeyBuild f with
  | error rc =>
    rw [gtpuTftDel_of_refused s built]
    constructor
    · intro _ k accepted
      rw [built] at accepted
      cases accepted
    · exact fun _ => covered
  | ok k =>
    rw [gtpuTftDel_of_key s built]
    constructor
    · intro after key accepted other tun found distinct shared
      have sameKey : k = key := Except.ok.inj (built.symm.trans accepted)
      subst key
      have entry := after other tun (by
        simpa [lookup_bpfMapDeleteElem, distinct] using found)
      simp [lookup_bpfMapDeleteElem, shared] at entry
    · intro unshared other tun found
      simp only [lookup_bpfMapDeleteElem] at found
      split at found
      · cases found
      · next distinct =>
          have differs := unshared k built other tun found distinct
          simpa [lookup_bpfMapDeleteElem, differs] using covered other tun found

theorem filtersCovered_step_iff (s : ForwardingMaps) (call : TableCall)
    (covered : FiltersCovered s) :
    FiltersCovered (tableStep s call) ↔ BearerNotShared s call := by
  cases call with
  | teidAdd t => exact ⟨fun _ => trivial, fun _ => covered.teidAdd t⟩
  | teidUpdate t => exact ⟨fun _ => trivial, fun _ => covered.teidUpdate t⟩
  | teidDel t => exact filtersCovered_teidDel_iff covered t
  | tftAdd f => exact ⟨fun _ => trivial, fun _ => covered.tftAdd f⟩
  | tftDel f => exact filtersCovered_tftDel_iff covered f

/-- Over every history of calls on freshly created maps, every filter has its
decapsulation entry in every state reached exactly when no deletion ever hits
a bearer that another installed filter still rides. -/
theorem filters_covered_iff_bearers_not_shared (bearers filters : Nat) (calls : List TableCall) :
    EveryState tableStep FiltersCovered (.empty bearers filters) calls ↔
      EveryStep tableStep BearerNotShared (.empty bearers filters) calls :=
  everyState_iff_everyStep filtersCovered_step_iff (filtersCovered_empty bearers filters) calls

structure Installed where
  tunnels : List GtpuTunnel
  filters : List GtpuTft
  deriving DecidableEq

def Installed.record (held : Installed) : TableCall → Installed
  | .teidAdd t => { held with tunnels := t :: held.tunnels }
  | .teidUpdate t =>
    { held with
      tunnels := t :: held.tunnels.filter (·.localTeid ≠ t.localTeid) }
  | .teidDel t => { held with tunnels := held.tunnels.erase t }
  | .tftAdd f => { held with filters := f :: held.filters }
  | .tftDel f => { held with filters := held.filters.erase f }

def callerStep (state : ForwardingMaps × Installed) (call : TableCall) :
    ForwardingMaps × Installed :=
  let (maps, rc) := call.exec state.1
  (maps, if rc = .ok then state.2.record call else state.2)

def DeletesOnlyInstalled (state : ForwardingMaps × Installed) :
    TableCall → Prop
  | .teidDel t => t ∈ state.2.tunnels
  | .tftDel f => f ∈ state.2.filters
  | _ => True

/-- The two filters of the source's own example: plain SIP over UDP and the
same UE's ESP traffic, both on one bearer. -/
def sipFilter : GtpuTft where
  tunnel := homeBearer
  proto := 17
  uePort := 5060
  remotePort := 0
  innerSaddr := Vector.replicate 16 0

def espFilter : GtpuTft := { sipFilter with proto := 50, uePort := 0 }

theorem shared_bearer_loses_its_entry :
    EveryStep callerStep DeletesOnlyInstalled (.empty 16 16, ⟨[], []⟩)
        [.tftAdd sipFilter, .tftAdd espFilter, .tftDel sipFilter] ∧
      ¬ FiltersCovered (run tableStep (.empty 16 16)
        [.tftAdd sipFilter, .tftAdd espFilter, .tftDel sipFilter]) := by
  constructor
  · refine ⟨trivial, trivial, ?_, trivial⟩
    show sipFilter ∈ _
    decide
  · intro covered
    have lost := covered
      { family := 2, proto := 50, uePort := 0, remotePort := 0,
        ueAddr := homeBearer.innerAddr, ueSaddr := Vector.replicate 16 0 }
      (tunToTx homeBearer) (by decide)
    revert lost
    decide

end Pro2Call.Gtpu

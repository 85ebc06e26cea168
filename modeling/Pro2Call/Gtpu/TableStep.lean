import Pro2Call.Data.Run
import Pro2Call.Gtpu.Table

namespace Pro2Call.Gtpu

open Pro2Call.Data

inductive TableCall where
  | teidAdd (t : GtpuTunnel)
  | teidUpdate (t : GtpuTunnel)
  | teidDel (t : GtpuTunnel)
  | tftAdd (f : GtpuTft)
  | tftDel (f : GtpuTft)
  deriving DecidableEq, Repr

def TableCall.exec (s : ForwardingMaps) : TableCall → ForwardingMaps × GtpuErr
  | .teidAdd t => gtpuTeidAdd s t
  | .teidUpdate t => gtpuTeidUpdate s t
  | .teidDel t => gtpuTeidDel s t
  | .tftAdd f => gtpuTftAdd s f
  | .tftDel f => gtpuTftDel s f

def tableStep (s : ForwardingMaps) (call : TableCall) : ForwardingMaps := (call.exec s).1

/-- The maps as the loader creates them: empty, with `bearers` entries for
each tunnel map and `filters` for the filter map. -/
def ForwardingMaps.empty (bearers filters : Nat) : ForwardingMaps where
  rx := .empty bearers
  tx4 := .empty bearers
  tx6 := .empty bearers
  tft := .empty filters

def homeBearer : GtpuTunnel where
  localTeid := 7
  remoteTeid := 9
  ebi := 5
  innerFamily := afInet
  innerAddr := #v[10, 45, 0, 1, 0, 0, 0, 0, 0, 0, 0, 0, 0, 0, 0, 0]
  innerPrefixlen := 0
  coreSide := false
  outerFamily := afInet
  remoteAddr := #v[192, 0, 2, 1, 0, 0, 0, 0, 0, 0, 0, 0, 0, 0, 0, 0]
  remotePort := 0
  rxIfindex := 0
  txIfindex := 2
  dstMac := Vector.replicate 6 2
  srcMac := Vector.replicate 6 4
  staticMac := true
  hasQfi := false
  qfi := 0

theorem bpfMapDeleteElem_of_present [DecidableEq Key] {map : BoundedMap Key Value} {key : Key}
    (present : (map.lookup key).isSome) :
    bpfMapDeleteElem map key = (map.remove key, none) := by
  simp [bpfMapDeleteElem, BoundedMap.delete_of_present present]

theorem bpfMapDeleteElem_of_missing [DecidableEq Key] {map : BoundedMap Key Value} {key : Key}
    (missing : map.lookup key = none) :
    bpfMapDeleteElem map key = (map, some .enoent) := by
  simp [bpfMapDeleteElem, BoundedMap.delete_of_missing missing, errnoOf]

theorem lookup_bpfMapDeleteElem [DecidableEq Key] (map : BoundedMap Key Value) (key other : Key) :
    (bpfMapDeleteElem map key).1.lookup other =
      if other = key then none else map.lookup other := by
  cases found : map.lookup key with
  | none =>
    rw [bpfMapDeleteElem_of_missing found]
    by_cases same : other = key
    · subst other
      simp [found]
    · simp [same]
  | some value =>
    rw [bpfMapDeleteElem_of_present (by simp [found])]
    exact BoundedMap.lookup_remove map key other

theorem bpfMapUpdateElem_cases [DecidableEq Key]
    (map : BoundedMap Key Value) (key : Key) (value : Value)
    (flags : UpdateFlag) :
    (∃ room, bpfMapUpdateElem map key value flags = (map.put key value room, none)) ∨
      ∃ rc, bpfMapUpdateElem map key value flags = (map, some rc) := by
  unfold bpfMapUpdateElem
  cases updated : map.update key value flags with
  | ok result =>
    obtain ⟨room, rfl⟩ := BoundedMap.update_ok updated
    exact .inl ⟨room, rfl⟩
  | error reason => exact .inr ⟨errnoOf reason, rfl⟩

theorem bpfMapUpdateElem_noexist_missing [DecidableEq Key]
    {map updated : BoundedMap Key Value} {key : Key} {value : Value}
    (accepted : bpfMapUpdateElem map key value .noexist = (updated, none)) :
    map.lookup key = none := by
  unfold bpfMapUpdateElem at accepted
  cases result : map.update key value .noexist with
  | ok stored => exact BoundedMap.missing_of_update_noexist_ok result
  | error reason => simp [result] at accepted

theorem lookup_isSome_put [DecidableEq Key] (map : BoundedMap Key Value) (key : Key) (value : Value)
    (room : (map.lookup key).isSome ∨ ¬ map.Full) (present : (map.lookup other).isSome) :
    ((map.put key value room).lookup other).isSome := by
  rw [BoundedMap.lookup_put]
  by_cases same : other = key
  · simp [same]
  · simpa [same] using present

@[simp] theorem setLpm_rx (s : ForwardingMaps) (trie : LpmTrie) (fd : LpmFd) :
    (s.setLpm trie fd).rx = s.rx := by
  cases fd <;> rfl

@[simp] theorem setLpm_tft (s : ForwardingMaps) (trie : LpmTrie) (fd : LpmFd) :
    (s.setLpm trie fd).tft = s.tft := by
  cases fd <;> rfl

theorem bpfMapUpdateElem_of_present [DecidableEq Key]
    {map : BoundedMap Key Value} {key : Key} (value : Value)
    (present : (map.lookup key).isSome)
    (lenient : flags ≠ .noexist) :
    bpfMapUpdateElem map key value flags = (map.put key value (.inl present), none) := by
  simp [bpfMapUpdateElem, BoundedMap.update, present, lenient]

theorem bpfMapUpdateElem_exist_of_missing [DecidableEq Key]
    {map : BoundedMap Key Value} {key : Key} (value : Value)
    (missing : map.lookup key = none) :
    bpfMapUpdateElem map key value .exist = (map, some .enoent) := by
  simp [bpfMapUpdateElem, BoundedMap.update, missing, errnoOf]

theorem bpfMapUpdateElem_any_of_room [DecidableEq Key]
    {map : BoundedMap Key Value} {key : Key} (value : Value)
    (room : (map.lookup key).isSome ∨ ¬ map.Full) :
    bpfMapUpdateElem map key value .any = (map.put key value room, none) := by
  by_cases present : (map.lookup key).isSome
  · simp [bpfMapUpdateElem, BoundedMap.update, present]
  · have notFull : ¬ map.Full := room.resolve_left present
    simp [bpfMapUpdateElem, BoundedMap.update, present, notFull]

theorem bpfMapUpdateElem_any_refused [DecidableEq Key]
    {map : BoundedMap Key Value} {key : Key} (value : Value)
    (noRoom : ¬ ((map.lookup key).isSome ∨ ¬ map.Full)) :
    bpfMapUpdateElem map key value .any = (map, some .e2big) := by
  obtain ⟨missing, full⟩ := not_or.mp noRoom
  simp [bpfMapUpdateElem, BoundedMap.update, missing, not_not.mp full, errnoOf]

theorem bpfMapUpdateElem_noexist_of_room [DecidableEq Key]
    {map : BoundedMap Key Value} {key : Key} (value : Value)
    (missing : map.lookup key = none) (room : ¬ map.Full) :
    bpfMapUpdateElem map key value .noexist = (map.put key value (.inr room), none) := by
  simp [bpfMapUpdateElem, BoundedMap.update, missing, room]

theorem bpfMapUpdateElem_noexist_refused [DecidableEq Key]
    {map : BoundedMap Key Value} {key : Key} (value : Value)
    (refused : ¬ (map.lookup key = none ∧ ¬ map.Full)) :
    ∃ rc, bpfMapUpdateElem map key value .noexist = (map, some rc) := by
  cases found : map.lookup key with
  | some old =>
    exact ⟨.eexist, by
      simp [bpfMapUpdateElem, BoundedMap.update, found, errnoOf]⟩
  | none =>
    have full : map.Full := by
      by_contra room
      exact refused ⟨found, room⟩
    exact ⟨.e2big, by
      simp [bpfMapUpdateElem, BoundedMap.update, found, full, errnoOf]⟩

theorem errSys_some_ne_ok (rc : Errno) : errSys (some rc) ≠ .ok := by
  cases rc <;> simp [errSys]

theorem gtpuTeidAdd_cases (s : ForwardingMaps) (t : GtpuTunnel) :
    (∃ room lpmRoom, gtpuTeidAdd s t =
        ({ s with rx := s.rx.put t.localTeid (tunToRx t) room }.setLpm
          ((s.lpm (tunLpm t).1).put (tunLpm t).2 (tunToTx t) lpmRoom)
          (tunLpm t).1, .ok)) ∨
      (gtpuTeidAdd s t).1 = s ∧ (gtpuTeidAdd s t).2 ≠ .ok := by
  unfold gtpuTeidAdd teidWrite
  split
  · next refused => exact .inr ⟨rfl, refused⟩
  · rcases bpfMapUpdateElem_cases s.rx t.localTeid (tunToRx t) .noexist with
      ⟨room, written⟩ | ⟨rc, refused⟩
    · rcases bpfMapUpdateElem_cases (s.lpm (tunLpm t).1) (tunLpm t).2
          (tunToTx t) .noexist with ⟨lpmRoom, lpmWritten⟩ | ⟨rc, refused⟩
      · left
        refine ⟨room, lpmRoom, ?_⟩
        simp only [written, lpmWritten]
      · right
        have missing := bpfMapUpdateElem_noexist_missing written
        simp only [written, refused]
        rw [if_pos trivial, bpfMapDeleteElem_of_present (by simp),
          BoundedMap.remove_put_of_missing s.rx _ room missing]
        exact ⟨rfl, errSys_some_ne_ok rc⟩
    · right
      simp only [refused, true_and]
      exact errSys_some_ne_ok rc

theorem gtpuTeidUpdate_of_missing (s : ForwardingMaps) (checked : tunCheck t = .ok)
    (missing : s.rx.lookup t.localTeid = none) :
    gtpuTeidUpdate s t = (s, .noent) := by
  simp [gtpuTeidUpdate, teidWrite, checked, bpfMapUpdateElem_exist_of_missing _ missing, errSys]

/-- The update writes the decapsulation entry before it looks for the other
one, and does not undo the write. -/
theorem gtpuTeidUpdate_of_lpm_missing (s : ForwardingMaps) (checked : tunCheck t = .ok)
    (present : (s.rx.lookup t.localTeid).isSome)
    (missing : (s.lpm (tunLpm t).1).lookup (tunLpm t).2 = none) :
    gtpuTeidUpdate s t = ({ s with rx := s.rx.put t.localTeid (tunToRx t) (.inl present) },
        .noent) := by
  simp [gtpuTeidUpdate, teidWrite, checked, bpfMapUpdateElem_of_present _ present,
    bpfMapUpdateElem_exist_of_missing _ missing, errSys]

theorem gtpuTeidUpdate_of_present (s : ForwardingMaps) (checked : tunCheck t = .ok)
    (present : (s.rx.lookup t.localTeid).isSome)
    (lpmPresent : ((s.lpm (tunLpm t).1).lookup (tunLpm t).2).isSome) :
    gtpuTeidUpdate s t = ({ s with rx := s.rx.put t.localTeid (tunToRx t) (.inl present) }.setLpm
        ((s.lpm (tunLpm t).1).put (tunLpm t).2 (tunToTx t) (.inl lpmPresent))
        (tunLpm t).1, .ok) := by
  simp [gtpuTeidUpdate, teidWrite, checked, bpfMapUpdateElem_of_present _ present,
    bpfMapUpdateElem_of_present _ lpmPresent]

theorem teidWrite_of_refused (s : ForwardingMaps) (flags : UpdateFlag)
    (refused : tunCheck t ≠ .ok) :
    teidWrite s t flags = (s, tunCheck t) := by
  simp [teidWrite, refused]

theorem gtpuTeidDel_of_checked (s : ForwardingMaps) (checked : tunCheck t = .ok) :
    gtpuTeidDel s t = ({ s with rx := (bpfMapDeleteElem s.rx t.localTeid).1 }.setLpm
        (bpfMapDeleteElem (s.lpm (tunLpm t).1) (tunLpm t).2).1
        (tunLpm t).1,
        errSys ((bpfMapDeleteElem s.rx t.localTeid).2 <|>
          (bpfMapDeleteElem (s.lpm (tunLpm t).1) (tunLpm t).2).2)) := by
  simp [gtpuTeidDel, checked]

theorem gtpuTeidDel_of_refused (s : ForwardingMaps) (refused : tunCheck t ≠ .ok) :
    gtpuTeidDel s t = (s, tunCheck t) := by
  simp [gtpuTeidDel, refused]

theorem gtpuTftDel_of_key (s : ForwardingMaps) (built : tftKeyBuild f = .ok k) :
    gtpuTftDel s f =
      ({ s with
        rx := (bpfMapDeleteElem s.rx f.tunnel.localTeid).1
        tft := (bpfMapDeleteElem s.tft k).1 },
        errSys ((bpfMapDeleteElem s.tft k).2 <|>
          (bpfMapDeleteElem s.rx f.tunnel.localTeid).2)) := by
  simp [gtpuTftDel, built]

theorem gtpuTftDel_of_refused (s : ForwardingMaps) (refused : tftKeyBuild f = .error rc) :
    gtpuTftDel s f = (s, rc) := by
  simp [gtpuTftDel, refused]

def tftRefresh (s : ForwardingMaps) (t : GtpuTunnel)
    (room : (s.rx.lookup t.localTeid).isSome ∨ ¬ s.rx.Full) :
    BoundedMap UInt32 GtpuRxTun :=
  s.rx.put t.localTeid (tftRx t (s.rx.lookup t.localTeid)) room

theorem gtpuTftAdd_of_accepted (s : ForwardingMaps) (built : tftKeyBuild f = .ok k)
    (room : (s.rx.lookup f.tunnel.localTeid).isSome ∨ ¬ s.rx.Full)
    (missing : s.tft.lookup k = none) (tftRoom : ¬ s.tft.Full) :
    gtpuTftAdd s f =
      ({ s with
        rx := tftRefresh s f.tunnel room
        tft := s.tft.put k (tunToTx f.tunnel) (.inr tftRoom) }, .ok) := by
  simp [gtpuTftAdd, built, bpfMapUpdateElem_any_of_room _ room,
    bpfMapUpdateElem_noexist_of_room _ missing tftRoom, tftRefresh]

/-- The filter map refuses the filter after the shared entry was written: the
roll-back undoes only an entry this call created. -/
theorem gtpuTftAdd_of_filter_refused (s : ForwardingMaps) (built : tftKeyBuild f = .ok k)
    (room : (s.rx.lookup f.tunnel.localTeid).isSome ∨ ¬ s.rx.Full)
    (refused : ¬ (s.tft.lookup k = none ∧ ¬ s.tft.Full)) :
    (gtpuTftAdd s f).2 ≠ .ok ∧ (gtpuTftAdd s f).1 =
        if (s.rx.lookup f.tunnel.localTeid).isSome then
          { s with rx := tftRefresh s f.tunnel room }
        else s := by
  obtain ⟨rc, tftRefused⟩ := bpfMapUpdateElem_noexist_refused (tunToTx f.tunnel) refused
  simp only [gtpuTftAdd, built, bpfMapUpdateElem_any_of_room _ room, tftRefused, tftRefresh]
  refine ⟨errSys_some_ne_ok rc, ?_⟩
  cases found : s.rx.lookup f.tunnel.localTeid with
  | some cur => simp
  | none =>
    rw [bpfMapDeleteElem_of_present (by simp), BoundedMap.remove_put_of_missing s.rx _ _ found]
    simp

theorem gtpuTftAdd_of_rx_full (s : ForwardingMaps) (built : tftKeyBuild f = .ok k)
    (noRoom : ¬ ((s.rx.lookup f.tunnel.localTeid).isSome ∨ ¬ s.rx.Full)) :
    gtpuTftAdd s f = (s, .sys) := by
  simp [gtpuTftAdd, built, bpfMapUpdateElem_any_refused _ noRoom, errSys]

theorem gtpuTftAdd_of_refused (s : ForwardingMaps) (refused : tftKeyBuild f = .error rc) :
    gtpuTftAdd s f = (s, rc) := by
  simp [gtpuTftAdd, refused]

end Pro2Call.Gtpu

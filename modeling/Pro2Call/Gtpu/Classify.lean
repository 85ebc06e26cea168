import Pro2Call.Gtpu.Encap
import Pro2Call.Gtpu.TableStep

namespace Pro2Call.Gtpu

open Pro2Call.Data

/-! The probes of the classifier against the best match among all filters. The
key that names every field of a packet stands for the packet. -/

def anyAddr : Vector UInt8 16 := Vector.replicate 16 0

/-- A filter and a packet: zero stands for any source and any port. -/
@[mk_iff]
structure GtpuTftKey.Matches (k p : GtpuTftKey) : Prop where
  family : k.family = p.family
  proto : k.proto = p.proto
  ueAddr : k.ueAddr = p.ueAddr
  ueSaddr : k.ueSaddr = p.ueSaddr ∨ k.ueSaddr = anyAddr
  uePort : k.uePort = p.uePort ∨ k.uePort = 0
  remotePort : k.remotePort = p.remotePort ∨ k.remotePort = 0

/-- A source counts more than the UE's port, and that more than the remote port. -/
def GtpuTftKey.rank (k : GtpuTftKey) : Nat :=
  (if k.ueSaddr = anyAddr then 0 else 4) + (if k.uePort = 0 then 0 else 2) +
    (if k.remotePort = 0 then 0 else 1)

/-- The value of the longest stored bit string that the address begins with. -/
inductive LongestPrefix (trie : LpmTrie) (bits : List Bool) : Option GtpuTxTun → Prop
  | found {stored : List Bool} {tun : GtpuTxTun} (begins : stored <+: bits)
      (held : trie.lookup stored = some tun)
      (longest : ∀ other, other <+: bits → trie.lookup other ≠ none →
        other.length ≤ stored.length) : LongestPrefix trie bits (some tun)
  | missed (absent : ∀ stored, stored <+: bits → trie.lookup stored = none) :
      LongestPrefix trie bits none

/-- What a packet is classified as: the tunnel of the best filter that matches
it, or else that of the default bearer. -/
inductive Classified (maps : ForwardingMaps) (p : GtpuTftKey) : Option GtpuTxTun → Prop
  | filter {k : GtpuTftKey} {tun : GtpuTxTun} (held : maps.tft.lookup k = some tun)
      (matched : k.Matches p)
      (best : ∀ other, maps.tft.lookup other ≠ none → other.Matches p → other.rank ≤ k.rank) :
      Classified maps p (some tun)
  | bearer {out : Option GtpuTxTun} (unmatched : ∀ k, k.Matches p → maps.tft.lookup k = none)
      (longest : if p.family = afInet then
          LongestPrefix maps.tx4 ((p.ueAddr.toList.take 4).flatMap octetBits) out
        else LongestPrefix maps.tx6 (p.ueAddr.toList.flatMap octetBits) out) :
      Classified maps p out

theorem Matches.eq_of_rank {k other p : GtpuTftKey} (matched : k.Matches p)
    (also : other.Matches p) (same : k.rank = other.rank) : k = other := by
  obtain ⟨family, proto, ueAddr, ueSaddr, uePort, remotePort⟩ := matched
  obtain ⟨family', proto', ueAddr', ueSaddr', uePort', remotePort'⟩ := also
  obtain ⟨_, _, _, _, _, _⟩ := k
  obtain ⟨_, _, _, _, _, _⟩ := other
  simp only [GtpuTftKey.rank] at *
  grind

theorem LongestPrefix.unique {bits : List Bool} (first : LongestPrefix trie bits out)
    (second : LongestPrefix trie bits out') :
    out = out' := by
  cases first with
  | found begins held longest =>
    cases second with
    | found begins' held' longest' =>
      have length := Nat.le_antisymm (longest' _ begins (by simp [held]))
        (longest _ begins' (by simp [held']))
      obtain rfl := (List.prefix_of_prefix_length_le begins begins' length.le).eq_of_length length
      exact held.symm.trans held'
    | missed absent => simp [absent _ begins] at held
  | missed absent =>
    cases second with
    | found begins held _ => simp [absent _ begins] at held
    | missed _ => rfl

theorem Classified.unique (first : Classified maps p out) (second : Classified maps p out') :
    out = out' := by
  cases first with
  | filter held matched best =>
    cases second with
    | filter held' matched' best' =>
      obtain rfl := Matches.eq_of_rank matched matched'
        (Nat.le_antisymm (best' _ (by simp [held]) matched) (best _ (by simp [held']) matched'))
      exact held.symm.trans held'
    | bearer unmatched _ => simp [unmatched _ matched] at held
  | bearer unmatched longest =>
    cases second with
    | filter held matched _ => simp [unmatched _ matched] at held
    | bearer _ longest' =>
      split at longest
      next inet => exact longest.unique (by simpa [inet] using longest')
      next inet6 => exact longest.unique (by simpa [inet6] using longest')

theorem findSome?_best (rank : α → Nat) {l : List α}
    (sorted : l.Pairwise fun a b => rank b ≤ rank a) (found : l.findSome? f = some v) :
    ∃ a ∈ l, f a = some v ∧ ∀ b ∈ l, f b ≠ none → rank b ≤ rank a := by
  obtain ⟨before, a, after, rfl, hit, missed⟩ := List.findSome?_eq_some_iff.mp found
  refine ⟨a, by simp, hit, fun b member present => ?_⟩
  rcases List.mem_append.mp member with early | late
  · exact absurd (missed b early) present
  · rcases List.mem_cons.mp late with rfl | late
    · exact Nat.le_refl _
    · exact (List.pairwise_cons.mp (List.pairwise_append.mp sorted).2.1).1 b late

theorem lpmLookup_longest (trie : LpmTrie) {addr : List UInt8}
    (length : (addr.flatMap octetBits).length = width) :
    LongestPrefix trie (addr.flatMap octetBits) (lpmLookup trie width addr) := by
  subst length
  have taken : ∀ stored, stored <+: addr.flatMap octetBits → lpmPrefix stored.length addr = stored ∧
        stored.length ∈ (List.range ((addr.flatMap octetBits).length + 1)).reverse :=
    fun stored begins => ⟨(List.prefix_iff_eq_take.mp begins).symm, by
      rw [List.mem_reverse, List.mem_range]
      exact Nat.lt_succ_of_le begins.length_le⟩
  cases result : lpmLookup trie (addr.flatMap octetBits).length addr with
  | none =>
    refine .missed fun stored begins => ?_
    have missed := List.findSome?_eq_none_iff.mp result _ (taken stored begins).2
    rwa [(taken stored begins).1] at missed
  | some tun =>
    obtain ⟨size, -, held, longest⟩ := findSome?_best id
      (List.pairwise_reverse.mpr (List.pairwise_lt_range.imp Nat.le_of_lt)) result
    have begins : lpmPrefix size addr <+: addr.flatMap octetBits := List.take_prefix _ _
    refine .found begins held fun other begins present => ?_
    have smaller := longest other.length (taken other begins).2 (by rwa [(taken other begins).1])
    rw [lpmPrefix, List.length_take]
    exact Nat.le_min.mpr ⟨smaller, begins.length_le⟩

def portProbes (p : GtpuTftKey) : List GtpuTftKey :=
  p :: ((if p.remotePort ≠ 0 then [{ p with remotePort := 0 }] else []) ++
    (if p.uePort ≠ 0 then [{ p with uePort := 0 }] else []) ++
    (if p.uePort ≠ 0 ∨ p.remotePort ≠ 0 then [{ p with uePort := 0, remotePort := 0 }] else []))

theorem findSome?_cons_or (f : α → Option β) (a : α) (l : List α) :
    (a :: l).findSome? f = (f a).or (l.findSome? f) := by
  rw [List.findSome?_cons]
  cases f a <;> rfl

theorem tftProbePorts_eq (tft : BoundedMap GtpuTftKey GtpuTxTun) (k : GtpuTftKey)
    (uePort remotePort : UInt16) :
    tftProbePorts tft k uePort remotePort =
      (portProbes { k with uePort := uePort, remotePort := remotePort }).findSome? tft.lookup := by
  by_cases ue : uePort = 0 <;> by_cases remote : remotePort = 0 <;>
    simp [tftProbePorts, portProbes, findSome?_cons_or, ue, remote]

theorem mem_portProbes : k ∈ portProbes p ↔ k.Matches p ∧ k.ueSaddr = p.ueSaddr := by
  obtain ⟨family, proto, uePort, remotePort, ueAddr, ueSaddr⟩ := k
  obtain ⟨family', proto', uePort', remotePort', ueAddr', ueSaddr'⟩ := p
  by_cases ue : uePort' = 0 <;> by_cases remote : remotePort' = 0 <;>
    simp [portProbes, GtpuTftKey.matches_iff, ue, remote] <;> tauto

theorem portProbes_sorted (p : GtpuTftKey) :
    (portProbes p).Pairwise fun k other => other.rank ≤ k.rank := by
  by_cases ue : p.uePort = 0 <;> by_cases remote : p.remotePort = 0 <;>
    (simp [portProbes, GtpuTftKey.rank, ue, remote]; try omega)

def probes (p : GtpuTftKey) : List GtpuTftKey :=
  if p.ueSaddr = anyAddr then portProbes p
  else portProbes p ++ portProbes { p with ueSaddr := anyAddr }

theorem mem_probes : k ∈ probes p ↔ k.Matches p := by
  unfold probes
  split
  next any =>
    rw [mem_portProbes, and_iff_left_iff_imp]
    intro matched
    exact matched.ueSaddr.elim id fun zero => zero.trans any.symm
  · rw [List.mem_append, mem_portProbes, mem_portProbes]
    simp only [GtpuTftKey.matches_iff]
    tauto

theorem probes_sorted (p : GtpuTftKey) :
    (probes p).Pairwise fun k other => other.rank ≤ k.rank := by
  unfold probes
  split
  · exact portProbes_sorted p
  next specific =>
    refine List.pairwise_append.mpr ⟨portProbes_sorted _, portProbes_sorted _, ?_⟩
    intro k here other there
    have source := (mem_portProbes.mp here).2
    have wildcard : other.ueSaddr = anyAddr := (mem_portProbes.mp there).2
    simp only [GtpuTftKey.rank, source, if_neg specific, if_pos wildcard]
    split <;> split <;> omega

theorem txClassify_eq (maps : ForwardingMaps) (p : GtpuTftKey) :
    txClassify maps p.family p.ueAddr p.ueSaddr p.proto p.uePort p.remotePort =
      ((probes p).findSome? maps.tft.lookup <|>
        if p.family = afInet then lpmLookup maps.tx4 32 (p.ueAddr.toList.take 4)
        else lpmLookup maps.tx6 128 p.ueAddr.toList) := by
  simp only [txClassify, tftProbePorts_eq, probes]
  by_cases any : p.ueSaddr = anyAddr
  · rw [if_pos any, ← anyAddr, ← any]
    cases (portProbes p).findSome? maps.tft.lookup <;> rfl
  · rw [if_neg any, List.findSome?_append]
    cases (portProbes p).findSome? maps.tft.lookup <;> rfl

theorem length_octetBits (octets : List UInt8) :
    (octets.flatMap octetBits).length = 8 * octets.length := by
  simp [octetBits, Nat.mul_comm]

/-- The probes find the best filter that matches, and the tries are consulted
exactly when no filter does. -/
theorem txClassify_eq_iff (maps : ForwardingMaps) (p : GtpuTftKey) (out : Option GtpuTxTun) :
    txClassify maps p.family p.ueAddr p.ueSaddr p.proto p.uePort p.remotePort = out ↔
      Classified maps p out := by
  have classified : Classified maps p
      (txClassify maps p.family p.ueAddr p.ueSaddr p.proto p.uePort p.remotePort) := by
    rw [txClassify_eq]
    cases probed : (probes p).findSome? maps.tft.lookup with
    | some tun =>
      obtain ⟨k, member, held, best⟩ := findSome?_best _ (probes_sorted p) probed
      exact .filter held (mem_probes.mp member) fun other present matched =>
        best other (mem_probes.mpr matched) present
    | none =>
      refine .bearer (fun k matched => ?_) ?_
      · exact List.findSome?_eq_none_iff.mp probed k (mem_probes.mpr matched)
      · rw [show ∀ rest : Option GtpuTxTun, (none <|> rest) = rest from fun _ => rfl]
        split
        · exact lpmLookup_longest maps.tx4 (by rw [length_octetBits]; simp)
        · exact lpmLookup_longest maps.tx6 (by rw [length_octetBits]; simp)
  constructor
  · rintro rfl
    exact classified
  · exact classified.unique

/-! Where the tunnel of a classified packet comes from, over any run of table calls. -/

/-- A place in one of the tries or in the filter map. -/
abbrev TxKey := LpmFd × List Bool ⊕ GtpuTftKey

def ForwardingMaps.held (s : ForwardingMaps) : TxKey → Option GtpuTxTun
  | .inl (.tx4, bits) => s.tx4.lookup bits
  | .inl (.tx6, bits) => s.tx6.lookup bits
  | .inr k => s.tft.lookup k

def TableCall.writes : TableCall → Option (TxKey × GtpuTxTun)
  | .teidAdd t | .teidUpdate t => some (.inl (tunLpm t), tunToTx t)
  | .tftAdd f => (tftKeyBuild f).toOption.map fun k => (.inr k, tunToTx f.tunnel)
  | _ => none

def TableCall.removes : TableCall → Option TxKey
  | .teidDel t => if tunCheck t = .ok then some (.inl (tunLpm t)) else none
  | .tftDel f => (tftKeyBuild f).toOption.map .inr
  | _ => none

def TxKey.Fits (p : GtpuTftKey) : TxKey → Prop
  | .inl (.tx4, bits) => p.family = afInet ∧ bits <+: (p.ueAddr.toList.take 4).flatMap octetBits
  | .inl (.tx6, bits) => p.family ≠ afInet ∧ bits <+: p.ueAddr.toList.flatMap octetBits
  | .inr k => k.Matches p

/-- A call of the run succeeded in writing the tunnel there, and no later one
removes it. -/
def Provided (start : ForwardingMaps) (calls : List TableCall) (key : TxKey) (tun : GtpuTxTun) :
    Prop :=
  ∃ before call after, calls = before ++ call :: after ∧ call.writes = some (key, tun) ∧
    (call.exec (run tableStep start before)).2 = .ok ∧ ∀ later ∈ after, later.removes ≠ some key

theorem lookup_bpfMapUpdateElem [DecidableEq Key] (map : BoundedMap Key Value) (key other : Key)
    (value : Value) (flags : UpdateFlag) :
    (bpfMapUpdateElem map key value flags).1.lookup other = map.lookup other ∨
      other = key ∧ (bpfMapUpdateElem map key value flags).1.lookup other = some value := by
  rcases bpfMapUpdateElem_cases map key value flags with ⟨room, same⟩ | ⟨rc, same⟩ <;>
    grind [BoundedMap.lookup_put]

theorem held_tableStep (s : ForwardingMaps) (call : TableCall) {key : TxKey}
    (held : (tableStep s call).held key = some tun) :
    s.held key = some tun ∧ call.removes ≠ some key ∨
      call.writes = some (key, tun) ∧ (call.exec s).2 = .ok := by
  unfold tableStep TableCall.exec at *
  -- the cases: which map the call writes, and which one the key is of
  cases call with
  | teidAdd t | teidUpdate t | teidDel t =>
    rcases lpm : tunLpm t with ⟨_ | _, bits⟩ <;> rcases key with ⟨_ | _, other⟩ | k <;>
    simp only [gtpuTeidAdd, gtpuTeidUpdate, teidWrite, gtpuTeidDel, lpm, TableCall.writes,
      TableCall.removes, ForwardingMaps.held, ForwardingMaps.lpm, ForwardingMaps.setLpm] at * <;>
    grind [lookup_bpfMapUpdateElem, lookup_bpfMapDeleteElem]
  | tftAdd f | tftDel f =>
    rcases built : tftKeyBuild f <;> rcases key with ⟨_ | _, other⟩ | k <;>
    simp only [gtpuTftAdd, gtpuTftDel, built, TableCall.writes, TableCall.removes,
      ForwardingMaps.held] at * <;>
    grind [lookup_bpfMapUpdateElem, lookup_bpfMapDeleteElem, Except.toOption]

theorem held_run (start : ForwardingMaps) (calls : List TableCall) {key : TxKey}
    (fresh : start.held key = none) (held : (run tableStep start calls).held key = some tun) :
    Provided start calls key tun := by
  induction calls using List.reverseRecOn with
  | nil => simp [fresh] at held
  | append_singleton calls call ih =>
    rw [run_append] at held
    rcases held_tableStep _ call held with ⟨before, stays⟩ | ⟨wrote, accepted⟩
    · obtain ⟨earlier, first, after, rfl, wrote, accepted, kept⟩ := ih before
      exact ⟨earlier, first, after ++ [call], by simp, wrote, accepted, by grind⟩
    · exact ⟨calls, call, [], rfl, wrote, accepted, by simp⟩

/-- A packet is only sent into a tunnel that a call installed for its address or
for a filter it matches, and that no later call took away. -/
theorem provided_of_txClassify {bearers filters : Nat} {calls : List TableCall} {p : GtpuTftKey}
    {tun : GtpuTxTun}
    (sent : txClassify (run tableStep (.empty bearers filters) calls) p.family p.ueAddr p.ueSaddr
      p.proto p.uePort p.remotePort = some tun) :
    ∃ key : TxKey, key.Fits p ∧ Provided (.empty bearers filters) calls key tun := by
  suffices ∃ key : TxKey, key.Fits p ∧
      (run tableStep (.empty bearers filters) calls).held key = some tun by
    obtain ⟨key, fits, held⟩ := this
    refine ⟨key, fits, held_run _ calls ?_ held⟩
    rcases key with ⟨_ | _, _⟩ | _ <;> rfl
  rw [txClassify_eq] at sent
  cases filter : (probes p).findSome? (run tableStep (.empty bearers filters) calls).tft.lookup with
  | some tun' =>
    obtain ⟨k, probed, held⟩ := List.exists_of_findSome?_eq_some filter
    rw [filter] at sent
    obtain rfl := Option.some.inj sent
    exact ⟨.inr k, mem_probes.mp probed, held⟩
  | none =>
    rw [filter, show ∀ rest : Option GtpuTxTun, (none <|> rest) = rest from fun _ => rfl] at sent
    split at sent
    next inet =>
      obtain ⟨length, _, held⟩ := List.exists_of_findSome?_eq_some sent
      exact ⟨.inl (.tx4, _), ⟨inet, List.take_prefix _ _⟩, held⟩
    next inet6 =>
      obtain ⟨length, _, held⟩ := List.exists_of_findSome?_eq_some sent
      exact ⟨.inl (.tx6, _), ⟨inet6, List.take_prefix _ _⟩, held⟩

def homePacket : GtpuTftKey where
  family := afInet
  proto := 17
  ueAddr := homeBearer.innerAddr
  ueSaddr := anyAddr
  uePort := 0
  remotePort := 0

theorem provided_homePacket : ∃ key : TxKey, key.Fits homePacket ∧
    Provided (.empty 1 1) [.teidAdd homeBearer] key (tunToTx homeBearer) :=
  provided_of_txClassify (by decide)

end Pro2Call.Gtpu

import Mathlib.Data.List.Perm.Subperm
import Pro2Call.Data.Run
import Pro2Call.Net.Dns

namespace Pro2Call.Net

open Pro2Call.Data

/-! The life of the queries of a resolver: calls of `net_dns_query`, datagrams and
timers in any order. What a callback does comes as events of its own. -/

abbrev CStr := { s : List UInt8 // 0 ∉ s }

variable {Cb : Type*}

def searchId (qs : List (Dnsq Cb)) : Nat → UInt16 → Option UInt16
  | 0, _ => none
  | rounds + 1, seq =>
    if (dnsFind qs (seq + 1)).isSome then searchId qs rounds (seq + 1) else some (seq + 1)

/-- The loop of `net_dns_query`; when all ids are in use it does not end. -/
def nextId (qs : List (Dnsq Cb)) (seq : UInt16) : Option UInt16 := searchId qs (2 ^ 16) seq

theorem searchId_fresh {seq id : UInt16}
    (found : searchId qs rounds seq = some id) : ∀ q ∈ qs, q.id ≠ id := by
  induction rounds generalizing seq with
  | zero => cases found
  | succ rounds ih =>
    rw [searchId] at found
    split at found
    · exact ih found
    · rename_i unused
      cases found
      simpa [dnsFind] using unused

theorem searchId_none (never : searchId qs rounds seq = none) :
    ∀ i < rounds, seq + 1 + UInt16.ofNat i ∈ qs.map Dnsq.id := by
  induction rounds generalizing seq with
  | zero =>
    intro i below
    omega
  | succ rounds ih =>
    intro i below
    rw [searchId] at never
    split at never
    · rename_i used
      cases i with
      | zero =>
        obtain ⟨q, member, same⟩ := List.find?_isSome.mp used
        simp only [decide_eq_true_eq] at same
        have first : seq + 1 + UInt16.ofNat 0 = q.id := by
          rw [same]
          exact UInt16.add_zero (seq + 1)
        rw [first]
        exact List.mem_map_of_mem member
      | succ i =>
        have later := ih never i (by omega)
        rwa [UInt16.ofNat_add, UInt16.ofNat_one, UInt16.add_comm (UInt16.ofNat i),
          ← UInt16.add_assoc]
    · cases never

theorem nextId_isSome {qs : List (Dnsq Cb)} (few : qs.length < 2 ^ 16) (seq : UInt16) :
    (nextId qs seq).isSome = true := by
  rw [Option.isSome_iff_ne_none]
  intro never
  have used := searchId_none never
  have distinct : ((List.range (2 ^ 16)).map fun i => seq + 1 + UInt16.ofNat i).Nodup := by
    apply List.Nodup.map_on _ List.nodup_range
    intro i below j below' same
    have same := congrArg UInt16.toNat ((UInt16.add_right_inj _).mp same)
    simp only [UInt16.toNat_ofNat', List.mem_range] at same below below'
    omega
  have contained : (List.range (2 ^ 16)).map (fun i => seq + 1 + UInt16.ofNat i) ⊆
      qs.map Dnsq.id := by
    intro id member
    obtain ⟨i, below, rfl⟩ := List.mem_map.mp member
    exact used i (List.mem_range.mp below)
  have count := (List.subperm_of_subset distinct contained).length_le
  simp only [List.length_map, List.length_range] at count
  omega

def netDnsNew (seq : UInt16) : NetDns Cb where
  qs := []
  timeoutMs := 500
  tries := 3
  seq := seq
  timers := []
  fresh := 1
  output := []
  below := by simp
  distinct := Keyed.distinct_nil

def netDnsConf (d : NetDns Cb) (timeoutMs tries : Int) : NetDns Cb :=
  { d with
    timeoutMs := if 0 < timeoutMs then timeoutMs.toNat else d.timeoutMs
    tries := if 0 < tries then tries.toNat else d.tries }

/-- Link a query in, send its packet and arm its timer; the query takes the first
fresh number, its timer the second. -/
def NetDns.accept (d : NetDns Cb) (id qtype : UInt16) (cb : Cb) (name : CStr)
    (qname : List UInt8) (encoded : dnsQname name.1 = some qname) (armed : Bool) : NetDns Cb :=
  let q : Dnsq Cb := {
    key := d.fresh
    id := id
    qtype := qtype
    tries := 0
    tmr := if armed then d.fresh + 1 else 0
    cb := cb
    name := name.1
    qname := qname
    string := name.2
    encoded := encoded }
  { d with
    qs := q :: d.qs
    seq := id
    timers := if armed then d.timers ++ [⟨d.fresh + 1, d.fresh, d.timeoutMs⟩] else d.timers
    fresh := d.fresh + 2
    output := d.output ++ [.sent q.key q.pkt]
    below := by
      intro other member
      rcases List.mem_cons.mp member with rfl | before
      · exact Nat.lt_add_of_pos_right (by decide)
      · exact Nat.lt_add_right 2 (d.below other before)
    distinct := by
      refine List.nodup_cons.mpr ⟨?_, d.distinct⟩
      intro used
      obtain ⟨other, member, same⟩ := List.mem_map.mp used
      exact absurd (d.below other member) (by rw [same]; exact lt_irrefl _) }

/-- `allocated` and `armed` are the outcomes of `calloc` and of `net_loop_after`; the
result is none when the call does not return. -/
def netDnsQuery (d : NetDns Cb) (name : Option CStr) (type : UInt16) (cb : Option Cb)
    (allocated armed : Bool) : Option (NetDns Cb × Int) :=
  match cb, name with
  | some cb, some name =>
    if 255 < name.1.length then some (d, netErr)
    else if !allocated then some (d, netErr)
    else
      match nextId d.qs d.seq with
      | none => none
      | some id =>
        match encoded : dnsQname name.1 with
        | none => some ({ d with seq := id }, netErr)
        | some qname => some (d.accept id type cb name qname encoded armed, netOk)
  | _, _ => some (d, netErr)

theorem netDnsQuery_cases {name : Option CStr} {type : UInt16} {allocated armed : Bool}
    (returned : netDnsQuery d name type cb allocated armed = some (d', status)) :
    (∃ seq, d' = { d with seq := seq } ∧ status = netErr) ∨
      ∃ text callback id qname, ∃ encoded : dnsQname text.1 = some qname,
        name = some text ∧ cb = some callback ∧ (∀ q ∈ d.qs, q.id ≠ id) ∧
          d' = d.accept id type callback text qname encoded armed ∧ status = netOk := by
  unfold netDnsQuery at returned
  split at returned
  · split at returned
    · cases returned
      exact .inl ⟨d.seq, rfl, rfl⟩
    split at returned
    · cases returned
      exact .inl ⟨d.seq, rfl, rfl⟩
    split at returned
    · cases returned
    rename_i id next
    split at returned
    · cases returned
      exact .inl ⟨id, rfl, rfl⟩
    · cases returned
      exact .inr ⟨_, _, id, _, _, rfl, rfl, searchId_fresh next, rfl, rfl⟩
  · cases returned
    exact .inl ⟨d.seq, rfl, rfl⟩

theorem netDnsQuery_isSome {d : NetDns Cb} (few : d.qs.length < 2 ^ 16)
    (name : Option CStr) (type : UInt16) (cb : Option Cb) (allocated armed : Bool) :
    (netDnsQuery d name type cb allocated armed).isSome = true := by
  obtain ⟨id, next⟩ := Option.isSome_iff_exists.mp (nextId_isSome few d.seq)
  unfold netDnsQuery
  split
  · split
    · rfl
    split
    · rfl
    simp only [next]
    split <;> rfl
  · rfl

def Dnsq.again (q : Dnsq Cb) (tmr : Nat) : Dnsq Cb := { q with tries := q.tries + 1, tmr := tmr }

theorem map_modify_again {View : Type*} {view : Dnsq Cb → View} {key tmr : Nat}
    (keeps : ∀ q : Dnsq Cb, view (q.again tmr) = view q) :
    (Keyed.modify Dnsq.key qs key fun q => q.again tmr).map view = qs.map view :=
  Keyed.map_modify keeps

/-- Send a query again and arm its timer for twice the time. The shift is undefined in
the source from 64 tries on. -/
def NetDns.resend (d : NetDns Cb) (q : Dnsq Cb) (armed : Bool) : NetDns Cb :=
  { d with
    qs := Keyed.modify Dnsq.key d.qs q.key fun q => q.again (if armed then d.fresh else 0)
    timers :=
      if armed then
        d.timers ++ [⟨d.fresh, q.key, (d.timeoutMs <<< (q.tries + 1)) % 2 ^ 64⟩]
      else d.timers
    fresh := d.fresh + 1
    output := d.output ++ [.sent q.key q.pkt]
    below := by
      intro other member
      rcases Keyed.mem_modify.mp member with ⟨before, _⟩ | ⟨before, held, _, rfl⟩
      · exact Nat.lt_succ_of_lt (d.below other before)
      · exact Nat.lt_succ_of_lt (d.below before held)
    distinct := by
      unfold Keyed.Distinct
      rw [map_modify_again fun _ => rfl]
      exact d.distinct }

def dnsTimeo (d : NetDns Cb) (key : Nat) (armed : Bool) : NetDns Cb :=
  match Keyed.find Dnsq.key d.qs key with
  | none => d
  | some q =>
    if q.tries + 1 < d.tries then d.resend q armed
    else
      { dnsDetach d { q with tmr := 0 } with
        output := d.output ++ [.called q.key q.cb netTimeout []] }

inductive DnsEvent (Cb : Type*) where
  | query (name : Option CStr) (type : UInt16) (cb : Option Cb) (allocated armed : Bool)
  | datagram (p : List UInt8)
  | expire (handle : Nat) (armed : Bool)

def NetDns.expire (d : NetDns Cb) (handle : Nat) (armed : Bool) : NetDns Cb :=
  match Keyed.find DnsTimer.handle d.timers handle with
  | none => d
  | some timer =>
    dnsTimeo { d with timers := Keyed.erase DnsTimer.handle d.timers handle } timer.key armed

def dnsStep (d : NetDns Cb) : DnsEvent Cb → NetDns Cb
  | .query name type cb allocated armed =>
    match netDnsQuery d name type cb allocated armed with
    | none => d
    | some (d, _) => d
  | .datagram p => dnsParse d p
  | .expire handle armed => d.expire handle armed

theorem dnsTimeo_ids {d : NetDns Cb} (ids : Keyed.Distinct Dnsq.id d.qs) (key : Nat)
    (armed : Bool) : Keyed.Distinct Dnsq.id (dnsTimeo d key armed).qs := by
  unfold dnsTimeo
  split
  · exact ids
  · rename_i q _
    split
    · unfold Keyed.Distinct
      rw [NetDns.resend, map_modify_again fun _ => rfl]
      exact ids
    · exact Keyed.Distinct.sublist ids List.filter_sublist

theorem dnsStep_ids (d : NetDns Cb) (event : DnsEvent Cb)
    (ids : Keyed.Distinct Dnsq.id d.qs) : Keyed.Distinct Dnsq.id (dnsStep d event).qs := by
  cases event with
  | query name type cb allocated armed =>
    cases returned : netDnsQuery d name type cb allocated armed with
    | none => simpa only [dnsStep, returned] using ids
    | some result =>
      simp only [dnsStep, returned]
      rcases netDnsQuery_cases returned with
        ⟨seq, next, _⟩ | ⟨text, callback, id, qname, encoded, _, _, unused, next, _⟩
      · rw [next]
        exact ids
      · rw [next]
        exact List.nodup_cons.mpr ⟨by simpa [NetDns.accept] using unused, ids⟩
  | datagram p =>
    change Keyed.Distinct Dnsq.id (dnsParse d p).qs
    cases matched : dnsMatch d.qs p with
    | none => rwa [dnsParse_of_none matched]
    | some result =>
      rw [dnsParse_qs matched]
      exact Keyed.Distinct.sublist ids List.filter_sublist
  | expire handle armed =>
    change Keyed.Distinct Dnsq.id (d.expire handle armed).qs
    unfold NetDns.expire
    split
    · exact ids
    · apply dnsTimeo_ids
      exact ids

def configured (seq : UInt16) (timeoutMs tries : Int) : NetDns Cb :=
  netDnsConf (netDnsNew seq) timeoutMs tries

theorem run_ids (seq : UInt16) (timeoutMs tries : Int) (events : List (DnsEvent Cb)) :
    Keyed.Distinct Dnsq.id (run dnsStep (configured seq timeoutMs tries) events).qs :=
  run_of_invariant (fun d : NetDns Cb => Keyed.Distinct Dnsq.id d.qs) dnsStep_ids
    Keyed.distinct_nil events

/-- Whatever went before, a response that copies id and question of an outstanding query
is matched to it, and its question is read as the name, exactly when the name does not
end in a dot. -/
theorem copy_matched_iff (seq : UInt16) (timeoutMs tries : Int)
    (events : List (DnsEvent Cb)) {q : Dnsq Cb}
    (outstanding : q ∈ (run dnsStep (configured seq timeoutMs tries) events).qs)
    {p : List UInt8} (copies : Copies q p) :
    (q ∉ (dnsParse (run dnsStep (configured seq timeoutMs tries) events) p).qs ↔
        q.name.getLast? ≠ some dot) ∧
      ((∃ o text, dnsName p 12 = some (o, text) ∧ strcaseeq text q.name = true) ↔
        q.name.getLast? ≠ some dot) := by
  obtain ⟨read, _, _⟩ := copies.read
  have compared := strcaseeq_joined_iff q q.labels_ne_nil fun label member =>
    q.labels_plain member
  refine ⟨copies.completed_iff (run_ids seq timeoutMs tries events) outstanding, ?_, ?_⟩
  · rintro ⟨o, text, read', same⟩
    cases read.symm.trans read'
    exact (compared.mp same).2
  · intro plain
    exact ⟨_, _, read, compared.mpr ⟨rfl, plain⟩⟩

theorem exists_copied {d : NetDns Cb} {id qtype : UInt16} {name qname p : List UInt8}
    (only : d.qs.map (fun q => (q.id, q.qtype, q.name, q.qname)) = [(id, qtype, name, qname)])
    (idCopied : slice p 0 2 = put16 id) (response : get16 p 2 &&& 0x8000 ≠ 0)
    (countCopied : slice p 4 2 = put16 1)
    (questionCopied : slice p 12 (dnsQuestion qname qtype).length = dnsQuestion qname qtype) :
    ∃ q ∈ d.qs, q.name = name ∧ Copies q p := by
  have image : (id, qtype, name, qname) ∈ d.qs.map fun q => (q.id, q.qtype, q.name, q.qname) := by
    rw [only]
    exact List.mem_singleton_self _
  obtain ⟨q, member, fields⟩ := List.mem_map.mp image
  cases fields
  refine ⟨q, member, rfl, idCopied.trans q.pkt_id.symm, response,
    countCopied.trans q.pkt_count.symm, questionCopied.trans q.pkt_question.symm⟩

theorem host_string : 0 ∉ ([97, 46, 98] : List UInt8) := by decide

def askHost : DnsEvent Unit := .query (some ⟨[97, 46, 98], host_string⟩) netDnsA (some ()) true true

def hostResponse : List UInt8 :=
  [0, 7, 0x81, 0x80, 0, 1, 0, 0, 0, 0, 0, 0, 1, 97, 1, 98, 0, 0, 1, 0, 1]

theorem hostResponse_matched :
    ∃ q ∈ (run dnsStep (configured 6 0 0) [askHost]).qs, Copies q hostResponse ∧
      q ∉ (dnsParse (run dnsStep (configured 6 0 0) [askHost]) hostResponse).qs := by
  have only : (run dnsStep (configured 6 0 0) [askHost]).qs.map
      (fun q => (q.id, q.qtype, q.name, q.qname)) =
        [(7, netDnsA, [97, 46, 98], [1, 97, 1, 98, 0])] := by
    decide +kernel
  obtain ⟨q, member, name, copies⟩ :=
    exists_copied only (p := hostResponse) (by decide) (by decide) (by decide) (by decide)
  refine ⟨q, member, copies, ?_⟩
  apply (copy_matched_iff 6 0 0 [askHost] member copies).1.mpr
  rw [name]
  decide

def askDotted : DnsEvent Unit := .query (some ⟨[97, 46], by decide⟩) netDnsA (some ()) true true

def dottedResponse : List UInt8 := [0, 7, 0x81, 0x80, 0, 1, 0, 0, 0, 0, 0, 0, 1, 97, 0, 0, 1, 0, 1]

theorem dottedResponse_unmatched :
    ∃ q ∈ (run dnsStep (configured 6 0 0) [askDotted]).qs, Copies q dottedResponse ∧
      q ∈ (dnsParse (run dnsStep (configured 6 0 0) [askDotted]) dottedResponse).qs ∧
      dnsName dottedResponse 12 = some (15, [97]) ∧ strcaseeq [97] q.name = false := by
  have only : (run dnsStep (configured 6 0 0) [askDotted]).qs.map
      (fun q => (q.id, q.qtype, q.name, q.qname)) = [(7, netDnsA, [97, 46], [1, 97, 0])] := by
    decide +kernel
  have unmatched : dnsMatch (run dnsStep (configured 6 0 0) [askDotted]).qs dottedResponse =
      none := by
    rw [← Option.isNone_iff_eq_none]
    decide +kernel
  obtain ⟨q, member, name, copies⟩ :=
    exists_copied only (p := dottedResponse) (by decide) (by decide) (by decide) (by decide)
  refine ⟨q, member, copies, ?_, by decide +kernel, ?_⟩
  · rwa [dnsParse_of_none unmatched]
  · rw [name]
    decide

theorem length_le_of_nodup {ids : List UInt16} (distinct : ids.Nodup) : ids.length ≤ 2 ^ 16 := by
  have contained : ids.map UInt16.toNat ⊆ List.range (2 ^ 16) := by
    intro id member
    obtain ⟨value, _, rfl⟩ := List.mem_map.mp member
    exact List.mem_range.mpr value.toNat_lt
  have count := (List.subperm_of_subset
    (distinct.map fun _ _ => UInt16.toNat_inj.mp) contained).length_le
  rwa [List.length_map, List.length_range] at count

theorem searchId_full (ids : Keyed.Distinct Dnsq.id qs)
    (full : 2 ^ 16 ≤ qs.length) (rounds : Nat) (seq : UInt16) : searchId qs rounds seq = none := by
  induction rounds generalizing seq with
  | zero => rfl
  | succ rounds ih =>
    have used : seq + 1 ∈ qs.map Dnsq.id := by
      by_contra unused
      have count := length_le_of_nodup (List.nodup_cons.mpr ⟨unused, ids⟩)
      rw [List.length_cons, List.length_map] at count
      omega
    obtain ⟨q, member, same⟩ := List.mem_map.mp used
    have found : (dnsFind qs (seq + 1)).isSome = true :=
      List.find?_isSome.mpr ⟨q, member, by simpa using same⟩
    rw [searchId, if_pos found, ih]

theorem netDnsQuery_accepts {d : NetDns Cb} {id : UInt16} (next : nextId d.qs d.seq = some id)
    {name : CStr} (short : name.1.length ≤ 255) {qname : List UInt8}
    (encoded : dnsQname name.1 = some qname) (type : UInt16) (cb : Cb) (armed : Bool) :
    netDnsQuery d (some name) type (some cb) true armed =
      some (d.accept id type cb name qname encoded armed, netOk) := by
  rw [netDnsQuery, if_neg (Nat.not_lt.mpr short), if_neg (by decide)]
  simp only [next]
  split
  · rename_i none
    cases encoded.symm.trans none
  · rename_i found
    cases encoded.symm.trans found
    rfl

/-- Whatever went before, `net_dns_query` returns, with an id that is not in use or an
error, exactly when fewer than 2^16 queries are outstanding. -/
theorem netDnsQuery_returns_iff (seq : UInt16) (timeoutMs tries : Int)
    (events : List (DnsEvent Cb)) (cb : Cb) {d : NetDns Cb}
    (reached : run dnsStep (configured seq timeoutMs tries) events = d) :
    ((∃ rounds id, searchId d.qs rounds d.seq = some id ∧ ∀ q ∈ d.qs, q.id ≠ id) ↔
        d.qs.length < 2 ^ 16) ∧
      ((∀ name type allocated armed,
          (netDnsQuery d name type (some cb) allocated armed).isSome = true) ↔
        d.qs.length < 2 ^ 16) := by
  have ids := run_ids seq timeoutMs tries events
  rw [reached] at ids
  have stuck : ¬ d.qs.length < 2 ^ 16 → ∀ rounds, searchId d.qs rounds d.seq = none :=
    fun full rounds => searchId_full ids (Nat.not_lt.mp full) rounds d.seq
  refine ⟨⟨?_, fun few => ?_⟩, ⟨fun every => ?_, fun few name type allocated armed => ?_⟩⟩
  · rintro ⟨rounds, id, found, _⟩
    by_contra full
    cases (stuck full rounds).symm.trans found
  · obtain ⟨id, next⟩ := Option.isSome_iff_exists.mp (nextId_isSome few d.seq)
    exact ⟨_, id, next, searchId_fresh next⟩
  · by_contra full
    have returned := every (some ⟨[], by decide⟩) netDnsA true true
    rw [netDnsQuery, if_neg (by decide), if_neg (by decide), nextId, stuck full] at returned
    cases returned
  · exact netDnsQuery_isSome few name type (some cb) allocated armed

theorem netDnsQuery_returns_asked :
    (run dnsStep (configured 6 0 0) [askHost]).qs.length < 2 ^ 16 ∧
      ∀ name type allocated armed, (netDnsQuery (run dnsStep (configured 6 0 0) [askHost]) name type
        (some ()) allocated armed).isSome = true := by
  have few : (run dnsStep (configured 6 0 0) [askHost]).qs.length < 2 ^ 16 := by decide +kernel
  exact ⟨few, (netDnsQuery_returns_iff 6 0 0 [askHost] () rfl).2.mpr few⟩

theorem length_qs_asked (asked : Nat) (room : asked ≤ 2 ^ 16) :
    (run dnsStep (configured 6 0 0) (List.replicate asked askHost)).qs.length = asked := by
  induction asked with
  | zero => rfl
  | succ asked ih =>
    have before := ih (by omega)
    rw [List.replicate_succ', run_append]
    generalize run dnsStep (configured 6 0 0) (List.replicate asked askHost) = d at before
    obtain ⟨id, next⟩ := Option.isSome_iff_exists.mp
      (nextId_isSome (show d.qs.length < 2 ^ 16 by omega) d.seq)
    have returned := @netDnsQuery_accepts _ _ _ next ⟨[97, 46, 98], host_string⟩ (by decide)
      [1, 97, 1, 98, 0] (by decide +kernel) netDnsA () true
    rw [run_cons, run_nil, askHost, dnsStep, returned]
    exact congrArg Nat.succ before

/-- With all ids outstanding the search goes round for ever. -/
theorem netDnsQuery_never_returns : ∃ d : NetDns Unit,
    (∃ events, run dnsStep (configured 6 0 0) events = d) ∧
      (∀ rounds, searchId d.qs rounds d.seq = none) ∧
      netDnsQuery d (some ⟨[97, 46, 98], by decide⟩) netDnsA (some ()) true true = none := by
  have asked := length_qs_asked (2 ^ 16) le_rfl
  have ids := run_ids 6 0 0 (List.replicate (2 ^ 16) askHost)
  have stuck := searchId_full ids asked.ge
  refine ⟨_, ⟨_, rfl⟩, fun rounds => stuck rounds _, ?_⟩
  rw [netDnsQuery, if_neg (by decide), if_neg (by decide), nextId, stuck]

end Pro2Call.Net

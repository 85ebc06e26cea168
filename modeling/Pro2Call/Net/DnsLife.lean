import Pro2Call.Net.DnsRun

namespace Pro2Call.Net

open Pro2Call.Data

variable {Cb : Type*}

def DnsOutput.isSent (key : Nat) : DnsOutput Cb → Bool
  | .sent k _ => k = key
  | .called .. => false

def DnsOutput.isCalled (key : Nat) : DnsOutput Cb → Bool
  | .sent .. => false
  | .called k _ _ _ => k = key

def NetDns.transmissions (d : NetDns Cb) (key : Nat) : Nat := d.output.countP (DnsOutput.isSent key)

def NetDns.calls (d : NetDns Cb) (key : Nat) : Nat := d.output.countP (DnsOutput.isCalled key)

def NetDns.Outstanding (d : NetDns Cb) (key : Nat) : Prop := ∃ q ∈ d.qs, q.key = key

def Regular (d : NetDns Cb) : DnsEvent Cb → Prop
  | .query _ _ _ _ armed => armed = true ∧ d.qs.length < 2 ^ 16
  | .datagram _ => True
  | .expire _ armed => armed = true

/-- The ids of outstanding queries differ. A query that was accepted, and so sent, is
outstanding with one timer and was not called back, or is not outstanding, has no
timer and was called back once. -/
structure QueriesSettled (d : NetDns Cb) : Prop where
  ids : Keyed.Distinct Dnsq.id d.qs
  once : ∀ key, 0 < d.transmissions key → (d.Outstanding key ∧ d.calls key = 0 ∧
        ∃ t ∈ d.timers, t.key = key ∧ ∀ other ∈ d.timers, other.key = key → other = t) ∨
      (¬ d.Outstanding key ∧ d.calls key = 1 ∧ ∀ t ∈ d.timers, t.key ≠ key)

/-- A call of `net_dns_query` returns; one that accepts its query sends it, for the first
time, and leaves it outstanding with the callback of the caller. A query stays
outstanding with its callback until that is called, with what a matching datagram says
or with NET_TIMEOUT after the configured number of transmissions. -/
structure StepsWell (d : NetDns Cb) (event : DnsEvent Cb) : Prop where
  returns : ∀ name type cb allocated armed, event = .query name type cb allocated armed →
      (netDnsQuery d name type cb allocated armed).isSome = true
  accepts : ∀ name type cb allocated armed d', event = .query name type cb allocated armed →
      netDnsQuery d name type cb allocated armed = some (d', netOk) →
        d.transmissions d.fresh = 0 ∧ d'.transmissions d.fresh = 1 ∧
          ∃ q ∈ d'.qs, q.key = d.fresh ∧ some q.cb = cb
  stays : ∀ q ∈ d.qs, (∃ q' ∈ (dnsStep d event).qs, q'.key = q.key ∧ q'.cb = q.cb) ∨
      (dnsStep d event).calls q.key = d.calls q.key + 1
  calls : ∀ key, d.calls key < (dnsStep d event).calls key → ∃ q ∈ d.qs, q.key = key ∧
      ((∃ p off rr, event = .datagram p ∧ dnsMatch d.qs p = some (q, off) ∧
          (dnsStep d event).output = d.output ++ [.called key q.cb (get16 p 2 &&& 0xF).toNat rr]) ∨
        ((dnsStep d event).output = d.output ++ [.called key q.cb netTimeout []] ∧
          d.transmissions key = d.tries))

def fires (key : Nat) (d : NetDns Cb) : DnsEvent Cb → Nat
  | .expire handle _ =>
    match Keyed.find DnsTimer.handle d.timers handle with
    | some timer => if timer.key = key then 1 else 0
    | none => 0
  | _ => 0

def expiries (key : Nat) (d : NetDns Cb) : List (DnsEvent Cb) → Nat
  | [] => 0
  | event :: rest => fires key d event + expiries key (dnsStep d event) rest

section Output

variable {d d' : NetDns Cb} {k : Nat}

theorem transmissions_of_sent {pkt : List UInt8} (sent : d'.output = d.output ++ [.sent k pkt])
    (key : Nat) : d'.transmissions key = d.transmissions key + if k = key then 1 else 0 := by
  simp [NetDns.transmissions, sent, List.countP_singleton, DnsOutput.isSent]

theorem calls_of_sent {pkt : List UInt8} (sent : d'.output = d.output ++ [.sent k pkt])
    (key : Nat) : d'.calls key = d.calls key := by
  simp [NetDns.calls, sent, DnsOutput.isCalled]

end Output

structure TimersPaired (d : NetDns Cb) : Prop where
  handles : Keyed.Distinct DnsTimer.handle d.timers
  given : ∀ t ∈ d.timers, 0 < t.handle ∧ t.handle < d.fresh
  armed : ∀ q ∈ d.qs, ∃ t ∈ d.timers, t.key = q.key ∧ t.handle = q.tmr
  owned : ∀ t ∈ d.timers, ∃ q ∈ d.qs, q.key = t.key ∧ q.tmr = t.handle

/-- What was sent and called for a query follows from its tries and from whether it is
outstanding. -/
structure CountsKept (d : NetDns Cb) : Prop where
  configured : 0 < d.tries
  tries : ∀ q ∈ d.qs, q.tries < d.tries ∧ d.transmissions q.key = q.tries + 1
  waiting : ∀ q ∈ d.qs, d.calls q.key = 0
  finished : ∀ key, ¬ d.Outstanding key → d.calls key = if d.transmissions key = 0 then 0 else 1
  unused : ∀ key, d.fresh ≤ key → d.transmissions key = 0

structure DnsKept (d : NetDns Cb) : Prop where
  ids : Keyed.Distinct Dnsq.id d.qs
  timers : TimersPaired d
  counts : CountsKept d

section Kept

variable {d : NetDns Cb} {q : Dnsq Cb}

theorem TimersPaired.handle_iff (paired : TimersPaired d) (member : q ∈ d.qs)
    (held : t ∈ d.timers) : t.handle = q.tmr ↔ t.key = q.key := by
  constructor
  · intro same
    obtain ⟨timer, timerHeld, key, handle⟩ := paired.armed q member
    rw [paired.handles.eq_of_key held timerHeld (same.trans handle.symm), key]
  · intro same
    obtain ⟨owner, ownerMember, key, tmr⟩ := paired.owned t held
    rw [← d.distinct.eq_of_key ownerMember member (key.trans same), tmr]

theorem TimersPaired.tmr_ne_zero (paired : TimersPaired d) (member : q ∈ d.qs) : q.tmr ≠ 0 := by
  obtain ⟨t, held, _, handle⟩ := paired.armed q member
  rw [← handle]
  exact Nat.pos_iff_ne_zero.mp (paired.given t held).1

theorem DnsKept.settled (kept : DnsKept d) : QueriesSettled d := by
  refine ⟨kept.ids, ?_⟩
  intro key sent
  by_cases outstanding : d.Outstanding key
  · refine .inl ⟨outstanding, ?_⟩
    obtain ⟨q, member, rfl⟩ := outstanding
    obtain ⟨t, held, same, handle⟩ := kept.timers.armed q member
    refine ⟨kept.counts.waiting q member, t, held, same, ?_⟩
    intro other otherHeld otherKey
    apply kept.timers.handles.eq_of_key otherHeld held
    rw [handle, kept.timers.handle_iff member otherHeld, otherKey]
  · refine .inr ⟨outstanding, ?_, ?_⟩
    · rw [kept.counts.finished key outstanding, if_neg (Nat.pos_iff_ne_zero.mp sent)]
    · intro t held same
      obtain ⟨q, member, key', _⟩ := kept.timers.owned t held
      exact outstanding ⟨q, member, key'.trans same⟩

theorem configured_kept (seq : UInt16) (timeoutMs tries : Int) :
    DnsKept (configured seq timeoutMs tries : NetDns Cb) where
  ids := Keyed.distinct_nil
  timers := ⟨Keyed.distinct_nil, by rintro t ⟨⟩, by rintro q ⟨⟩, by rintro t ⟨⟩⟩
  counts := by
    have positive : 0 < if 0 < tries then tries.toNat else 3 := by
      split <;> omega
    exact ⟨positive, by rintro q ⟨⟩, by rintro q ⟨⟩, fun _ _ => rfl, fun _ _ => rfl⟩

def NetDns.finish (d : NetDns Cb) (q : Dnsq Cb) (status : Int) (rr : List DnsRr) : NetDns Cb :=
  { dnsDetach d q with output := d.output ++ [.called q.key q.cb status rr] }

def NetDns.disarm (d : NetDns Cb) (q : Dnsq Cb) : NetDns Cb :=
  { d with timers := Keyed.erase DnsTimer.handle d.timers q.tmr }

inductive DnsMove (d : NetDns Cb) : DnsEvent Cb → NetDns Cb → Prop
  | idle {event : DnsEvent Cb} (seq : UInt16) (quiet : ∀ key, fires key d event = 0) :
      DnsMove d event { d with seq := seq }
  | accepted {name : CStr} {type id : UInt16} {cb : Cb} {qname : List UInt8}
      {allocated : Bool} (encoded : dnsQname name.1 = some qname)
      (fresh : ∀ q ∈ d.qs, q.id ≠ id) :
      DnsMove d (.query (some name) type (some cb) allocated true)
        (d.accept id type cb name qname encoded true)
  | answered {p : List UInt8} {q : Dnsq Cb} {off : Nat} (member : q ∈ d.qs)
      (matched : dnsMatch d.qs p = some (q, off)) (rr : List DnsRr) :
      DnsMove d (.datagram p) (d.finish q (get16 p 2 &&& 0xF).toNat rr)
  | resent {q : Dnsq Cb} (member : q ∈ d.qs) (more : q.tries + 1 < d.tries) :
      DnsMove d (.expire q.tmr true) ((d.disarm q).resend q true)
  | timedOut {q : Dnsq Cb} (member : q ∈ d.qs) (last : d.tries ≤ q.tries + 1) :
      DnsMove d (.expire q.tmr true) (d.finish q netTimeout [])

section Counts

variable {id type : UInt16} {cb : Cb} {name : CStr} {qname : List UInt8}
  {encoded : dnsQname name.1 = some qname} {armed : Bool} {status : Int} {rr : List DnsRr}

theorem NetDns.accept_transmissions (key : Nat) :
    (d.accept id type cb name qname encoded armed).transmissions key =
      d.transmissions key + if d.fresh = key then 1 else 0 :=
  transmissions_of_sent rfl key

theorem NetDns.accept_calls (key : Nat) :
    (d.accept id type cb name qname encoded armed).calls key = d.calls key :=
  calls_of_sent rfl key

theorem NetDns.resend_transmissions (key : Nat) :
    ((d.disarm q).resend q armed).transmissions key =
      d.transmissions key + if q.key = key then 1 else 0 :=
  transmissions_of_sent rfl key

theorem NetDns.resend_calls (key : Nat) : ((d.disarm q).resend q armed).calls key = d.calls key :=
  calls_of_sent rfl key

theorem NetDns.finish_transmissions (key : Nat) :
    (d.finish q status rr).transmissions key = d.transmissions key := by
  simp [NetDns.transmissions, NetDns.finish, DnsOutput.isSent]

theorem NetDns.finish_calls (key : Nat) :
    (d.finish q status rr).calls key = d.calls key + if q.key = key then 1 else 0 := by
  simp [NetDns.calls, NetDns.finish, List.countP_singleton, DnsOutput.isCalled]

theorem NetDns.finish_key {key : Nat} (more : d.calls key < (d.finish q status rr).calls key) :
    q.key = key := by
  rw [NetDns.finish_calls] at more
  by_contra different
  rw [if_neg different] at more
  exact absurd more (lt_irrefl _)

end Counts

theorem TimersPaired.dnsTimeo_eq (paired : TimersPaired d) (member : q ∈ d.qs) :
    dnsTimeo (d.disarm q) q.key true =
      if q.tries + 1 < d.tries then (d.disarm q).resend q true
      else d.finish q netTimeout [] := by
  have found : Keyed.find Dnsq.key (d.disarm q).qs q.key = some q :=
    d.distinct.find_eq_some.mpr ⟨member, rfl⟩
  have last : ({ dnsDetach (d.disarm q) { q with tmr := 0 } with
      output := d.output ++ [.called q.key q.cb netTimeout []] } : NetDns Cb) =
        d.finish q netTimeout [] := by
    simp [NetDns.finish, dnsDetach, NetDns.disarm, paired.tmr_ne_zero member]
  unfold dnsTimeo
  simp only [found]
  rw [← last]
  rfl

theorem TimersPaired.expire_moves (paired : TimersPaired d) (handle : Nat) :
    DnsMove d (.expire handle true) (d.expire handle true) := by
  unfold NetDns.expire
  cases found : Keyed.find DnsTimer.handle d.timers handle with
  | none => exact .idle d.seq (by simp [fires, found])
  | some timer =>
    obtain ⟨held, rfl⟩ := Keyed.mem_of_find found
    obtain ⟨q, member, key, tmr⟩ := paired.owned timer held
    dsimp only
    rw [← key, ← tmr]
    change DnsMove d _ (dnsTimeo (d.disarm q) q.key true)
    rw [paired.dnsTimeo_eq member]
    by_cases more : q.tries + 1 < d.tries
    · rw [if_pos more]
      exact .resent member more
    · rw [if_neg more]
      exact .timedOut member (Nat.not_lt.mp more)

theorem TimersPaired.moves (paired : TimersPaired d) {event : DnsEvent Cb}
    (regular : Regular d event) :
    DnsMove d event (dnsStep d event) := by
  cases event with
  | query name type cb allocated armed =>
    obtain ⟨rfl, few⟩ := regular
    obtain ⟨⟨d', status⟩, returned⟩ := Option.isSome_iff_exists.mp
      (netDnsQuery_isSome few name type cb allocated true)
    simp only [dnsStep, returned]
    rcases netDnsQuery_cases returned with
      ⟨seq, rfl, _⟩ | ⟨text, callback, id, qname, encoded, rfl, rfl, unused, rfl, _⟩
    · exact .idle seq fun _ => rfl
    · exact .accepted encoded unused
  | datagram p =>
    change DnsMove d _ (dnsParse d p)
    cases matched : dnsMatch d.qs p with
    | none =>
      rw [dnsParse_of_none matched]
      exact .idle d.seq fun _ => rfl
    | some result =>
      obtain ⟨q, off⟩ := result
      obtain ⟨found, _⟩ := dnsMatch_eq_some.mp matched
      simp only [dnsParse, matched]
      exact .answered (mem_of_dnsFind found).1 matched _
  | expire handle armed =>
    obtain rfl : armed = true := regular
    exact paired.expire_moves handle

theorem TimersPaired.armed_other (paired : TimersPaired d) (member : q ∈ d.qs)
    (otherMember : other ∈ d.qs) (different : other.key ≠ q.key) :
    ∃ t ∈ (d.disarm q).timers, t.key = other.key ∧ t.handle = other.tmr := by
  obtain ⟨t, held, key, handle⟩ := paired.armed other otherMember
  refine ⟨t, Keyed.mem_erase.mpr ⟨held, ?_⟩, key, handle⟩
  rw [ne_eq, paired.handle_iff member held, key]
  exact different

theorem TimersPaired.owned_other (paired : TimersPaired d) (member : q ∈ d.qs)
    (held : t ∈ (d.disarm q).timers) :
    ∃ other ∈ d.qs, other.key ≠ q.key ∧ other.key = t.key ∧ other.tmr = t.handle := by
  obtain ⟨before, different⟩ := Keyed.mem_erase.mp held
  obtain ⟨other, otherMember, key, tmr⟩ := paired.owned t before
  refine ⟨other, otherMember, ?_, key, tmr⟩
  rw [key, ne_eq, ← paired.handle_iff member before]
  exact different

theorem NetDns.mem_finish {status : Int} {rr : List DnsRr} :
    other ∈ (d.finish q status rr).qs ↔ other ∈ d.qs ∧ other.key ≠ q.key :=
  Keyed.mem_erase

theorem NetDns.mem_resend (member : q ∈ d.qs) :
    other ∈ ((d.disarm q).resend q true).qs ↔
      (other ∈ d.qs ∧ other.key ≠ q.key) ∨ other = q.again d.fresh :=
  d.distinct.mem_modify member

theorem TimersPaired.accept (paired : TimersPaired d) {id type : UInt16} {cb : Cb}
    {name : CStr} {qname : List UInt8} (encoded : dnsQname name.1 = some qname) :
    TimersPaired (d.accept id type cb name qname encoded true) := by
  constructor
  case handles =>
    apply paired.handles.append
    intro t held
    have := (paired.given t held).2
    exact (Nat.lt_succ_of_lt this).ne
  case given =>
    intro t held
    rcases List.mem_append.mp held with before | new
    · have := paired.given t before
      exact ⟨this.1, Nat.lt_add_right 2 this.2⟩
    · obtain rfl := List.mem_singleton.mp new
      exact ⟨Nat.succ_pos _, Nat.lt_succ_self _⟩
  case armed =>
    intro q member
    rcases List.mem_cons.mp member with rfl | before
    · exact ⟨_, List.mem_append_right _ (List.mem_singleton_self _), rfl, rfl⟩
    · obtain ⟨t, held, key, handle⟩ := paired.armed q before
      exact ⟨t, List.mem_append_left _ held, key, handle⟩
  case owned =>
    intro t held
    rcases List.mem_append.mp held with before | new
    · obtain ⟨q, member, key, tmr⟩ := paired.owned t before
      exact ⟨q, List.mem_cons_of_mem _ member, key, tmr⟩
    · obtain rfl := List.mem_singleton.mp new
      exact ⟨_, List.mem_cons_self, rfl, rfl⟩

theorem TimersPaired.finish (paired : TimersPaired d) (member : q ∈ d.qs) (status : Int)
    (rr : List DnsRr) : TimersPaired (d.finish q status rr) := by
  have timers : (d.finish q status rr).timers = (d.disarm q).timers :=
    if_pos (paired.tmr_ne_zero member)
  constructor
  case handles =>
    rw [timers]
    exact paired.handles.erase q.tmr
  case given =>
    intro t held
    rw [timers] at held
    exact paired.given t (Keyed.mem_erase.mp held).1
  case armed =>
    intro other otherMember
    obtain ⟨before, different⟩ := NetDns.mem_finish.mp otherMember
    rw [timers]
    exact paired.armed_other member before different
  case owned =>
    intro t held
    rw [timers] at held
    obtain ⟨other, otherMember, different, key, tmr⟩ := paired.owned_other member held
    exact ⟨other, NetDns.mem_finish.mpr ⟨otherMember, different⟩, key, tmr⟩

theorem TimersPaired.resend (paired : TimersPaired d) (member : q ∈ d.qs) :
    TimersPaired ((d.disarm q).resend q true) := by
  constructor
  case handles =>
    apply (paired.handles.erase q.tmr).append
    intro t held
    exact (paired.given t (Keyed.mem_erase.mp held).1).2.ne
  case given =>
    intro t held
    rcases List.mem_append.mp held with before | new
    · have := paired.given t (Keyed.mem_erase.mp before).1
      exact ⟨this.1, Nat.lt_succ_of_lt this.2⟩
    · obtain rfl := List.mem_singleton.mp new
      exact ⟨Nat.zero_lt_of_lt (d.below q member), Nat.lt_succ_self _⟩
  case armed =>
    intro other otherMember
    rcases (NetDns.mem_resend member).mp otherMember with ⟨before, different⟩ | rfl
    · obtain ⟨t, held, key, handle⟩ := paired.armed_other member before different
      exact ⟨t, List.mem_append_left _ held, key, handle⟩
    · exact ⟨_, List.mem_append_right _ (List.mem_singleton_self _), rfl, rfl⟩
  case owned =>
    intro t held
    rcases List.mem_append.mp held with before | new
    · obtain ⟨other, otherMember, different, key, tmr⟩ := paired.owned_other member before
      exact ⟨other, (NetDns.mem_resend member).mpr (.inl ⟨otherMember, different⟩), key, tmr⟩
    · obtain rfl := List.mem_singleton.mp new
      exact ⟨_, (NetDns.mem_resend member).mpr (.inr rfl), rfl, rfl⟩

theorem CountsKept.accept (counts : CountsKept d) {id type : UInt16} {cb : Cb} {name : CStr}
    {qname : List UInt8} (encoded : dnsQname name.1 = some qname) :
    CountsKept (d.accept id type cb name qname encoded true) := by
  have absent : ¬ d.Outstanding d.fresh := by
    rintro ⟨q, member, same⟩
    exact absurd (d.below q member) (by omega)
  have never : d.transmissions d.fresh = 0 := counts.unused _ (le_refl _)
  constructor
  case configured => exact counts.configured
  case tries =>
    intro q member
    rw [NetDns.accept_transmissions]
    rcases List.mem_cons.mp member with rfl | before
    · exact ⟨counts.configured, by simp [never]⟩
    · rw [if_neg (d.below q before).ne']
      exact counts.tries q before
  case waiting =>
    intro q member
    rw [NetDns.accept_calls]
    rcases List.mem_cons.mp member with rfl | before
    · rw [counts.finished _ absent, if_pos never]
    · exact counts.waiting q before
  case finished =>
    intro key gone
    have different : d.fresh ≠ key := fun same => gone ⟨_, List.mem_cons_self, same⟩
    rw [NetDns.accept_calls, NetDns.accept_transmissions, if_neg different]
    apply counts.finished
    rintro ⟨q, member, same⟩
    exact gone ⟨q, List.mem_cons_of_mem _ member, same⟩
  case unused =>
    intro key high
    have high : d.fresh + 2 ≤ key := high
    rw [NetDns.accept_transmissions, if_neg (by omega)]
    exact counts.unused key (by omega)

theorem CountsKept.finish (counts : CountsKept d) (member : q ∈ d.qs) (status : Int)
    (rr : List DnsRr) : CountsKept (d.finish q status rr) := by
  constructor
  case configured => exact counts.configured
  case tries =>
    intro other otherMember
    rw [NetDns.finish_transmissions]
    exact counts.tries other (NetDns.mem_finish.mp otherMember).1
  case waiting =>
    intro other otherMember
    obtain ⟨before, different⟩ := NetDns.mem_finish.mp otherMember
    rw [NetDns.finish_calls, if_neg different.symm]
    exact counts.waiting other before
  case finished =>
    intro key gone
    rw [NetDns.finish_calls, NetDns.finish_transmissions]
    by_cases same : q.key = key
    · subst same
      rw [counts.waiting q member, (counts.tries q member).2, if_pos rfl,
        if_neg (Nat.succ_ne_zero _)]
    · rw [if_neg same]
      apply counts.finished
      rintro ⟨other, before, rfl⟩
      exact gone ⟨other, NetDns.mem_finish.mpr ⟨before, Ne.symm same⟩, rfl⟩
  case unused =>
    intro key high
    rw [NetDns.finish_transmissions]
    exact counts.unused key high

theorem CountsKept.resend (counts : CountsKept d) (member : q ∈ d.qs)
    (more : q.tries + 1 < d.tries) : CountsKept ((d.disarm q).resend q true) := by
  constructor
  case configured => exact counts.configured
  case tries =>
    intro other otherMember
    rw [NetDns.resend_transmissions]
    rcases (NetDns.mem_resend member).mp otherMember with ⟨before, different⟩ | rfl
    · rw [if_neg different.symm]
      exact counts.tries other before
    · refine ⟨more, ?_⟩
      change (d.transmissions q.key + if q.key = q.key then 1 else 0) = q.tries + 1 + 1
      rw [if_pos rfl, (counts.tries q member).2]
  case waiting =>
    intro other otherMember
    rw [NetDns.resend_calls]
    rcases (NetDns.mem_resend member).mp otherMember with ⟨before, _⟩ | rfl
    · exact counts.waiting other before
    · exact counts.waiting q member
  case finished =>
    intro key gone
    have different : q.key ≠ key :=
      fun same => gone ⟨_, (NetDns.mem_resend member).mpr (.inr rfl), same⟩
    rw [NetDns.resend_calls, NetDns.resend_transmissions, if_neg different]
    apply counts.finished
    rintro ⟨other, before, rfl⟩
    exact gone ⟨other, (NetDns.mem_resend member).mpr (.inl ⟨before, Ne.symm different⟩), rfl⟩
  case unused =>
    intro key high
    have high : d.fresh + 1 ≤ key := high
    have := d.below q member
    rw [NetDns.resend_transmissions, if_neg (by omega)]
    exact counts.unused key (by omega)

variable {event : DnsEvent Cb} {next : NetDns Cb}

theorem DnsMove.timersPaired (moves : DnsMove d event next) (paired : TimersPaired d) :
    TimersPaired next := by
  cases moves with
  | idle seq quiet => exact ⟨paired.handles, paired.given, paired.armed, paired.owned⟩
  | accepted encoded unused => exact paired.accept encoded
  | answered member matched rr => exact paired.finish member _ rr
  | resent member more => exact paired.resend member
  | timedOut member last => exact paired.finish member _ []

theorem DnsMove.countsKept (moves : DnsMove d event next) (counts : CountsKept d) :
    CountsKept next := by
  cases moves with
  | idle seq quiet =>
    exact ⟨counts.configured, counts.tries, counts.waiting, counts.finished, counts.unused⟩
  | accepted encoded unused => exact counts.accept encoded
  | answered member matched rr => exact counts.finish member _ rr
  | resent member more => exact counts.resend member more
  | timedOut member last => exact counts.finish member _ []

theorem DnsKept.step (kept : DnsKept d) (regular : Regular d event) :
    DnsKept (dnsStep d event) := by
  have moves := kept.timers.moves regular
  exact ⟨dnsStep_ids d event kept.ids, moves.timersPaired kept.timers, moves.countsKept kept.counts⟩

theorem NetDns.finish_stays {done : Dnsq Cb} {status : Int} {rr : List DnsRr} (member : q ∈ d.qs) :
    (∃ q' ∈ (d.finish done status rr).qs, q'.key = q.key ∧ q'.cb = q.cb) ∨
      (d.finish done status rr).calls q.key = d.calls q.key + 1 := by
  by_cases same : done.key = q.key
  · right
    rw [NetDns.finish_calls, if_pos same]
  · left
    exact ⟨q, NetDns.mem_finish.mpr ⟨member, Ne.symm same⟩, rfl, rfl⟩

theorem DnsMove.stays (moves : DnsMove d event next) (member : q ∈ d.qs) :
    (∃ q' ∈ next.qs, q'.key = q.key ∧ q'.cb = q.cb) ∨ next.calls q.key = d.calls q.key + 1 := by
  cases moves with
  | idle seq quiet => exact .inl ⟨q, member, rfl, rfl⟩
  | accepted encoded unused => exact .inl ⟨q, List.mem_cons_of_mem _ member, rfl, rfl⟩
  | answered done matched rr => exact NetDns.finish_stays member
  | resent again more =>
    rename_i other
    by_cases same : q.key = other.key
    · obtain rfl := d.distinct.eq_of_key member again same
      exact .inl ⟨_, (NetDns.mem_resend member).mpr (.inr rfl), rfl, rfl⟩
    · exact .inl ⟨q, (NetDns.mem_resend again).mpr (.inl ⟨member, same⟩), rfl, rfl⟩
  | timedOut done last => exact NetDns.finish_stays member

theorem DnsMove.called (moves : DnsMove d event next) (counts : CountsKept d) {key : Nat}
    (more : d.calls key < next.calls key) :
    ∃ q ∈ d.qs, q.key = key ∧ ((∃ p off rr, event = .datagram p ∧ dnsMatch d.qs p = some (q, off) ∧
          next.output = d.output ++ [.called key q.cb (get16 p 2 &&& 0xF).toNat rr]) ∨
        (next.output = d.output ++ [.called key q.cb netTimeout []] ∧
          d.transmissions key = d.tries)) := by
  cases moves with
  | idle seq quiet => exact absurd more (lt_irrefl _)
  | accepted encoded unused =>
    rw [NetDns.accept_calls] at more
    exact absurd more (lt_irrefl _)
  | answered member matched rr =>
    rename_i p q off
    obtain rfl : q.key = key := NetDns.finish_key more
    exact ⟨q, member, rfl, .inl ⟨p, off, rr, rfl, matched, rfl⟩⟩
  | resent member again =>
    rw [NetDns.resend_calls] at more
    exact absurd more (lt_irrefl _)
  | timedOut member last =>
    rename_i q
    obtain rfl : q.key = key := NetDns.finish_key more
    have := counts.tries q member
    exact ⟨q, member, rfl, .inr ⟨rfl, by omega⟩⟩

theorem DnsKept.stepsWell (kept : DnsKept d) (regular : Regular d event) :
    StepsWell d event where
  returns := by
    rintro name type cb allocated armed rfl
    exact netDnsQuery_isSome regular.2 ..
  accepts := by
    rintro name type cb allocated armed d' rfl returned
    rcases netDnsQuery_cases returned with
      ⟨_, _, status⟩ | ⟨text, callback, id, qname, encoded, _, rfl, _, rfl, _⟩
    · cases status
    · have never : d.transmissions d.fresh = 0 := kept.counts.unused _ (le_refl _)
      refine ⟨never, ?_, _, List.mem_cons_self, rfl, rfl⟩
      rw [NetDns.accept_transmissions, never, if_pos rfl]
  stays := fun _ member => (kept.timers.moves regular).stays member
  calls := fun _ more => (kept.timers.moves regular).called kept.counts more

theorem TimersPaired.fires_eq (paired : TimersPaired d) (member : q ∈ d.qs) (key : Nat)
    (armed : Bool) : fires key d (.expire q.tmr armed) = if q.key = key then 1 else 0 := by
  obtain ⟨t, held, same, handle⟩ := paired.armed q member
  have found := paired.handles.find_eq_some.mpr ⟨held, handle⟩
  simp only [fires, found, same]

theorem DnsMove.fires_le (moves : DnsMove d event next) (kept : DnsKept d) (key : Nat) :
    fires key d event + (d.transmissions key - 1) + d.calls key ≤
      (next.transmissions key - 1) + next.calls key := by
  cases moves with
  | idle seq quiet =>
    rw [quiet, Nat.zero_add]
    exact le_refl _
  | accepted encoded unused =>
    rw [NetDns.accept_transmissions, NetDns.accept_calls]
    simp only [fires]
    omega
  | answered member matched rr =>
    rw [NetDns.finish_transmissions, NetDns.finish_calls]
    simp only [fires]
    omega
  | resent member more =>
    rename_i q
    rw [kept.timers.fires_eq member, NetDns.resend_transmissions, NetDns.resend_calls]
    split
    · rename_i same
      have := (kept.counts.tries q member).2
      rw [same] at this
      omega
    · omega
  | timedOut member last =>
    rw [kept.timers.fires_eq member, NetDns.finish_transmissions, NetDns.finish_calls]
    omega

theorem DnsMove.tries_eq (moves : DnsMove d event next) : next.tries = d.tries := by
  cases moves <;> rfl

theorem DnsKept.run (kept : DnsKept d) (regular : EveryStep dnsStep Regular d events) :
    DnsKept (run dnsStep d events) ∧ (run dnsStep d events).tries = d.tries ∧
      ∀ key, expiries key d events + (d.transmissions key - 1) + d.calls key ≤
        ((run dnsStep d events).transmissions key - 1) + (run dnsStep d events).calls key := by
  induction events generalizing d with
  | nil =>
    refine ⟨kept, rfl, ?_⟩
    intro key
    simp [expiries]
  | cons event rest ih =>
    obtain ⟨first, later⟩ := regular
    have moves := kept.timers.moves first
    obtain ⟨atEnd, tries, bound⟩ := ih (kept.step first) later
    refine ⟨atEnd, tries.trans moves.tries_eq, ?_⟩
    intro key
    have here := moves.fires_le kept key
    have behind := bound key
    simp only [expiries, run_cons]
    omega

end Kept

/-- In every run in which timers are armed and fewer than 65536 queries are outstanding
when one is made. -/
theorem queries_settled (seq : UInt16) (timeoutMs tries : Int) (events : List (DnsEvent Cb))
    (regular : EveryStep dnsStep Regular (configured seq timeoutMs tries) events) :
    EveryState dnsStep QueriesSettled (configured seq timeoutMs tries) events ∧
      EveryStep dnsStep StepsWell (configured seq timeoutMs tries) events ∧
      ∀ key, 0 < (run dnsStep (configured seq timeoutMs tries) events).transmissions key →
        (configured seq timeoutMs tries : NetDns Cb).tries ≤
            expiries key (configured seq timeoutMs tries) events →
          (run dnsStep (configured seq timeoutMs tries) events).calls key = 1 := by
  have initial : DnsKept (configured seq timeoutMs tries : NetDns Cb) :=
    configured_kept seq timeoutMs tries
  have keeps : ∀ (d : NetDns Cb) event, DnsKept d → Regular d event →
      DnsKept (dnsStep d event) := fun _ _ kept admissible => kept.step admissible
  refine ⟨?_, ?_, ?_⟩
  · apply EveryState.mono fun d kept => DnsKept.settled kept
    exact EveryState.of_step keeps initial regular
  · exact EveryStep.of_step keeps (fun _ _ kept admissible => kept.stepsWell admissible)
      initial regular
  · intro key sent enough
    obtain ⟨kept, same, bound⟩ := initial.run regular
    by_contra uncalled
    have outstanding : (run dnsStep (configured seq timeoutMs tries) events).Outstanding key := by
      by_contra gone
      apply uncalled
      rw [kept.counts.finished key gone, if_neg (Nat.pos_iff_ne_zero.mp sent)]
    obtain ⟨q, member, rfl⟩ := outstanding
    have waiting := kept.counts.waiting q member
    have tried := kept.counts.tries q member
    have := bound q.key
    omega

def twoQueries : List (DnsEvent Unit) :=
  [askHost, askDotted, .datagram hostResponse, .expire 4 true, .expire 5 true]

theorem twoQueries_settled :
    EveryState dnsStep QueriesSettled (configured 6 500 2) twoQueries ∧
      (run dnsStep (configured 6 500 2) twoQueries).transmissions 3 = 2 ∧
      (run dnsStep (configured 6 500 2) twoQueries).calls 3 = 1 := by
  have regular : EveryStep dnsStep Regular (configured 6 500 2) twoQueries :=
    ⟨⟨rfl, by decide⟩, ⟨rfl, by decide +kernel⟩, trivial, rfl, rfl, trivial⟩
  have sent : (run dnsStep (configured 6 500 2) twoQueries).transmissions 3 = 2 := by
    decide +kernel
  obtain ⟨settled, _, called⟩ := queries_settled 6 500 2 twoQueries regular
  refine ⟨settled, sent, called 3 ?_ ?_⟩
  · omega
  · decide +kernel

end Pro2Call.Net

import Pro2Call.Data.Keyed
import Pro2Call.Net.DnsName
import Pro2Call.Net.Hooks

namespace Pro2Call.Net

open Pro2Call.Data

def get16 (p : List UInt8) (o : Nat) : UInt16 := UInt16.ofNat (beNat (slice p o 2))

def get32 (p : List UInt8) (o : Nat) : UInt32 := UInt32.ofNat (beNat (slice p o 4))

def put16 (v : UInt16) : List UInt8 := beBytes 2 v.toNat

def netTimeout : Int := -2

def dnsEdns : UInt16 := 1232
def dnsTypeOpt : UInt16 := 41
def dnsClassIn : UInt16 := 1

def netDnsA : UInt16 := 1
def netDnsAaaa : UInt16 := 28
def netDnsSrv : UInt16 := 33
def netDnsNaptr : UInt16 := 35

def netDnsMax : Nat := 32

inductive RrData where
  | a (addr : List UInt8)
  | aaaa (addr : List UInt8)
  | srv (prio weight port : UInt16) (target : List UInt8)
  | naptr (order pref : UInt16) (flags service regexp replace : List UInt8)
  deriving DecidableEq, Repr

structure DnsRr where
  type : UInt16
  ttl : UInt32
  data : RrData
  deriving DecidableEq, Repr

/-- A character string that ends before `n`, and the offset past it; what does not
fit a field of `cap` bytes is cut off. -/
def dnsCstr (p : List UInt8) (n off cap : Nat) : Option (Nat × List UInt8) :=
  match p[off]? with
  | none => none
  | some l =>
    if n ≤ off ∨ n < off + 1 + l.toNat then none
    else
      some (off + 1 + l.toNat, slice p (off + 1) (if l.toNat < cap then l.toNat else cap - 1))

/-- The data of a record in the `rdlen` bytes at `rd`; none for a record that is
passed over. -/
def dnsRdata (p : List UInt8) (type : UInt16) (rd rdlen : Nat) : Option RrData :=
  if type = netDnsA then
    if rdlen ≠ 4 then none else some (.a (slice p rd 4))
  else if type = netDnsAaaa then
    if rdlen ≠ 16 then none else some (.aaaa (slice p rd 16))
  else if type = netDnsSrv then
    if rdlen < 7 then none
    else
      (dnsName p (rd + 6)).map fun (_, target) =>
        .srv (get16 p rd) (get16 p (rd + 2)) (get16 p (rd + 4)) target
  else if type = netDnsNaptr then
    if rdlen < 7 then none
    else do
      let (o, flags) ← dnsCstr p (rd + rdlen) (rd + 4) 16
      let (o, service) ← dnsCstr p (rd + rdlen) o 64
      let (o, regexp) ← dnsCstr p (rd + rdlen) o 256
      let (_, replace) ← dnsName p o
      some (.naptr (get16 p rd) (get16 p (rd + 2)) flags service regexp replace)
  else none

def dnsAnswers (p : List UInt8) (qtype : UInt16) : Nat → Nat → List DnsRr → List DnsRr
  | 0, _, rr => rr
  | count + 1, off, rr =>
    match dnsName p off with
    | none => rr
    | some (o, _) =>
      if p.length < o + 10 then rr
      else
        let type := get16 p o
        let rdlen := (get16 p (o + 8)).toNat
        if p.length < o + 10 + rdlen then rr
        else
          let rr :=
            if type ≠ qtype ∨ rr.length = netDnsMax then rr
            else
              match dnsRdata p type (o + 10) rdlen with
              | none => rr
              | some data => rr ++ [⟨type, get32 p (o + 4), data⟩]
          dnsAnswers p qtype count (o + 10 + rdlen) rr

/-- An outstanding query. `key` stands for its address, `tmr` is 0 without a timer;
the name is a string `dns_qname` accepts. -/
structure Dnsq (Cb : Type*) where
  key : Nat
  id : UInt16
  qtype : UInt16
  tries : Nat
  tmr : Nat
  cb : Cb
  name : List UInt8
  qname : List UInt8
  string : 0 ∉ name
  encoded : dnsQname name = some qname

def dnsQuestion (qname : List UInt8) (qtype : UInt16) : List UInt8 :=
  qname ++ put16 qtype ++ put16 dnsClassIn

variable {Cb : Type*}

def Dnsq.pkt (q : Dnsq Cb) : List UInt8 :=
  put16 q.id ++ put16 0x0100 ++ put16 1 ++ put16 0 ++ put16 0 ++ put16 1 ++
    dnsQuestion q.qname q.qtype ++
    (0 :: put16 dnsTypeOpt ++ put16 dnsEdns ++ List.replicate 6 0)

structure DnsTimer where
  handle : Nat
  key : Nat
  ms : Nat
  deriving DecidableEq, Repr

/-- What the resolver does to the outside: a packet sent for a query, and a callback
called with its status and records. -/
inductive DnsOutput (Cb : Type*) where
  | sent (key : Nat) (pkt : List UInt8)
  | called (key : Nat) (cb : Cb) (status : Int) (rr : List DnsRr)

/-- A resolver with the timers it has on the loop. Addresses and timer handles come
from `fresh` and are not given twice. -/
structure NetDns (Cb : Type*) where
  qs : List (Dnsq Cb)
  timeoutMs : Nat
  tries : Nat
  seq : UInt16
  timers : List DnsTimer
  fresh : Nat
  output : List (DnsOutput Cb)
  below : ∀ q ∈ qs, q.key < fresh
  distinct : Keyed.Distinct Dnsq.key qs

def dnsFind (qs : List (Dnsq Cb)) (id : UInt16) : Option (Dnsq Cb) := qs.find? fun q => q.id = id

def dnsDetach (d : NetDns Cb) (q : Dnsq Cb) : NetDns Cb :=
  { d with
    qs := Keyed.erase Dnsq.key d.qs q.key
    timers :=
      if q.tmr ≠ 0 then Keyed.erase DnsTimer.handle d.timers q.tmr else d.timers
    below := fun other member => d.below other (Keyed.mem_erase.mp member).1
    distinct := d.distinct.erase q.key }

/-- `dns_parse` up to `dns_detach`: the query the datagram is taken to answer, and
where the answers begin. -/
def dnsMatch (qs : List (Dnsq Cb)) (p : List UInt8) : Option (Dnsq Cb × Nat) :=
  if p.length < 12 ∨ get16 p 2 &&& 0x8000 = 0 then none
  else
    match dnsFind qs (get16 p 0) with
    | none => none
    | some q =>
      if get16 p 4 ≠ 1 then none
      else
        match dnsName p 12 with
        | none => none
        | some (o, qname) =>
          if p.length < o + 4 then none
          else if !strcaseeq qname q.name || get16 p o != q.qtype then none
          else some (q, o + 4)

def dnsParse (d : NetDns Cb) (p : List UInt8) : NetDns Cb :=
  match dnsMatch d.qs p with
  | none => d
  | some (q, off) =>
    let rcode := get16 p 2 &&& 0xF
    let rr := if rcode ≠ 0 then [] else dnsAnswers p q.qtype (get16 p 6).toNat off []
    { dnsDetach d q with
      output := d.output ++ [.called q.key q.cb rcode.toNat rr] }

/-- The comparisons `dns_parse` makes with a query, `o` being the offset past the
name of the question. -/
structure Echoed (q : Dnsq Cb) (p : List UInt8) (o : Nat) : Prop where
  header : 12 ≤ p.length
  response : get16 p 2 &&& 0x8000 ≠ 0
  single : get16 p 4 = 1
  name : ∃ text, dnsName p 12 = some (o, text) ∧ strcaseeq text q.name = true
  complete : o + 4 ≤ p.length
  type : get16 p o = q.qtype

theorem dnsMatch_eq_some {p : List UInt8} {q : Dnsq Cb} :
    dnsMatch qs p = some (q, off) ↔
      dnsFind qs (get16 p 0) = some q ∧ ∃ o, off = o + 4 ∧ Echoed q p o := by
  constructor
  · intro matched
    unfold dnsMatch at matched
    split at matched
    · cases matched
    rename_i header
    simp only [not_or, Nat.not_lt] at header
    cases found : dnsFind qs (get16 p 0) with
    | none => simp [found] at matched
    | some other =>
      simp only [found] at matched
      split at matched
      · cases matched
      rename_i single
      cases read : dnsName p 12 with
      | none => simp [read] at matched
      | some result =>
        obtain ⟨o, text⟩ := result
        simp only [read] at matched
        split at matched
        · cases matched
        rename_i complete
        split at matched
        · cases matched
        rename_i compared
        simp only [Bool.or_eq_true, Bool.not_eq_true', bne_iff_ne, not_or,
          Bool.not_eq_false, not_not] at compared single
        cases matched
        exact ⟨rfl, o, rfl, header.1, header.2, single, ⟨text, read, compared.1⟩,
          Nat.not_lt.mp complete, compared.2⟩
  · rintro ⟨found, o, rfl, echoed⟩
    obtain ⟨text, read, same⟩ := echoed.name
    have header : ¬ (p.length < 12 ∨ get16 p 2 &&& 0x8000 = 0) :=
      not_or.mpr ⟨Nat.not_lt.mpr echoed.header, echoed.response⟩
    unfold dnsMatch
    simp [header, found, echoed.single, read, same, echoed.type, Nat.not_lt.mpr echoed.complete]

theorem mem_of_dnsFind {id : UInt16} {q : Dnsq Cb}
    (found : dnsFind qs id = some q) : q ∈ qs ∧ q.id = id :=
  ⟨List.mem_of_find?_eq_some found, by simpa using List.find?_some found⟩

def lowered (labels : List (List UInt8)) : List (List UInt8) := labels.map (List.map asciiLower)

/-- The datagram is a response to the query: it carries the id and one question, the
query's name label by label, its type and its class. -/
structure Answers (q : Dnsq Cb) (p : List UInt8) : Prop where
  header : 12 ≤ p.length
  response : get16 p 2 &&& 0x8000 ≠ 0
  id : get16 p 0 = q.id
  single : get16 p 4 = 1
  question : ∃ labels o, NameAt p 12 labels o ∧ o + 4 ≤ p.length ∧
    lowered labels = lowered (labelsOf dot q.name) ∧
    get16 p o = q.qtype ∧ get16 p (o + 2) = dnsClassIn

/-- A query is completed only by a datagram that answers it, and a datagram that
answers none changes nothing. -/
def OnlyAnswered (d : NetDns Cb) (p : List UInt8) : Prop :=
  (∀ q ∈ d.qs, q ∉ (dnsParse d p).qs → Answers q p) ∧
    ((∀ q ∈ d.qs, ¬ Answers q p) → dnsParse d p = d)

/-- A question that passes the comparisons has class IN, and no label of its name has
a dot or a zero byte in it. -/
def PlainQuestion (d : NetDns Cb) (p : List UInt8) : Prop :=
  ∀ q o, dnsFind d.qs (get16 p 0) = some q → Echoed q p o → get16 p (o + 2) = dnsClassIn ∧
      ∀ labels, NameAt p 12 labels o → ∀ label ∈ labels, dot ∉ label ∧ 0 ∉ label

theorem Dnsq.labels_ne_nil (q : Dnsq Cb) : ∀ label ∈ labelsOf dot q.name, label ≠ [] := by
  intro label member
  obtain ⟨_, _, valid⟩ := dnsQnameFrom_spec (by omega) q.encoded
  exact List.length_pos_iff.mp (valid label member).1

theorem Dnsq.labels_plain (q : Dnsq Cb) {label : List UInt8}
    (member : label ∈ labelsOf dot q.name) : dot ∉ label ∧ 0 ∉ label := by
  refine ⟨not_mem_labelsOf member, ?_⟩
  intro zero
  apply q.string
  rw [joined_labelsOf dot q.name]
  exact List.mem_append_left _ (mem_joined member zero)

theorem plain_of_lowered (same : lowered labels = lowered others)
    (plain : ∀ label ∈ others, dot ∉ label ∧ 0 ∉ label) :
    ∀ label ∈ labels, dot ∉ label ∧ 0 ∉ label := by
  intro label member
  have image : label.map asciiLower ∈ lowered others := by
    rw [← same]
    exact List.mem_map_of_mem member
  obtain ⟨other, otherMember, lower⟩ := List.mem_map.mp image
  obtain ⟨noDot, noZero⟩ := plain other otherMember
  constructor
  · rw [← mem_map_asciiLower (by decide), ← lower, mem_map_asciiLower (by decide)]
    exact noDot
  · rw [← mem_map_asciiLower (by decide), ← lower, mem_map_asciiLower (by decide)]
    exact noZero

theorem lowered_full (full : ∀ label ∈ labels, label ≠ []) :
    ∀ label ∈ lowered labels, label ≠ [] := by
  intro label member
  obtain ⟨before, held, rfl⟩ := List.mem_map.mp member
  simpa using full before held

theorem lowered_plain (plain : ∀ label ∈ labels, dot ∉ label) :
    ∀ label ∈ lowered labels, dot ∉ label := by
  intro label member
  obtain ⟨before, held, rfl⟩ := List.mem_map.mp member
  rw [mem_map_asciiLower (by decide)]
  exact plain before held

theorem strcaseeq_joined_iff (q : Dnsq Cb) (full : ∀ label ∈ labels, label ≠ [])
    (plain : ∀ label ∈ labels, dot ∉ label ∧ 0 ∉ label) :
    strcaseeq (joined dot labels) q.name = true ↔
      lowered labels = lowered (labelsOf dot q.name) ∧ q.name.getLast? ≠ some dot := by
  have noDot : ∀ label ∈ lowered labels, dot ∉ label :=
    lowered_plain fun label member => (plain label member).1
  have noDot' : ∀ label ∈ lowered (labelsOf dot q.name), dot ∉ label :=
    lowered_plain fun label member => (q.labels_plain member).1
  have noZero : 0 ∉ joined dot labels := by
    intro zero
    rcases eq_or_mem_of_mem_joined zero with isDot | ⟨label, held, inside⟩
    · cases isDot
    · exact (plain label held).2 inside
  have compared : strcaseeq (joined dot labels) q.name = true ↔
      joined dot (lowered labels) = joined dot (lowered (labelsOf dot q.name)) ++
        if q.name.getLast? = some dot then [dot] else [] := by
    have split := congrArg (List.map asciiLower) (joined_labelsOf dot q.name)
    have tail : (if q.name.getLast? = some dot then [dot] else []).map asciiLower =
        if q.name.getLast? = some dot then [dot] else [] := by
      split_ifs
      · simp
      · rfl
    rw [List.map_append, map_joined, asciiLower_dot, tail] at split
    rw [strcaseeq, decide_eq_true_eq, cString_of_not_mem noZero, cString_of_not_mem q.string,
      map_joined, asciiLower_dot, split]
    rfl
  rw [compared]
  by_cases trailing : q.name.getLast? = some dot
  · simp only [trailing, if_true, ne_eq, not_true_eq_false, and_false, iff_false]
    intro same
    apply getLast?_joined noDot (lowered_full full)
    rw [same, List.getLast?_append]
    rfl
  · simp only [trailing, if_false, List.append_nil, ne_eq, not_false_eq_true, and_true]
    constructor
    · exact joined_injective noDot (lowered_full full) noDot' (lowered_full q.labels_ne_nil)
    · intro same
      rw [same]

theorem Echoed.answers_iff {q : Dnsq Cb} {p : List UInt8} (echoed : Echoed q p o)
    (id : get16 p 0 = q.id) :
    Answers q p ↔ get16 p (o + 2) = dnsClassIn ∧
      ∀ labels, NameAt p 12 labels o → ∀ label ∈ labels, dot ∉ label ∧ 0 ∉ label := by
  obtain ⟨text, read, same⟩ := echoed.name
  obtain ⟨labels, name, rfl⟩ := dnsName_sound read
  constructor
  · intro answers
    obtain ⟨labels', o', name', _, lower, _, class_⟩ := answers.question
    obtain ⟨rfl, rfl⟩ := name.unique name'
    refine ⟨class_, ?_⟩
    intro others name''
    obtain ⟨rfl, _⟩ := name.unique name''
    exact plain_of_lowered lower fun label member => q.labels_plain member
  · rintro ⟨class_, plain⟩
    have lower := ((strcaseeq_joined_iff q name.labels_ne_nil (plain labels name)).mp same).1
    exact ⟨echoed.header, echoed.response, id, echoed.single,
      labels, o, name, echoed.complete, lower, echoed.type, class_⟩

theorem dnsParse_of_none {d : NetDns Cb} {p : List UInt8} (unmatched : dnsMatch d.qs p = none) :
    dnsParse d p = d := by
  simp only [dnsParse, unmatched]

theorem dnsParse_qs {d : NetDns Cb} {p : List UInt8} {q : Dnsq Cb}
    (matched : dnsMatch d.qs p = some (q, off)) :
    (dnsParse d p).qs = Keyed.erase Dnsq.key d.qs q.key := by
  simp only [dnsParse, matched, dnsDetach]

/-- A query is completed only by a datagram that answers it exactly when the question,
if it passes the comparisons, is of class IN and plain. -/
theorem only_answered_iff_plain (d : NetDns Cb) (p : List UInt8) :
    OnlyAnswered d p ↔ PlainQuestion d p := by
  cases matched : dnsMatch d.qs p with
  | none =>
    have unchanged := dnsParse_of_none matched
    constructor
    · intro _ q o found echoed
      have taken := dnsMatch_eq_some.mpr ⟨found, o, rfl, echoed⟩
      rw [matched] at taken
      cases taken
    · intro _
      refine ⟨?_, fun _ => unchanged⟩
      intro q member gone
      rw [unchanged] at gone
      exact absurd member gone
  | some result =>
    obtain ⟨q, off⟩ := result
    obtain ⟨found, o, rfl, echoed⟩ := dnsMatch_eq_some.mp matched
    obtain ⟨member, id⟩ := mem_of_dnsFind found
    have qs := dnsParse_qs matched
    have completed : q ∉ (dnsParse d p).qs := by
      rw [qs, Keyed.mem_erase]
      exact fun still => still.2 rfl
    have others : ∀ other ∈ d.qs, other ∉ (dnsParse d p).qs → other = q := by
      intro other held gone
      apply d.distinct.eq_of_key held member
      by_contra different
      apply gone
      rw [qs]
      exact Keyed.mem_erase.mpr ⟨held, different⟩
    have answered : OnlyAnswered d p ↔ Answers q p := by
      constructor
      · exact fun only => only.1 q member completed
      · intro answers
        refine ⟨?_, fun never => absurd answers (never q member)⟩
        intro other held gone
        rwa [others other held gone]
    have past : ∀ o', Echoed q p o' → o' = o := by
      intro o' echoed'
      obtain ⟨text, read, _⟩ := echoed.name
      obtain ⟨text', read', _⟩ := echoed'.name
      cases read.symm.trans read'
      rfl
    rw [answered, echoed.answers_iff id.symm]
    constructor
    · intro plain other o' found' echoed'
      cases found.symm.trans found'
      rwa [past o' echoed']
    · exact fun plain => plain q o found echoed

def hostQuery : Dnsq Unit where
  key := 0
  id := 7
  qtype := netDnsA
  tries := 0
  tmr := 0
  cb := ()
  name := [97, 46, 98]
  qname := [1, 97, 1, 98, 0]
  string := by decide
  encoded := by decide +kernel

def hostResolver : NetDns Unit where
  qs := [hostQuery]
  timeoutMs := 500
  tries := 3
  seq := 7
  timers := []
  fresh := 1
  output := []
  below := by simp [hostQuery]
  distinct := List.nodup_singleton _

/-- A response with the id of the query whose question is the one label of three bytes
that spells its name. -/
def oneLabelResponse : List UInt8 :=
  [0, 7, 0x81, 0x80, 0, 1, 0, 0, 0, 0, 0, 0, 3, 97, 46, 98, 0, 0, 1, 0, 1]

theorem one_label_completes_two :
    (dnsParse hostResolver oneLabelResponse).qs.length = 0 ∧
      ¬ OnlyAnswered hostResolver oneLabelResponse := by
  have completed : (dnsParse hostResolver oneLabelResponse).qs.length = 0 := by
    decide +kernel
  refine ⟨completed, ?_⟩
  intro only
  have answers : Answers hostQuery oneLabelResponse := by
    apply only.1 hostQuery (List.mem_singleton_self _)
    rw [List.length_eq_zero_iff.mp completed]
    exact List.not_mem_nil
  obtain ⟨labels, o, name, _, lower, _⟩ := answers.question
  have read : NameAt oneLabelResponse 12 [[97, 46, 98]] 17 :=
    .label (l := 3) rfl (by decide) (by decide) (by decide) (.root rfl)
  obtain ⟨rfl, _⟩ := name.unique read
  revert lower
  decide +kernel

@[simp] theorem length_put16 (v : UInt16) : (put16 v).length = 2 := length_beBytes 2 _

theorem get16_of_slice {p : List UInt8} (read : slice p o 2 = put16 v) : get16 p o = v := by
  rw [get16, read, put16, beNat_beBytes v.toNat_lt, UInt16.ofNat_toNat]

/-- The datagram has the response bit set and copies id, question count and question
of the query, byte for byte. -/
structure Copies (q : Dnsq Cb) (p : List UInt8) : Prop where
  id : slice p 0 2 = slice q.pkt 0 2
  response : get16 p 2 &&& 0x8000 ≠ 0
  count : slice p 4 2 = slice q.pkt 4 2
  question : slice p 12 (dnsQuestion q.qname q.qtype).length =
    slice q.pkt 12 (dnsQuestion q.qname q.qtype).length

theorem Dnsq.pkt_id (q : Dnsq Cb) : slice q.pkt 0 2 = put16 q.id := rfl

theorem Dnsq.pkt_count (q : Dnsq Cb) : slice q.pkt 4 2 = put16 1 := rfl

theorem Dnsq.pkt_question (q : Dnsq Cb) :
    slice q.pkt 12 (dnsQuestion q.qname q.qtype).length = dnsQuestion q.qname q.qtype :=
  slice_append_length (put16 q.id ++ put16 0x0100 ++ put16 1 ++ put16 0 ++ put16 0 ++ put16 1) _ _

section Copies

variable {q : Dnsq Cb} {p : List UInt8}

theorem Copies.split (copies : Copies q p) :
    12 + (dnsQuestion q.qname q.qtype).length ≤ p.length ∧
      p = p.take 12 ++ dnsQuestion q.qname q.qtype ++
        p.drop (12 + (dnsQuestion q.qname q.qtype).length) := by
  have question := copies.question
  rw [q.pkt_question] at question
  have sized := congrArg List.length question
  have filled : 0 < (dnsQuestion q.qname q.qtype).length := by
    simp [dnsQuestion]
  have long : 12 + (dnsQuestion q.qname q.qtype).length ≤ p.length := by
    simp only [slice, List.length_take, List.length_drop] at sized
    omega
  have behind : p.drop 12 = dnsQuestion q.qname q.qtype ++
      p.drop (12 + (dnsQuestion q.qname q.qtype).length) := by
    calc
      p.drop 12 = (p.drop 12).take (dnsQuestion q.qname q.qtype).length ++
          (p.drop 12).drop (dnsQuestion q.qname q.qtype).length :=
        (List.take_append_drop ..).symm
      _ = _ := by
        rw [List.drop_drop]
        exact congrArg (· ++ _) question
  refine ⟨long, ?_⟩
  rw [List.append_assoc, ← behind, List.take_append_drop]

theorem Copies.read (copies : Copies q p) :
    dnsName p 12 = some (12 + q.qname.length, joined dot (labelsOf dot q.name)) ∧
      get16 p (12 + q.qname.length) = q.qtype ∧ 12 + q.qname.length + 4 ≤ p.length := by
  obtain ⟨long, split⟩ := copies.split
  have sized : (p.take 12).length = 12 := by
    rw [List.length_take]
    omega
  have whole : (dnsQuestion q.qname q.qtype).length = q.qname.length + 4 := by
    simp [dnsQuestion]
  generalize p.drop (12 + (dnsQuestion q.qname q.qtype).length) = rest at split
  refine ⟨?_, ?_, by omega⟩
  · have packet : p = p.take 12 ++ q.qname ++ (put16 q.qtype ++ put16 dnsClassIn ++ rest) := by
      conv_lhs => rw [split]
      simp only [dnsQuestion, List.append_assoc]
    have read := dnsName_dnsQname q.encoded packet
    rwa [sized] at read
  · have packet : p = (p.take 12 ++ q.qname) ++ put16 q.qtype ++ (put16 dnsClassIn ++ rest) := by
      conv_lhs => rw [split]
      simp only [dnsQuestion, List.append_assoc]
    have front : (p.take 12 ++ q.qname).length = 12 + q.qname.length := by
      rw [List.length_append, sized]
    apply get16_of_slice
    have part := slice_append_length (p.take 12 ++ q.qname) (put16 q.qtype)
      (put16 dnsClassIn ++ rest)
    rwa [← packet, front, length_put16] at part

theorem Copies.echoed_iff (copies : Copies q p) :
    Echoed q p o ↔ o = 12 + q.qname.length ∧ q.name.getLast? ≠ some dot := by
  obtain ⟨read, type, long⟩ := copies.read
  have same := strcaseeq_joined_iff q q.labels_ne_nil fun label member => q.labels_plain member
  have single : get16 p 4 = 1 := get16_of_slice (copies.count.trans q.pkt_count)
  constructor
  · intro echoed
    obtain ⟨text, read', equal⟩ := echoed.name
    cases read.symm.trans read'
    exact ⟨rfl, (same.mp equal).2⟩
  · rintro ⟨rfl, plain⟩
    exact ⟨by omega, copies.response, single, ⟨_, read, same.mpr ⟨rfl, plain⟩⟩, long, type⟩

theorem Copies.completed_iff {d : NetDns Cb} (copies : Copies q p)
    (ids : Keyed.Distinct Dnsq.id d.qs) (member : q ∈ d.qs) :
    q ∉ (dnsParse d p).qs ↔ q.name.getLast? ≠ some dot := by
  have id : get16 p 0 = q.id := get16_of_slice (copies.id.trans q.pkt_id)
  have found : dnsFind d.qs (get16 p 0) = some q := ids.find_eq_some.mpr ⟨member, id.symm⟩
  constructor
  · intro gone
    cases matched : dnsMatch d.qs p with
    | none =>
      rw [dnsParse_of_none matched] at gone
      exact absurd member gone
    | some result =>
      obtain ⟨other, off⟩ := result
      obtain ⟨found', o, rfl, echoed⟩ := dnsMatch_eq_some.mp matched
      cases found.symm.trans found'
      exact (copies.echoed_iff.mp echoed).2
  · intro plain
    have echoed := copies.echoed_iff.mpr ⟨rfl, plain⟩
    have matched := dnsMatch_eq_some.mpr ⟨found, _, rfl, echoed⟩
    rw [dnsParse_qs matched, Keyed.mem_erase]
    exact fun still => still.2 rfl

end Copies

end Pro2Call.Net

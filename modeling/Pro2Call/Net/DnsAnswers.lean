import Pro2Call.Net.Dns

namespace Pro2Call.Net

open Pro2Call.Data

/-! The answers of a response: records of any type, with names that may be compressed,
and what the callback of the query gets of them. -/

/-- The packet has a name of these labels at `o`, with `hops` pointers to follow at
most; `past` is the offset just past it. -/
inductive NameIn (p : List UInt8) : Nat → Nat → List (List UInt8) → Nat → Prop
  | root {hops o : Nat} (here : p[o]? = some 0) : NameIn p hops o [] (o + 1)
  | label {hops o past : Nat} {label : List UInt8} {labels : List (List UInt8)}
      (full : 0 < label.length) (short : label.length ≤ 63)
      (here : p[o]? = some (UInt8.ofNat label.length))
      (text : slice p (o + 1) label.length = label)
      (rest : NameIn p hops (o + 1 + label.length) labels past) :
      NameIn p hops o (label :: labels) past
  | pointer {hops o past : Nat} {l low : UInt8} {labels : List (List UInt8)}
      (here : p[o]? = some l) (marked : l &&& 0xC0 = 0xC0) (there : p[o + 1]? = some low)
      (target : NameIn p hops ((l &&& 0x3F).toNat * 256 + low.toNat) labels past) :
      NameIn p (hops + 1) o labels (o + 2)

def WellNamed (p : List UInt8) (o : Nat) (labels : List (List UInt8)) (past : Nat) : Prop :=
  NameIn p 40 o labels past ∧ (wireName labels).length ≤ 255

inductive RecordData where
  | a (addr : List UInt8)
  | aaaa (addr : List UInt8)
  | srv (prio weight port : UInt16) (target : List (List UInt8))
  | naptr (order pref : UInt16) (flags service regexp : List UInt8) (replace : List (List UInt8))
  | other (type : UInt16)
  deriving DecidableEq, Repr

structure DnsRecord where
  owner : List (List UInt8)
  ttl : UInt32
  data : RecordData
  deriving DecidableEq, Repr

def RecordData.type : RecordData → UInt16
  | .a _ => netDnsA
  | .aaaa _ => netDnsAaaa
  | .srv .. => netDnsSrv
  | .naptr .. => netDnsNaptr
  | .other type => type

def CstrAt (p : List UInt8) (o : Nat) (text : List UInt8) : Prop :=
  text.length ≤ 255 ∧ p[o]? = some (UInt8.ofNat text.length) ∧ slice p (o + 1) text.length = text

def RecordData.At (p : List UInt8) (rd past : Nat) : RecordData → Prop
  | .a addr => past = rd + 4 ∧ slice p rd 4 = addr
  | .aaaa addr => past = rd + 16 ∧ slice p rd 16 = addr
  | .srv prio weight port target =>
    slice p rd 2 = put16 prio ∧ slice p (rd + 2) 2 = put16 weight ∧
      slice p (rd + 4) 2 = put16 port ∧ WellNamed p (rd + 6) target past
  | .naptr order pref flags service regexp replace =>
    let s := rd + 4 + 1 + flags.length
    let r := s + 1 + service.length
    slice p rd 2 = put16 order ∧ slice p (rd + 2) 2 = put16 pref ∧
      CstrAt p (rd + 4) flags ∧ CstrAt p s service ∧ CstrAt p r regexp ∧
      WellNamed p (r + 1 + regexp.length) replace past
  | .other type => type ∉ [netDnsA, netDnsAaaa, netDnsSrv, netDnsNaptr]

def put32 (v : UInt32) : List UInt8 := beBytes 4 v.toNat

/-- The record stands in the packet from `o` up to `past`; its class is not looked at. -/
structure DnsRecord.At (p : List UInt8) (o past : Nat) (record : DnsRecord) : Prop where
  exists_name : ∃ e, WellNamed p o record.owner e ∧ slice p e 2 = put16 record.data.type ∧
    slice p (e + 4) 4 = put32 record.ttl ∧
    slice p (e + 8) 2 = put16 (UInt16.ofNat (past - (e + 10))) ∧
    e + 10 ≤ past ∧ past < e + 10 + 2 ^ 16 ∧ past ≤ p.length ∧ record.data.At p (e + 10) past

inductive RecordsAt (p : List UInt8) : Nat → List DnsRecord → Prop
  | nil (o : Nat) : RecordsAt p o []
  | cons {o past : Nat} {record : DnsRecord} {records : List DnsRecord}
      (here : record.At p o past) (rest : RecordsAt p past records) :
      RecordsAt p o (record :: records)

/-- What the callback gets of a record: names as text, strings cut to their fields. -/
def RecordData.given : RecordData → Option RrData
  | .a addr => some (.a addr)
  | .aaaa addr => some (.aaaa addr)
  | .srv prio weight port target => some (.srv prio weight port (joined dot target))
  | .naptr order pref flags service regexp replace =>
    some (.naptr order pref (flags.take 15) (service.take 63) (regexp.take 255)
      (joined dot replace))
  | .other _ => none

def given (qtype : UInt16) (records : List DnsRecord) : List DnsRr :=
  (records.filter fun record => record.data.type = qtype).filterMap fun record =>
    record.data.given.map fun data => ⟨qtype, record.ttl, data⟩

variable {p : List UInt8} {o rd past : Nat}

theorem length_wireName_cons (label : List UInt8) (labels : List (List UInt8)) :
    (wireName (label :: labels)).length = 1 + label.length + (wireName labels).length := by
  rw [wireName_cons, List.length_append, List.length_cons]
  omega

theorem NameIn.dnsNameFrom_eq {hops jumps : Nat} {out : List UInt8}
    {ended : Option Nat} (name : NameIn p hops o labels past) (few : jumps + hops ≤ 40)
    (fits : out.length + (wireName labels).length ≤ 256) :
    dnsNameFrom p o out jumps ended = some (ended.getD past, labels.foldl addLabel out) := by
  induction name generalizing jumps out ended with
  | root here => exact dnsNameFrom_root here
  | @label hops o past label labels full short here text rest ih =>
    obtain ⟨nonzero, plain, value⟩ := label_bits full short
    have sized := length_wireName_cons label labels
    have ends : 1 ≤ (wireName labels).length := by simp [wireName]
    have longer := length_addLabel_le out label
    have inside : o + 1 + label.length ≤ p.length := by
      have sliced := congrArg List.length text
      simp only [slice, List.length_take, List.length_drop] at sliced
      omega
    rw [dnsNameFrom_label here nonzero plain (by omega) (by omega), value, text,
      ih few (by omega), List.foldl_cons]
  | @pointer hops o past l low labels here marked there target ih =>
    rw [dnsNameFrom]
    split
    · rename_i outside
      cases here.symm.trans outside
    rename_i l' found
    cases here.symm.trans found
    have nonzero : l ≠ 0 := by
      rintro rfl
      cases marked
    simp only [if_neg nonzero, if_pos marked, there]
    rw [if_neg (by omega), ih (by omega) fits]
    rfl

theorem NameIn.lt_past (name : NameIn p hops o labels past) : o < past := by
  induction name with
  | root => omega
  | label _ _ _ _ _ ih => omega
  | pointer => omega

theorem NameIn.labels_ne_nil (name : NameIn p hops o labels past) :
    ∀ label ∈ labels, label ≠ [] := by
  induction name with
  | root => simp
  | label full _ _ _ _ ih => exact List.forall_mem_cons.mpr ⟨List.length_pos_iff.mp full, ih⟩
  | pointer _ _ _ _ ih => exact ih

theorem WellNamed.dnsName_eq (name : WellNamed p o labels past) :
    dnsName p o = some (past, joined dot labels) := by
  have fits := name.2
  rw [dnsName, name.1.dnsNameFrom_eq (by omega) (by simp only [List.length_nil]; omega),
    foldl_addLabel name.1.labels_ne_nil]
  rfl

theorem CstrAt.dnsCstr_eq {text : List UInt8} (string : CstrAt p o text)
    (inside : o + 1 + text.length ≤ n) (room : 0 < cap) :
    dnsCstr p n o cap = some (o + 1 + text.length, text.take (cap - 1)) := by
  obtain ⟨short, here, octets⟩ := string
  have value : (UInt8.ofNat text.length).toNat = text.length := by
    rw [UInt8.toNat_ofNat']
    omega
  have cut : slice p (o + 1) (if text.length < cap then text.length else cap - 1) =
      text.take (cap - 1) := by
    split
    · rw [octets, List.take_of_length_le (by omega)]
    · rw [← octets, slice, slice, List.take_take, Nat.min_eq_left (by omega)]
  rw [dnsCstr, here]
  simp only [value, cut]
  rw [if_neg (by omega)]

theorem RecordData.At.dnsRdata_eq {data : RecordData} (stands : data.At p rd past) :
    dnsRdata p data.type rd (past - rd) = data.given := by
  cases data with
  | a addr =>
    obtain ⟨rfl, addr⟩ := stands
    rw [dnsRdata, RecordData.type, if_pos rfl, if_neg (by omega), addr, RecordData.given]
  | aaaa addr =>
    obtain ⟨rfl, addr⟩ := stands
    rw [dnsRdata, RecordData.type, if_neg (by decide), if_pos rfl, if_neg (by omega), addr,
      RecordData.given]
  | srv prio weight port target =>
    obtain ⟨first, second, third, name⟩ := stands
    have long := name.1.lt_past
    rw [dnsRdata, RecordData.type, if_neg (by decide), if_neg (by decide), if_pos rfl,
      if_neg (by omega), name.dnsName_eq, get16_of_slice first, get16_of_slice second,
      get16_of_slice third]
    rfl
  | naptr order pref flags service regexp replace =>
    obtain ⟨first, second, flags, service, regexp, name⟩ := stands
    have long := name.1.lt_past
    have stop : rd + (past - rd) = past := by omega
    rw [dnsRdata, RecordData.type, if_neg (by decide), if_neg (by decide), if_neg (by decide),
      if_pos rfl, if_neg (by omega), stop, flags.dnsCstr_eq (by omega) (by decide)]
    simp only [Option.bind_eq_bind, Option.bind_some]
    rw [service.dnsCstr_eq (by omega) (by decide)]
    simp only [Option.bind_some]
    rw [regexp.dnsCstr_eq (by omega) (by decide)]
    simp only [Option.bind_some, name.dnsName_eq, get16_of_slice first, get16_of_slice second]
    rfl
  | other type =>
    simp only [RecordData.At, List.mem_cons, List.not_mem_nil, or_false, not_or] at stands
    obtain ⟨notA, notAaaa, notSrv, notNaptr⟩ := stands
    rw [dnsRdata, RecordData.type, if_neg notA, if_neg notAaaa, if_neg notSrv, if_neg notNaptr,
      RecordData.given]

theorem get32_of_slice (read : slice p o 4 = put32 v) : get32 p o = v := by
  rw [get32, read, put32, beNat_beBytes v.toNat_lt, UInt32.ofNat_toNat]

theorem given_cons (qtype : UInt16) (record : DnsRecord) (records : List DnsRecord) :
    given qtype (record :: records) = (if record.data.type = qtype then
        (record.data.given.map fun data => ⟨qtype, record.ttl, data⟩).toList else []) ++
      given qtype records := by
  unfold given
  by_cases same : record.data.type = qtype
  · cases found : record.data.given <;> simp [same, found]
  · simp [same]

theorem RecordsAt.dnsAnswers_eq (stand : RecordsAt p o records) {rr : List DnsRr}
    (room : rr.length ≤ netDnsMax) :
    dnsAnswers p qtype records.length o rr =
      rr ++ (given qtype records).take (netDnsMax - rr.length) := by
  induction stand generalizing rr with
  | nil o => simp [dnsAnswers, given]
  | @cons o past record records here rest ih =>
    obtain ⟨e, name, type, ttl, size, before, small, inside, data⟩ := here.exists_name
    have length : (get16 p (e + 8)).toNat = past - (e + 10) := by
      rw [get16_of_slice size, UInt16.toNat_ofNat']
      omega
    have stop : e + 10 + (past - (e + 10)) = past := by omega
    rw [List.length_cons, dnsAnswers, name.dnsName_eq]
    simp only [length, stop, get16_of_slice type, get32_of_slice ttl, data.dnsRdata_eq]
    rw [if_neg (by omega), if_neg (by omega), given_cons]
    by_cases same : record.data.type = qtype
    · by_cases full : rr.length = netDnsMax
      · rw [if_pos (.inr full), ih room]
        simp [full]
      · rw [if_neg (by simp [same, full]), if_pos same]
        cases found : record.data.given with
        | none => exact ih room
        | some data =>
          have left : netDnsMax - rr.length = netDnsMax - (rr.length + 1) + 1 := by omega
          simp only [same]
          rw [ih (by simp; omega), left]
          simp
    · rw [if_pos (.inl same), if_neg same, ih room, List.nil_append]

/-- A response that matches a query hands over the answers of its type, as encoded. -/
theorem dnsParse_answers {Cb : Type*} {d : NetDns Cb} {q : Dnsq Cb} {off : Nat}
    {records : List DnsRecord} (matched : dnsMatch d.qs p = some (q, off))
    (success : get16 p 2 &&& 0xF = 0) (count : (get16 p 6).toNat = records.length)
    (encoded : RecordsAt p off records) :
    (dnsParse d p).output =
      d.output ++ [.called q.key q.cb 0 ((given q.qtype records).take netDnsMax)] := by
  have answers : dnsAnswers p q.qtype records.length off [] =
      (given q.qtype records).take netDnsMax := by
    rw [encoded.dnsAnswers_eq (Nat.zero_le _), List.nil_append, List.length_nil, Nat.sub_zero]
  rw [dnsParse, matched]
  simp only [success, count, answers]
  rfl

def aliasResponse : List UInt8 :=
  [0, 7, 0x81, 0x80, 0, 1, 0, 2, 0, 0, 0, 0, 1, 97, 1, 98, 0, 0, 1, 0, 1,
    0xC0, 12, 0, 5, 0, 1, 0, 0, 0, 1, 0, 2, 0xC0, 12,
    0xC0, 12, 0, 1, 0, 1, 0, 0, 0, 60, 0, 4, 10, 0, 0, 1]

theorem nameIn_alias (hops : Nat) : NameIn aliasResponse hops 12 [[97], [98]] 17 :=
  .label (by decide) (by decide) rfl rfl (.label (by decide) (by decide) rfl rfl (.root rfl))

theorem wellNamed_alias {o : Nat} (here : aliasResponse[o]? = some 0xC0)
    (low : aliasResponse[o + 1]? = some 12) : WellNamed aliasResponse o [[97], [98]] (o + 2) :=
  ⟨.pointer here (by decide) low (nameIn_alias 39), by decide⟩

theorem recordsAt_alias :
    RecordsAt aliasResponse 21
      [⟨[[97], [98]], 1, .other 5⟩, ⟨[[97], [98]], 60, .a [10, 0, 0, 1]⟩] :=
  .cons ⟨⟨23, wellNamed_alias rfl rfl, by decide, by decide, by decide, by decide, by decide,
      by decide, by simp only [RecordData.At]; decide⟩⟩
    (.cons ⟨⟨37, wellNamed_alias rfl rfl, by decide, by decide, by decide, by decide, by decide,
      by decide, rfl, by decide⟩⟩ (.nil 51))

theorem dnsMatch_alias : dnsMatch hostResolver.qs aliasResponse = some (hostQuery, 21) := by
  have question : WellNamed aliasResponse 12 [[97], [98]] 17 := ⟨nameIn_alias 40, by decide⟩
  refine dnsMatch_eq_some.mpr ⟨rfl, 17, rfl, ?_⟩
  exact ⟨by decide, by decide, by decide, ⟨_, question.dnsName_eq, by decide⟩, by decide, by decide⟩

theorem dnsParse_answers_alias :
    (dnsParse hostResolver aliasResponse).output =
      [.called 0 () 0 [⟨netDnsA, 60, .a [10, 0, 0, 1]⟩]] :=
  dnsParse_answers dnsMatch_alias (by decide) (by decide) recordsAt_alias

end Pro2Call.Net

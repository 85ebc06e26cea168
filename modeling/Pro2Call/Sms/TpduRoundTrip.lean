import Pro2Call.Sms.Tpdu

namespace Pro2Call.Sms

open Pro2Call.Data

theorem writeAddr_numeric {a : Addr} (numeric : a.Numeric) (cap : Nat) :
    ∃ octets, octets.length ≤ smsAddrMaxOctets ∧ Writes cap (writeAddr cap · a) octets ∧
      ∀ rest, readAddr (octets ++ rest) = .ok (a, rest) := by
  obtain ⟨octets, short, encoded, decoded⟩ := smsAddrEncode_numeric numeric
  refine ⟨octets, short, ?_, ?_⟩
  · intro out room
    show writeAddr cap out a = _
    rw [writeAddr, encoded _ (by omega)]
    rfl
  · intro rest
    rw [readAddr, decoded]
    show Except.ok _ = Except.ok _
    rw [List.drop_left]

@[simp] theorem Ts.length_octets (t : Ts) : t.octets.length = 7 := rfl

theorem writeTs_inRange {t : Ts} (range : t.InRange) (cap : Nat) :
    Writes cap (writeTs cap · t) t.octets := by
  intro out room
  rw [t.length_octets] at room
  show writeTs cap out t = _
  rw [writeTs, smsTsEncode, if_neg (by omega), if_pos range]
  rfl

theorem readTs_octets {t : Ts} (range : t.InRange) (rest : Bytes) :
    readTs (t.octets ++ rest) = .ok (t, rest) := by
  rw [readTs, smsTsDecode_octets range]
  rfl

def Ud.Matches (ud : Ud) (dcs : UInt8) : Prop := ud.p.bytes.length = udOctets dcs ud.udl

def Ud.octets (ud : Ud) : Bytes := ud.udl :: ud.p.bytes

theorem writeUd_short {ud : Ud} (short : ud.p.bytes.length ≤ smsUdMax) (cap : Nat) :
    Writes cap (writeUd cap · ud) ud.octets := by
  intro out room
  show writeUd cap out ud = _
  rw [writeUd, if_neg (Nat.not_lt.mpr short)]
  exact put_room room

theorem readUd_octets {ud : Ud} (agrees : ud.Matches dcs)
    (short : ud.p.bytes.length ≤ smsUdMax) (rest : Bytes) :
    readUd (ud.octets ++ rest) dcs = .ok (ud, rest) := by
  have count : udOctets dcs ud.udl = ud.p.bytes.length := agrees.symm
  have len : UInt8.ofNat (udOctets dcs ud.udl) = ud.p.len := by rw [count]; rfl
  simp only [readUd, Ud.octets, List.cons_append, u8, bind, Except.bind]
  rw [if_neg (by rw [count]; exact Nat.not_lt.mpr short), len, viewOf_append]

/-- The flags are the bits of TP-PI, and what is absent is zero. -/
structure PiTail.Matches (tail : PiTail) (pi : UInt8) : Prop where
  hasPid : tail.hasPid = decide (pi &&& 0x01 ≠ 0)
  hasDcs : tail.hasDcs = decide (pi &&& 0x02 ≠ 0)
  hasUd : tail.hasUd = decide (pi &&& 0x04 ≠ 0)
  pid : tail.hasPid = false → tail.pid = 0
  dcs : tail.hasDcs = false → tail.dcs = 0
  noUd : tail.hasUd = false → tail.ud = {}
  ud : tail.hasUd = true → tail.ud.Matches tail.dcs

def PiTail.octets (tail : PiTail) : Bytes :=
  (if tail.hasPid then [tail.pid] else []) ++ (if tail.hasDcs then [tail.dcs] else []) ++
    (if tail.hasUd then tail.ud.octets else [])

theorem PiTail.length_octets_le (tail : PiTail) :
    tail.octets.length ≤ 3 + tail.ud.p.bytes.length := by
  simp only [PiTail.octets, List.length_append]
  split <;> split <;> split <;> simp only [List.length_cons, List.length_nil, Ud.octets] <;> omega

theorem writePiTail_short {tail : PiTail} (short : tail.ud.p.bytes.length ≤ smsUdMax)
    (cap : Nat) : Writes cap (writePiTail cap · tail) tail.octets := by
  have pid := Writes.ite tail.hasPid fun _ => writes_put cap [tail.pid]
  have dcs := Writes.ite tail.hasDcs fun _ => writes_put cap [tail.dcs]
  have ud := Writes.ite tail.hasUd fun _ => writeUd_short short cap
  rw [PiTail.octets, List.append_assoc]
  exact pid.andThen (dcs.andThen ud)

theorem flaggedU8_octets (absent : has = false → v = 0) (rest : Bytes) :
    flaggedU8 has ((if has then [v] else []) ++ rest) = .ok (v, rest) := by
  cases has with
  | false =>
    rw [absent rfl]
    rfl
  | true => rfl

theorem readPiTail_octets {tail : PiTail} (agrees : tail.Matches pi)
    (short : tail.ud.p.bytes.length ≤ smsUdMax) (rest : Bytes) :
    readPiTail (tail.octets ++ rest) pi = .ok (tail, rest) := by
  have ud : flaggedUd tail.hasUd ((if tail.hasUd then tail.ud.octets else []) ++ rest) tail.dcs =
      .ok (tail.ud, rest) := by
    cases has : tail.hasUd with
    | false =>
      rw [agrees.noUd has]
      rfl
    | true => exact readUd_octets (agrees.ud has) short rest
  rw [readPiTail]
  simp only [← agrees.hasPid, ← agrees.hasDcs, ← agrees.hasUd, PiTail.octets, List.append_assoc]
  rw [flaggedU8_octets agrees.pid]
  simp only [bind, Except.bind, flaggedU8_octets agrees.dcs, ud]

structure Vp.Plain (vp : Vp) : Prop where
  rel : vp.fmt ≠ .relative → vp.rel = 0
  abs : vp.fmt ≠ .absolute → vp.abs = {}
  enh : vp.fmt ≠ .enhanced → vp.enh = Vector.replicate 7 0

def Vp.octets (vp : Vp) : Bytes :=
  match vp.fmt with
  | .none => []
  | .relative => [vp.rel]
  | .absolute => vp.abs.octets
  | .enhanced => vp.enh.toList

theorem Vp.length_octets_le (vp : Vp) : vp.octets.length ≤ 7 := by
  unfold Vp.octets
  split <;> simp

theorem readEnh_octets (enh : Vector UInt8 7) (rest : Bytes) :
    readEnh (enh.toList ++ rest) = .ok (enh, rest) := by
  have read : (Vector.ofFn fun i : Fin 7 => (enh.toList ++ rest).getD i.val 0) = enh := by
    apply Vector.ext
    intro i inside
    rw [Vector.getElem_ofFn, List.getD_eq_getElem?_getD,
      List.getElem?_append_left (by rw [Vector.length_toList]; exact inside)]
    simp [inside]
  have dropped : (enh.toList ++ rest).drop 7 = rest := List.drop_left' enh.length_toList
  rw [readEnh, if_neg (by rw [List.length_append, Vector.length_toList]; omega), read, dropped]

section Validity

variable {vp : Vp} (plain : vp.Plain) (range : vp.fmt = .absolute → vp.abs.InRange)

include range in
theorem writeVp_octets (cap : Nat) : Writes cap (writeVp cap · vp) vp.octets := by
  unfold writeVp Vp.octets
  cases fmt : vp.fmt with
  | none => exact writes_nothing cap
  | relative => exact writes_put cap [vp.rel]
  | absolute => exact writeTs_inRange (range fmt) cap
  | enhanced => exact writes_put cap vp.enh.toList

include plain range in
theorem readVp_octets (rest : Bytes) : readVp vp.fmt (vp.octets ++ rest) = .ok (vp, rest) := by
  cases vp with
  | mk fmt rel abs enh =>
  cases fmt with
  | none =>
    obtain rfl := plain.rel (by simp)
    obtain rfl := plain.abs (by simp)
    obtain rfl := plain.enh (by simp)
    rfl
  | relative =>
    obtain rfl := plain.abs (by simp)
    obtain rfl := plain.enh (by simp)
    rfl
  | absolute =>
    obtain rfl := plain.rel (by simp)
    obtain rfl := plain.enh (by simp)
    simp only [readVp, Vp.octets, bind, Except.bind, readTs_octets (range rfl)]
  | enhanced =>
    obtain rfl := plain.rel (by simp)
    obtain rfl := plain.abs (by simp)
    simp only [readVp, Vp.octets, bind, Except.bind, readEnh_octets]

end Validity

theorem Deliver.firstOctet_read (m : Deliver) :
    m.firstOctet &&& 0x03 = 0 ∧ decide (m.firstOctet &&& 0x04 ≠ 0) = m.mms ∧
      decide (m.firstOctet &&& 0x08 ≠ 0) = m.lp ∧ decide (m.firstOctet &&& 0x20 ≠ 0) = m.sri ∧
      decide (m.firstOctet &&& 0x40 ≠ 0) = m.udhi ∧
      decide (m.firstOctet &&& 0x80 ≠ 0) = m.rp := by
  unfold Deliver.firstOctet
  cases m.mms <;> cases m.lp <;> cases m.sri <;> cases m.udhi <;> cases m.rp <;> decide

theorem Submit.firstOctet_read (m : Submit) :
    m.firstOctet &&& 0x03 = 1 ∧ decide (m.firstOctet &&& 0x04 ≠ 0) = m.rd ∧
      Vpf.ofBits (m.firstOctet >>> 3 &&& 0x03) = m.vp.fmt ∧
      decide (m.firstOctet &&& 0x20 ≠ 0) = m.srr ∧
      decide (m.firstOctet &&& 0x40 ≠ 0) = m.udhi ∧
      decide (m.firstOctet &&& 0x80 ≠ 0) = m.rp := by
  unfold Submit.firstOctet
  cases m.rd <;> cases m.vp.fmt <;> cases m.srr <;> cases m.udhi <;> cases m.rp <;> decide

theorem StatusReport.firstOctet_read (m : StatusReport) :
    m.firstOctet &&& 0x03 = 2 ∧ decide (m.firstOctet &&& 0x04 ≠ 0) = m.mms ∧
      decide (m.firstOctet &&& 0x08 ≠ 0) = m.lp ∧ decide (m.firstOctet &&& 0x20 ≠ 0) = m.srq ∧
      decide (m.firstOctet &&& 0x40 ≠ 0) = m.udhi := by
  unfold StatusReport.firstOctet
  cases m.mms <;> cases m.lp <;> cases m.srq <;> cases m.udhi <;> decide

theorem Command.firstOctet_read (m : Command) :
    m.firstOctet &&& 0x03 = 2 ∧ decide (m.firstOctet &&& 0x20 ≠ 0) = m.srr ∧
      decide (m.firstOctet &&& 0x40 ≠ 0) = m.udhi := by
  unfold Command.firstOctet
  cases m.srr <;> cases m.udhi <;> decide

theorem Report.firstOctet_read (submit : Bool) (m : Report) :
    m.firstOctet submit &&& 0x03 = (if submit then 1 else 0) ∧
      decide (m.firstOctet submit &&& 0x40 ≠ 0) = m.udhi := by
  unfold Report.firstOctet
  cases submit <;> cases m.udhi <;> decide

structure Deliver.Shaped (m : Deliver) : Prop where
  oa : m.oa.Numeric
  ud : m.ud.Matches m.dcs

structure Submit.Shaped (m : Submit) : Prop where
  da : m.da.Numeric
  vp : m.vp.Plain
  ud : m.ud.Matches m.dcs

structure StatusReport.Shaped (m : StatusReport) : Prop where
  ra : m.ra.Numeric
  tail : m.hasPi = true → m.tail.Matches m.pi
  bare : m.hasPi = false → m.pi = 0 ∧ m.tail = {}

structure Report.Shaped (submit : Bool) (m : Report) : Prop where
  fcs : m.hasFcs = false → m.fcs = 0
  hasScts : m.hasScts = submit
  scts : submit = false → m.scts = {}
  tail : m.tail.Matches m.pi

section Types

theorem limits : smsTpduMax = 176 ∧ smsUdMax = 140 ∧ smsCdMax = 156 ∧ smsAddrMaxOctets = 12 :=
  ⟨rfl, rfl, rfl, rfl⟩

theorem Deliver.roundTrip {m : Deliver} (shaped : m.Shaped)
    (short : m.ud.p.bytes.length ≤ smsUdMax) (range : m.scts.InRange) :
    ∃ r, writeDeliver smsTpduMax m = .ok (m.firstOctet :: r) ∧
      readDeliver m.firstOctet r = .ok (m, []) := by
  obtain ⟨tpdu, most, -, addr⟩ := limits
  obtain ⟨oa, few, wrote, read⟩ := writeAddr_numeric shaped.oa smsTpduMax
  obtain ⟨-, mms, lp, sri, udhi, rp⟩ := m.firstOctet_read
  have writes := wrote.andThen ((writes_put _ [m.pid, m.dcs]).andThen
    ((writeTs_inRange range _).andThen (writeUd_short short _)))
  refine ⟨oa ++ ([m.pid, m.dcs] ++ (m.scts.octets ++ m.ud.octets)), writes [_] ?_, ?_⟩
  · simp only [List.length_append, List.length_cons, List.length_nil, Ts.length_octets, Ud.octets]
    omega
  · have ud := readUd_octets shaped.ud short []
    rw [List.append_nil] at ud
    simp only [readDeliver, List.nil_append, List.cons_append, read, bind, Except.bind, u8,
      readTs_octets range, ud, mms, lp, sri, udhi, rp]

theorem Submit.roundTrip {m : Submit} (shaped : m.Shaped) (short : m.ud.p.bytes.length ≤ smsUdMax)
    (range : m.vp.fmt = .absolute → m.vp.abs.InRange) :
    ∃ r, writeSubmit smsTpduMax m = .ok (m.firstOctet :: r) ∧
      readSubmit m.firstOctet r = .ok (m, []) := by
  obtain ⟨tpdu, most, -, addr⟩ := limits
  obtain ⟨da, few, wrote, read⟩ := writeAddr_numeric shaped.da smsTpduMax
  obtain ⟨-, rd, fmt, srr, udhi, rp⟩ := m.firstOctet_read
  have validity := m.vp.length_octets_le
  have writes := (writes_put _ [m.mr]).andThen (wrote.andThen ((writes_put _ [m.pid, m.dcs]).andThen
      ((writeVp_octets range _).andThen (writeUd_short short _))))
  refine ⟨[m.mr] ++ (da ++ ([m.pid, m.dcs] ++ (m.vp.octets ++ m.ud.octets))), writes [_] ?_, ?_⟩
  · simp only [List.length_append, List.length_cons, List.length_nil, Ud.octets]
    omega
  · have ud := readUd_octets shaped.ud short []
    rw [List.append_nil] at ud
    simp only [readSubmit, List.nil_append, List.cons_append, read, bind, Except.bind, u8, fmt,
      readVp_octets shaped.vp range, ud, rd, srr, udhi, rp]

theorem Command.roundTrip {m : Command} (da : m.da.Numeric) (short : m.cd.bytes.length ≤ smsCdMax) :
    ∃ r, writeCommand smsTpduMax m = .ok (m.firstOctet :: r) ∧
      readCommand m.firstOctet r = .ok (m, []) := by
  obtain ⟨tpdu, -, most, addr⟩ := limits
  obtain ⟨octets, few, wrote, read⟩ := writeAddr_numeric da smsTpduMax
  obtain ⟨-, srr, udhi⟩ := m.firstOctet_read
  have cd : Writes smsTpduMax (writeCd smsTpduMax · m.cd) (m.cd.len :: m.cd.bytes) := by
    intro out room
    show writeCd smsTpduMax out m.cd = _
    rw [writeCd, if_neg (Nat.not_lt.mpr short)]
    exact put_room room
  have writes := (writes_put _ [m.mr, m.pid, m.ct, m.mn]).andThen (wrote.andThen cd)
  refine ⟨[m.mr, m.pid, m.ct, m.mn] ++ (octets ++ m.cd.len :: m.cd.bytes), writes [_] ?_, ?_⟩
  · simp only [List.length_append, List.length_cons, List.length_nil]
    omega
  · have view := viewOf_append m.cd []
    rw [List.append_nil] at view
    have whole : readCd (m.cd.len :: m.cd.bytes) = .ok (m.cd, []) := by
      simp only [readCd, u8, bind, Except.bind]
      rw [if_neg (by rw [m.cd.toNat_len]; exact Nat.not_lt.mpr short), view]
    simp only [readCommand, List.nil_append, List.cons_append, read, bind, Except.bind, u8,
      whole, srr, udhi]

theorem PiTail.Matches.piOf {tail : PiTail} (agrees : tail.Matches pi) :
    tail.Matches (piOf tail pi) := by
  have every : ∀ pi : UInt8, ∀ pid dcs ud : Bool,
      decide ((pi &&& 0x80 ||| flag pid 0x01 ||| flag dcs 0x02 ||| flag ud 0x04) &&& 0x01 ≠ 0) =
        pid ∧
      decide ((pi &&& 0x80 ||| flag pid 0x01 ||| flag dcs 0x02 ||| flag ud 0x04) &&& 0x02 ≠ 0) =
        dcs ∧
      decide ((pi &&& 0x80 ||| flag pid 0x01 ||| flag dcs 0x02 ||| flag ud 0x04) &&& 0x04 ≠ 0) =
        ud :=
    forall_octet (by decide +kernel)
  obtain ⟨pid, dcs, ud⟩ := every pi tail.hasPid tail.hasDcs tail.hasUd
  exact ⟨pid.symm, dcs.symm, ud.symm, agrees.pid, agrees.dcs, agrees.noUd, agrees.ud⟩

theorem writeStatusTail_octets {m : StatusReport} (shaped : m.Shaped)
    (short : m.tail.ud.p.bytes.length ≤ smsUdMax) (cap : Nat) :
    ∃ octets, octets.length ≤ 4 + m.tail.ud.p.bytes.length ∧
      Writes cap (writeStatusTail cap · m) octets ∧
      readStatusTail octets = .ok (m.hasPi, piOf m.tail m.pi, m.tail, []) := by
  cases has : m.hasPi with
  | false =>
    obtain ⟨pi, tail⟩ := shaped.bare has
    refine ⟨[], by simp, ?_, by rw [pi, tail]; rfl⟩
    have unwritten : m.writesPi = false := by simp [StatusReport.writesPi, has, tail]
    intro out _
    simp [writeStatusTail, unwritten]
  | true =>
    have agrees := (shaped.tail has).piOf
    have written : m.writesPi = true := by simp [StatusReport.writesPi, has]
    have length := m.tail.length_octets_le
    refine ⟨[piOf m.tail m.pi] ++ m.tail.octets, ?_, ?_, ?_⟩
    · simp only [List.length_append, List.length_cons, List.length_nil]
      omega
    · simp only [writeStatusTail, written, if_true]
      exact (writes_put cap _).andThen (writePiTail_short short cap)
    · have tail := readPiTail_octets agrees short []
      rw [List.append_nil] at tail
      simp only [readStatusTail, List.cons_append, List.nil_append, tail, bind, Except.bind]

theorem StatusReport.roundTrip {m : StatusReport} (shaped : m.Shaped)
    (short : m.tail.ud.p.bytes.length ≤ smsUdMax) (range : m.scts.InRange ∧ m.dt.InRange) :
    ∃ r, writeStatusReport smsTpduMax m = .ok (m.firstOctet :: r) ∧
      readStatusReport m.firstOctet r = .ok ({ m with pi := piOf m.tail m.pi }, []) := by
  obtain ⟨tpdu, most, -, addr⟩ := limits
  obtain ⟨ra, few, wrote, read⟩ := writeAddr_numeric shaped.ra smsTpduMax
  obtain ⟨tail, length, wroteTail, readTail⟩ := writeStatusTail_octets shaped short smsTpduMax
  obtain ⟨-, mms, lp, srq, udhi⟩ := m.firstOctet_read
  have writes := (writes_put _ [m.mr]).andThen (wrote.andThen
    ((writeTs_inRange range.1 _).andThen ((writeTs_inRange range.2 _).andThen
      ((writes_put _ [m.st]).andThen wroteTail))))
  refine ⟨[m.mr] ++ (ra ++ (m.scts.octets ++ (m.dt.octets ++ ([m.st] ++ tail)))), writes [_] ?_, ?_⟩
  · simp only [List.length_append, List.length_cons, List.length_nil, Ts.length_octets]
    omega
  · simp only [readStatusReport, List.nil_append, List.cons_append, read, bind, Except.bind, u8,
      readTs_octets range.1, readTs_octets range.2, readTail, mms, lp, srq, udhi]

theorem Report.roundTrip {m : Report} (shaped : m.Shaped submit)
    (short : m.tail.ud.p.bytes.length ≤ smsUdMax) (range : submit = true → m.scts.InRange) :
    ∃ r, writeReport submit smsTpduMax m = .ok (m.firstOctet submit :: r) ∧
      readReport submit (m.firstOctet submit) m.hasFcs r =
        .ok ({ m with pi := piOf m.tail m.pi }, []) := by
  obtain ⟨tpdu, most, -, -⟩ := limits
  obtain ⟨-, udhi⟩ := m.firstOctet_read submit
  have length := m.tail.length_octets_le
  have fcs := Writes.ite m.hasFcs fun _ => writes_put smsTpduMax [m.fcs]
  have scts := Writes.ite submit fun set => writeTs_inRange (range set) smsTpduMax
  have writes := fcs.andThen ((writes_put _ [piOf m.tail m.pi]).andThen
    (scts.andThen (writePiTail_short short _)))
  have stamp : ∀ rest,
      flaggedTs submit ((if submit then m.scts.octets else []) ++ rest) = .ok (m.scts, rest) := by
    intro rest
    cases submit with
    | false =>
      rw [shaped.scts rfl]
      rfl
    | true => exact readTs_octets (range rfl) rest
  refine ⟨(if m.hasFcs then [m.fcs] else []) ++ ([piOf m.tail m.pi] ++
    ((if submit then m.scts.octets else []) ++ m.tail.octets)), writes [_] ?_, ?_⟩
  · have first : (if m.hasFcs then [m.fcs] else []).length ≤ 1 := by split <;> simp
    have second : (if submit then m.scts.octets else []).length ≤ 7 := by split <;> simp
    simp only [List.length_append, List.length_cons, List.length_nil]
    omega
  · have tail := readPiTail_octets shaped.tail.piOf short []
    rw [List.append_nil] at tail
    simp only [readReport, flaggedU8_octets shaped.fcs, List.nil_append, List.cons_append, bind,
      Except.bind, u8, stamp, tail, udhi, shaped.hasScts]

end Types

/-- Numeric addresses, user data of the length its field counts, TP-PI bits for
the optional fields that are there, and zero in what is absent. -/
def TpduBody.Shaped : TpduBody → Prop
  | .deliver m => m.Shaped
  | .deliverReport m => m.Shaped false
  | .submit m => m.Shaped
  | .submitReport m => m.Shaped true
  | .statusReport m => m.Shaped
  | .command m => m.da.Numeric

def TpduBody.stamps : TpduBody → List Ts
  | .deliver m => [m.scts]
  | .deliverReport _ => []
  | .submit m => if m.vp.fmt = .absolute then [m.vp.abs] else []
  | .submitReport m => [m.scts]
  | .statusReport m => [m.scts, m.dt]
  | .command _ => []

def TpduBody.Short : TpduBody → Prop
  | .deliver m => m.ud.p.bytes.length ≤ smsUdMax
  | .deliverReport m => m.tail.ud.p.bytes.length ≤ smsUdMax
  | .submit m => m.ud.p.bytes.length ≤ smsUdMax
  | .submitReport m => m.tail.ud.p.bytes.length ≤ smsUdMax
  | .statusReport m => m.tail.ud.p.bytes.length ≤ smsUdMax
  | .command m => m.cd.bytes.length ≤ smsCdMax

def TpduBody.hasFcs : TpduBody → Bool
  | .deliverReport m => m.hasFcs
  | .submitReport m => m.hasFcs
  | _ => false

def TpduBody.announced : TpduBody → TpduBody
  | .deliverReport m => .deliverReport { m with pi := piOf m.tail m.pi }
  | .submitReport m => .submitReport { m with pi := piOf m.tail m.pi }
  | .statusReport m => .statusReport { m with pi := piOf m.tail m.pi }
  | u => u

/-- `dir` is the direction of the type; a report is negative when it has a failure
cause. -/
def TpduBody.Travels (u : TpduBody) (dir : Int) : Prop :=
  (0 ≤ dir ∧ dir ≤ 3) ∧ dir % 2 = u.type.dir.toNat ∧
    ((u.type = .deliverReport ∨ u.type = .submitReport) → decide (2 ≤ dir) = u.hasFcs)

theorem mtiType_mti (ty : TpduType) {dir : Int} (travels : dir % 2 = ty.dir.toNat) :
    mtiType ty.mti dir = some ty := by
  cases ty <;> simp [mtiType, TpduType.mti, TpduType.dir] at travels ⊢ <;> omega

theorem smsTpduDecode_octets {u u' : TpduBody} {dir : Int}
    (travels : u.Travels dir) (mti : o0 &&& 0x03 = u.type.mti)
    (read : readBody u.type o0 (decide (2 ≤ dir)) r = .ok (u', [])) :
    smsTpduDecode (o0 :: r) dir = .ok (⟨u.type.mti, u.type.dir, u'⟩, (o0 :: r).length) := by
  obtain ⟨bounds, side, -⟩ := travels
  have back : UInt8.ofNat (dir % 2).toNat = u.type.dir := by
    rw [side, Int.toNat_natCast, UInt8.ofNat_toNat]
  rw [smsTpduDecode, if_neg (by omega)]
  dsimp only
  rw [mti, mtiType_mti _ side]
  dsimp only
  rw [read, back]
  rfl

theorem TpduBody.roundTrip {u : TpduBody} (shaped : u.Shaped) (short : u.Short)
    (range : ∀ t ∈ u.stamps, t.InRange) (mti dir : UInt8) :
    ∃ out, smsTpduEncode smsTpduMax ⟨mti, dir, u⟩ = .ok out ∧ ∀ dir, u.Travels dir →
        smsTpduDecode out dir = .ok (⟨u.type.mti, u.type.dir, u.announced⟩, out.length) := by
  cases u with
  | deliver m =>
    obtain ⟨r, wrote, read⟩ := m.roundTrip shaped short (range _ List.mem_cons_self)
    refine ⟨_, wrote, fun dir travels => ?_⟩
    apply smsTpduDecode_octets travels m.firstOctet_read.1
    rw [TpduBody.type, readBody, read]
    rfl
  | submit m =>
    obtain ⟨r, wrote, read⟩ := m.roundTrip shaped short (fun absolute =>
      range _ (by simp [TpduBody.stamps, absolute]))
    refine ⟨_, wrote, fun dir travels => ?_⟩
    apply smsTpduDecode_octets travels m.firstOctet_read.1
    rw [TpduBody.type, readBody, read]
    rfl
  | command m =>
    obtain ⟨r, wrote, read⟩ := m.roundTrip shaped short
    refine ⟨_, wrote, fun dir travels => ?_⟩
    apply smsTpduDecode_octets travels m.firstOctet_read.1
    rw [TpduBody.type, readBody, read]
    rfl
  | statusReport m =>
    obtain ⟨r, wrote, read⟩ := m.roundTrip shaped short
      ⟨range _ List.mem_cons_self, range _ (List.mem_cons_of_mem _ List.mem_cons_self)⟩
    refine ⟨_, wrote, fun dir travels => ?_⟩
    apply smsTpduDecode_octets travels m.firstOctet_read.1
    rw [TpduBody.type, readBody, read]
    rfl
  | deliverReport m =>
    obtain ⟨r, wrote, read⟩ := m.roundTrip (show m.Shaped false from shaped) short (by simp)
    refine ⟨_, wrote, fun dir travels => ?_⟩
    apply smsTpduDecode_octets travels (m.firstOctet_read false).1
    rw [TpduBody.type, readBody, travels.2.2 (.inl rfl), TpduBody.hasFcs, read]
    rfl
  | submitReport m =>
    obtain ⟨r, wrote, read⟩ := m.roundTrip (show m.Shaped true from shaped) short
      (fun _ => range _ List.mem_cons_self)
    refine ⟨_, wrote, fun dir travels => ?_⟩
    apply smsTpduDecode_octets travels (m.firstOctet_read true).1
    rw [TpduBody.type, readBody, travels.2.2 (.inr rfl), TpduBody.hasFcs, read]
    rfl

def TpduBody.indicators : TpduBody → List UInt8
  | .deliverReport m => [m.pi]
  | .submitReport m => [m.pi]
  | .statusReport m => if m.hasPi then [m.pi] else []
  | _ => []

theorem piOf_eq_iff {tail : PiTail} (agrees : tail.Matches pi) :
    piOf tail pi = pi ↔ pi &&& 0x78 = 0 := by
  have every : ∀ pi : UInt8, pi &&& 0x80 ||| flag (decide (pi &&& 0x01 ≠ 0)) 0x01 |||
        flag (decide (pi &&& 0x02 ≠ 0)) 0x02 ||| flag (decide (pi &&& 0x04 ≠ 0)) 0x04 = pi ↔
          pi &&& 0x78 = 0 :=
    forall_octet (by decide +kernel)
  rw [piOf, agrees.hasPid, agrees.hasDcs, agrees.hasUd]
  exact every pi

theorem TpduBody.announced_eq_iff {u : TpduBody} (shaped : u.Shaped) :
    u.announced = u ↔ ∀ pi ∈ u.indicators, pi &&& 0x78 = 0 := by
  cases u with
  | deliverReport m =>
    have agrees := piOf_eq_iff (Report.Shaped.tail (shaped : m.Shaped false))
    cases m
    simpa [announced, indicators] using agrees
  | submitReport m =>
    have agrees := piOf_eq_iff (Report.Shaped.tail (shaped : m.Shaped true))
    cases m
    simpa [announced, indicators] using agrees
  | statusReport m =>
    have status : m.Shaped := shaped
    cases has : m.hasPi with
    | false =>
      obtain ⟨pi, tail⟩ := status.bare has
      have same : piOf m.tail m.pi = m.pi := by
        rw [pi, tail]
        rfl
      have kept : (statusReport m).announced = statusReport m := by
        rw [announced, same]
      simp [kept, indicators, has]
    | true =>
      have agrees := piOf_eq_iff (status.tail has)
      cases m
      simp only at has
      simpa [announced, indicators, has] using agrees
  | deliver m => simp [announced, indicators]
  | submit m => simp [announced, indicators]
  | command m => simp [announced, indicators]

/-- A TPDU as a caller fills it in: the header of its type, fields that fit
together, timestamps in range, and TP-PI bits for fields that are there only. -/
structure Tpdu.Described (t : Tpdu) : Prop where
  mti : t.mti = t.u.type.mti
  dir : t.dir = t.u.type.dir
  shaped : t.u.Shaped
  stamps : ∀ ts ∈ t.u.stamps, ts.InRange
  indicators : ∀ pi ∈ t.u.indicators, pi &&& 0x78 = 0

def Tpdu.direction (t : Tpdu) : Int := t.dir.toNat + if t.u.hasFcs then 2 else 0

theorem Tpdu.Described.travels {t : Tpdu} (described : t.Described) : t.u.Travels t.direction := by
  have side : t.u.type.dir.toNat ≤ 1 := by cases t.u.type <;> decide
  unfold TpduBody.Travels Tpdu.direction
  rw [described.dir]
  cases t.u.hasFcs with
  | false => refine ⟨by simp; omega, by simp; omega, fun _ => by simp; omega⟩
  | true => refine ⟨by simp; omega, by simp; omega, fun _ => by simp⟩

/-- A described TPDU whose data fits is written, and read back as it was. -/
theorem smsTpduDecode_encode {t : Tpdu} (described : t.Described) (short : t.u.Short) :
    ∃ out, smsTpduEncode smsTpduMax t = .ok out ∧
      smsTpduDecode out t.direction = .ok (t, out.length) := by
  obtain ⟨out, encoded, decoded⟩ := TpduBody.roundTrip described.shaped short
    described.stamps t.mti t.dir
  refine ⟨out, encoded, ?_⟩
  rw [decoded _ described.travels,
    (TpduBody.announced_eq_iff described.shaped).mpr described.indicators, ← described.mti,
    ← described.dir]

def failedSubmit : Tpdu where
  mti := 1
  dir := 1
  u := .submitReport
    { hasFcs := true
      fcs := 0xC3
      pi := 0x07
      hasScts := true
      scts := ⟨2026, 8, 3, 7, 14, 5, -8⟩
      tail := ⟨true, 0x40, true, 0x04, true, ⟨2, { bytes := [1, 2] }⟩⟩ }

theorem smsTpduDecode_encode_failed :
    failedSubmit.Described ∧ ∃ out, smsTpduEncode smsTpduMax failedSubmit = .ok out ∧
      smsTpduDecode out 3 = .ok (failedSubmit, out.length) := by
  have described : failedSubmit.Described := by
    refine ⟨rfl, rfl, ⟨by decide, rfl, by decide, ?_⟩, by decide, by decide +kernel⟩
    exact ⟨rfl, rfl, rfl, by decide, by decide, by decide, fun _ => rfl⟩
  exact ⟨described, smsTpduDecode_encode described (show 2 ≤ 140 by decide)⟩

def longDeliver : Tpdu where
  mti := 0
  dir := 1
  u := .deliver
    { oa := ⟨1, 1, [0x31]⟩
      dcs := 0x04
      scts := ⟨2026, 8, 3, 7, 14, 5, 8⟩
      ud := ⟨141, ⟨List.replicate 141 0, by rw [List.length_replicate]; decide⟩⟩ }

theorem smsTpduEncode_longDeliver :
    longDeliver.Described ∧ smsTpduEncode smsTpduMax longDeliver = .error .length := by
  have length : (List.replicate 141 (0 : UInt8)).length = 141 := List.length_replicate
  refine ⟨⟨rfl, rfl, ⟨⟨by decide, by decide, by decide, by decide,
    by decide +kernel⟩, length⟩, by decide, by decide +kernel⟩, by decide +kernel⟩

end Pro2Call.Sms

import Pro2Call.Sms.TpduRoundTrip

namespace Pro2Call.Sms

open Pro2Call.Data

def addrSize (b : Bytes) (off : Nat) : Nat := 2 + ((b.getD off 0).toNat + 1) / 2

def stampOffsets (b : Bytes) (dir : Int) : List Nat :=
  match mtiType (b.getD 0 0 &&& 0x03) dir with
  | some .deliver => [1 + addrSize b 1 + 2]
  | some .submit => if b.getD 0 0 >>> 3 &&& 0x03 = 3 then [2 + addrSize b 2 + 2] else []
  | some .submitReport => [if 2 ≤ dir then 3 else 2]
  | some .statusReport => [2 + addrSize b 2, 2 + addrSize b 2 + 7]
  | _ => []

def indicatorOffsets (b : Bytes) (dir : Int) : List Nat :=
  match mtiType (b.getD 0 0 &&& 0x03) dir with
  | some .deliverReport => [if 2 ≤ dir then 2 else 1]
  | some .submitReport => [if 2 ≤ dir then 2 else 1]
  | some .statusReport =>
    if 2 + addrSize b 2 + 15 < b.length then [2 + addrSize b 2 + 15] else []
  | _ => []

/-- Timestamps that are dates and times of day, and no reserved bit in TP-PI. -/
def Conforms (b : Bytes) (dir : Int) : Prop :=
  (∀ off ∈ stampOffsets b dir, stampInRange (slice b off 7)) ∧
    ∀ off ∈ indicatorOffsets b dir, b.getD off 0 &&& 0x78 = 0

instance (b : Bytes) (dir : Int) : Decidable (Conforms b dir) := inferInstanceAs (Decidable (_ ∧ _))

section Readers

variable {b rest : Bytes} {off : Nat}

theorem u8_drop (read : u8 (b.drop off) = .ok (o, rest)) :
    o = b.getD off 0 ∧ rest = b.drop (off + 1) ∧ off < b.length := by
  have shape := u8_ok read
  have inside : off < b.length := by
    have length := congrArg List.length shape
    simp only [List.length_drop, List.length_cons] at length
    omega
  rw [List.drop_eq_getElem_cons inside] at shape
  injection shape with first tail
  refine ⟨?_, tail.symm, inside⟩
  rw [← first, List.getD_eq_getElem?_getD, List.getElem?_eq_getElem inside]
  rfl

theorem readAddr_drop (read : readAddr (b.drop off) = .ok (a, rest)) :
    rest = b.drop (off + addrSize b off) ∧ (a.ton ≠ tonAlphanum → a.Numeric) := by
  obtain ⟨⟨decoded, k⟩, found, read⟩ := exists_of_bind_ok read
  cases read
  obtain ⟨-, size, numeric⟩ := smsAddrDecode_ok found
  have first : (b.drop off).getD 0 0 = b.getD off 0 := by
    simp [List.getD_eq_getElem?_getD]
  refine ⟨?_, numeric⟩
  rw [List.drop_drop, size, first]
  rfl

theorem readTs_drop (read : readTs (b.drop off) = .ok (t, rest)) :
    rest = b.drop (off + 7) ∧ (t.InRange ↔ stampInRange (slice b off 7)) := by
  obtain ⟨decoded, found, read⟩ := exists_of_bind_ok read
  cases read
  exact ⟨List.drop_drop, (smsTsDecode_ok found).2⟩

theorem readUd_ok (read : readUd r dcs = .ok (ud, rest)) :
    ud.Matches dcs ∧ ud.p.bytes.length ≤ smsUdMax := by
  obtain ⟨⟨udl, r'⟩, -, read⟩ := exists_of_bind_ok read
  dsimp only at read
  split at read
  · contradiction
  next short =>
    have most : udOctets dcs udl ≤ 140 := Nat.not_lt.mp short
    obtain ⟨⟨p, r''⟩, viewed, read⟩ := exists_of_bind_ok read
    cases read
    have length := (viewOf_ok viewed).2
    rw [UInt8.toNat_ofNat', Nat.mod_eq_of_lt (by omega)] at length
    exact ⟨length, by rw [length]; exact most⟩

theorem flaggedU8_ok (read : flaggedU8 has r = .ok (v, rest)) : has = false → v = 0 := by
  intro absent
  rw [absent] at read
  cases read
  rfl

theorem readPiTail_ok {tail : PiTail} (read : readPiTail r pi = .ok (tail, rest)) :
    tail.Matches pi ∧ tail.ud.p.bytes.length ≤ smsUdMax := by
  obtain ⟨⟨pid, r1⟩, readPid, read⟩ := exists_of_bind_ok read
  obtain ⟨⟨dcs, r2⟩, readDcs, read⟩ := exists_of_bind_ok read
  obtain ⟨⟨ud, r3⟩, readTail, read⟩ := exists_of_bind_ok read
  cases read
  have noPid := flaggedU8_ok readPid
  have noDcs := flaggedU8_ok readDcs
  cases has : decide (pi &&& 0x04 ≠ 0) with
  | false =>
    rw [has] at readTail
    cases readTail
    exact ⟨⟨rfl, rfl, has.symm, noPid, noDcs, fun _ => rfl, by simp⟩, Nat.zero_le _⟩
  | true =>
    rw [has] at readTail
    obtain ⟨agrees, short⟩ := readUd_ok readTail
    exact ⟨⟨rfl, rfl, has.symm, noPid, noDcs, by simp, fun _ => agrees⟩, short⟩

theorem readVp_drop (read : readVp fmt (b.drop off) = .ok (vp, rest)) :
    vp.fmt = fmt ∧ vp.Plain ∧
      (fmt = .absolute → (vp.abs.InRange ↔ stampInRange (slice b off 7))) := by
  cases fmt with
  | none =>
    cases read
    exact ⟨rfl, ⟨fun _ => rfl, fun _ => rfl, fun _ => rfl⟩, by simp⟩
  | relative =>
    obtain ⟨⟨rel, r⟩, -, read⟩ := exists_of_bind_ok read
    cases read
    exact ⟨rfl, ⟨by simp, fun _ => rfl, fun _ => rfl⟩, by simp⟩
  | absolute =>
    obtain ⟨⟨abs, r⟩, found, read⟩ := exists_of_bind_ok read
    cases read
    exact ⟨rfl, ⟨fun _ => rfl, by simp, fun _ => rfl⟩, fun _ => (readTs_drop found).2⟩
  | enhanced =>
    obtain ⟨⟨enh, r⟩, -, read⟩ := exists_of_bind_ok read
    cases read
    exact ⟨rfl, ⟨fun _ => rfl, fun _ => rfl, by simp⟩, by simp⟩

variable {o0 : UInt8}

theorem readDeliver_ok (read : readDeliver o0 (b.drop 1) = .ok (m, rest)) :
    (m.oa.ton ≠ tonAlphanum → m.Shaped) ∧ m.ud.p.bytes.length ≤ smsUdMax ∧
      (m.scts.InRange ↔ stampInRange (slice b (1 + addrSize b 1 + 2) 7)) := by
  obtain ⟨⟨oa, r⟩, readOa, read⟩ := exists_of_bind_ok read
  obtain ⟨rfl, numeric⟩ := readAddr_drop readOa
  obtain ⟨⟨pid, r⟩, readPid, read⟩ := exists_of_bind_ok read
  obtain ⟨-, rfl, -⟩ := u8_drop readPid
  obtain ⟨⟨dcs, r⟩, readDcs, read⟩ := exists_of_bind_ok read
  obtain ⟨-, rfl, -⟩ := u8_drop readDcs
  obtain ⟨⟨scts, r⟩, readScts, read⟩ := exists_of_bind_ok read
  obtain ⟨⟨ud, r⟩, readTail, read⟩ := exists_of_bind_ok read
  cases read
  obtain ⟨agrees, short⟩ := readUd_ok readTail
  exact ⟨fun number => ⟨numeric number, agrees⟩, short, (readTs_drop readScts).2⟩

theorem readSubmit_ok (read : readSubmit o0 (b.drop 1) = .ok (m, rest)) :
    (m.da.ton ≠ tonAlphanum → m.Shaped) ∧ m.ud.p.bytes.length ≤ smsUdMax ∧
      m.vp.fmt = .ofBits (o0 >>> 3 &&& 0x03) ∧
      (m.vp.fmt = .absolute →
        (m.vp.abs.InRange ↔ stampInRange (slice b (2 + addrSize b 2 + 2) 7))) := by
  obtain ⟨⟨mr, r⟩, readMr, read⟩ := exists_of_bind_ok read
  obtain ⟨-, rfl, -⟩ := u8_drop readMr
  obtain ⟨⟨da, r⟩, readDa, read⟩ := exists_of_bind_ok read
  obtain ⟨rfl, numeric⟩ := readAddr_drop readDa
  obtain ⟨⟨pid, r⟩, readPid, read⟩ := exists_of_bind_ok read
  obtain ⟨-, rfl, -⟩ := u8_drop readPid
  obtain ⟨⟨dcs, r⟩, readDcs, read⟩ := exists_of_bind_ok read
  obtain ⟨-, rfl, -⟩ := u8_drop readDcs
  obtain ⟨⟨vp, r⟩, readPeriod, read⟩ := exists_of_bind_ok read
  obtain ⟨fmt, plain, stamp⟩ := readVp_drop readPeriod
  obtain ⟨⟨ud, r⟩, readTail, read⟩ := exists_of_bind_ok read
  cases read
  obtain ⟨agrees, short⟩ := readUd_ok readTail
  refine ⟨fun number => ⟨numeric number, plain, agrees⟩, short, fmt, ?_⟩
  intro absolute
  exact stamp (fmt ▸ absolute)

theorem readCommand_ok (read : readCommand o0 (b.drop 1) = .ok (m, rest)) :
    (m.da.ton ≠ tonAlphanum → m.da.Numeric) ∧ m.cd.bytes.length ≤ smsCdMax := by
  obtain ⟨⟨mr, r⟩, readMr, read⟩ := exists_of_bind_ok read
  obtain ⟨-, rfl, -⟩ := u8_drop readMr
  obtain ⟨⟨pid, r⟩, readPid, read⟩ := exists_of_bind_ok read
  obtain ⟨-, rfl, -⟩ := u8_drop readPid
  obtain ⟨⟨ct, r⟩, readCt, read⟩ := exists_of_bind_ok read
  obtain ⟨-, rfl, -⟩ := u8_drop readCt
  obtain ⟨⟨mn, r⟩, readMn, read⟩ := exists_of_bind_ok read
  obtain ⟨-, rfl, -⟩ := u8_drop readMn
  obtain ⟨⟨da, r⟩, readDa, read⟩ := exists_of_bind_ok read
  obtain ⟨-, numeric⟩ := readAddr_drop readDa
  obtain ⟨⟨cd, r⟩, readTail, read⟩ := exists_of_bind_ok read
  cases read
  obtain ⟨⟨cdl, r⟩, -, readTail⟩ := exists_of_bind_ok readTail
  dsimp only at readTail
  split at readTail
  · contradiction
  next short =>
    refine ⟨numeric, ?_⟩
    rw [(viewOf_ok readTail).2]
    exact Nat.not_lt.mp short

theorem readStatusTail_drop {tail : PiTail}
    (read : readStatusTail (b.drop off) = .ok (hasPi, pi, tail, rest)) :
    hasPi = decide (off < b.length) ∧ tail.ud.p.bytes.length ≤ smsUdMax ∧
      (hasPi = true → pi = b.getD off 0 ∧ tail.Matches pi) ∧
      (hasPi = false → pi = 0 ∧ tail = {}) := by
  cases shape : b.drop off with
  | nil =>
    rw [shape] at read
    cases read
    have past := List.drop_eq_nil_iff.mp shape
    exact ⟨by simp [past], Nat.zero_le _, by simp, fun _ => ⟨rfl, rfl⟩⟩
  | cons first r =>
    obtain ⟨value, -, inside⟩ := u8_drop (show u8 (b.drop off) = .ok (first, r) by rw [shape]; rfl)
    rw [shape] at read
    obtain ⟨⟨found, r'⟩, readTail, read⟩ := exists_of_bind_ok read
    cases read
    obtain ⟨agrees, short⟩ := readPiTail_ok readTail
    exact ⟨by simp [inside], short, fun _ => ⟨value, agrees⟩, by simp⟩

theorem readStatusReport_ok (read : readStatusReport o0 (b.drop 1) = .ok (m, rest)) :
    (m.ra.ton ≠ tonAlphanum → m.Shaped) ∧ m.tail.ud.p.bytes.length ≤ smsUdMax ∧
      (m.scts.InRange ↔ stampInRange (slice b (2 + addrSize b 2) 7)) ∧
      (m.dt.InRange ↔ stampInRange (slice b (2 + addrSize b 2 + 7) 7)) ∧
      m.hasPi = decide (2 + addrSize b 2 + 15 < b.length) ∧
      (m.hasPi = true → m.pi = b.getD (2 + addrSize b 2 + 15) 0) := by
  obtain ⟨⟨mr, r⟩, readMr, read⟩ := exists_of_bind_ok read
  obtain ⟨-, rfl, -⟩ := u8_drop readMr
  obtain ⟨⟨ra, r⟩, readRa, read⟩ := exists_of_bind_ok read
  obtain ⟨rfl, numeric⟩ := readAddr_drop readRa
  obtain ⟨⟨scts, r⟩, readScts, read⟩ := exists_of_bind_ok read
  obtain ⟨rfl, submitted⟩ := readTs_drop readScts
  obtain ⟨⟨dt, r⟩, readDt, read⟩ := exists_of_bind_ok read
  obtain ⟨rfl, discharged⟩ := readTs_drop readDt
  obtain ⟨⟨st, r⟩, readSt, read⟩ := exists_of_bind_ok read
  obtain ⟨-, rfl, -⟩ := u8_drop readSt
  obtain ⟨⟨hasPi, pi, tail, r⟩, readTail, read⟩ := exists_of_bind_ok read
  cases read
  obtain ⟨has, short, announced, bare⟩ := readStatusTail_drop readTail
  have place : 1 + 1 + addrSize b (1 + 1) + 7 + 7 + 1 = 2 + addrSize b 2 + 15 := by
    show 2 + addrSize b 2 + 7 + 7 + 1 = _
    omega
  rw [place] at has announced
  exact ⟨fun number => ⟨numeric number, fun set => (announced set).2, bare⟩, short, submitted,
    discharged, has, fun set => (announced set).1⟩

theorem readReport_ok (read : readReport submit o0 negative (b.drop 1) = .ok (m, rest)) :
    m.Shaped submit ∧ m.hasFcs = negative ∧ m.tail.ud.p.bytes.length ≤ smsUdMax ∧
      m.pi = b.getD (if negative then 2 else 1) 0 ∧
      (submit = true →
        (m.scts.InRange ↔ stampInRange (slice b (if negative then 3 else 2) 7))) := by
  obtain ⟨⟨fcs, r⟩, readFcs, read⟩ := exists_of_bind_ok read
  have absent := flaggedU8_ok readFcs
  have behind : r = b.drop (if negative then 2 else 1) := by
    cases negative with
    | false =>
      cases readFcs
      rfl
    | true => exact (u8_drop readFcs).2.1
  subst behind
  obtain ⟨⟨pi, r⟩, readPi, read⟩ := exists_of_bind_ok read
  obtain ⟨value, rfl, -⟩ := u8_drop readPi
  obtain ⟨⟨scts, r⟩, readScts, read⟩ := exists_of_bind_ok read
  obtain ⟨⟨tail, r⟩, readTail, read⟩ := exists_of_bind_ok read
  cases read
  obtain ⟨agrees, short⟩ := readPiTail_ok readTail
  have place : (if negative = true then 2 else 1) + 1 = if negative = true then 3 else 2 := by
    split <;> rfl
  cases submit with
  | false =>
    cases readScts
    exact ⟨⟨absent, rfl, fun _ => rfl, agrees⟩, rfl, short, value, by simp⟩
  | true =>
    obtain ⟨-, range⟩ := readTs_drop readScts
    rw [place] at range
    exact ⟨⟨absent, rfl, by simp, agrees⟩, rfl, short, value, fun _ => range⟩

end Readers

def TpduBody.addrs : TpduBody → List Addr
  | .deliver m => [m.oa]
  | .submit m => [m.da]
  | .statusReport m => [m.ra]
  | .command m => [m.da]
  | _ => []

/-- What the decoder guarantees of `u`, and what only the octets can tell. -/
structure DecodedFrom (b : Bytes) (dir : Int) (u : TpduBody) : Prop where
  shaped : (∀ a ∈ u.addrs, a.ton ≠ tonAlphanum) → u.Shaped
  short : u.Short
  failure : (u.type = .deliverReport ∨ u.type = .submitReport) → decide (2 ≤ dir) = u.hasFcs
  stamps : (∀ t ∈ u.stamps, t.InRange) ↔ ∀ off ∈ stampOffsets b dir, stampInRange (slice b off 7)
  indicators : (∀ pi ∈ u.indicators, pi &&& 0x78 = 0) ↔
    ∀ off ∈ indicatorOffsets b dir, b.getD off 0 &&& 0x78 = 0

theorem Vpf.ofBits_eq_absolute (o0 : UInt8) :
    Vpf.ofBits (o0 >>> 3 &&& 0x03) = .absolute ↔ o0 >>> 3 &&& 0x03 = 3 := by
  have every : ∀ o0 : UInt8, Vpf.ofBits (o0 >>> 3 &&& 0x03) = .absolute ↔ o0 >>> 3 &&& 0x03 = 3 :=
    forall_octet (by decide +kernel)
  exact every o0

theorem readBody_ok {o0 : UInt8} {r rest : Bytes} {dir : Int}
    (named : mtiType (o0 &&& 0x03) dir = some ty)
    (read : readBody ty o0 (decide (2 ≤ dir)) r = .ok (u, rest)) :
    u.type = ty ∧ DecodedFrom (o0 :: r) dir u := by
  have first : (o0 :: r).getD 0 0 = o0 := rfl
  rw [show r = (o0 :: r).drop 1 from rfl] at read
  cases ty with
  | deliver =>
    obtain ⟨⟨m, r'⟩, found, same⟩ := exists_of_map_ok read
    cases same
    obtain ⟨shaped, short, range⟩ := readDeliver_ok found
    refine ⟨rfl, ?_, short, by simp [TpduBody.type], ?_, ?_⟩
    · exact fun number => shaped (number m.oa List.mem_cons_self)
    · simpa [TpduBody.stamps, stampOffsets, named] using range
    · simp [TpduBody.indicators, indicatorOffsets, named]
  | submit =>
    obtain ⟨⟨m, r'⟩, found, same⟩ := exists_of_map_ok read
    cases same
    obtain ⟨shaped, short, fmt, range⟩ := readSubmit_ok found
    refine ⟨rfl, ?_, short, by simp [TpduBody.type], ?_, ?_⟩
    · exact fun number => shaped (number m.da List.mem_cons_self)
    · have bits := Vpf.ofBits_eq_absolute o0
      rw [← fmt] at bits
      by_cases absolute : m.vp.fmt = .absolute
      · simpa [TpduBody.stamps, stampOffsets, named, absolute, bits.mp absolute] using
          range absolute
      · simp [TpduBody.stamps, stampOffsets, named, absolute, mt bits.mpr absolute]
    · simp [TpduBody.indicators, indicatorOffsets, named]
  | statusReport =>
    obtain ⟨⟨m, r'⟩, found, same⟩ := exists_of_map_ok read
    cases same
    obtain ⟨shaped, short, submitted, discharged, has, value⟩ := readStatusReport_ok found
    refine ⟨rfl, ?_, short, by simp [TpduBody.type], ?_, ?_⟩
    · exact fun number => shaped (number m.ra List.mem_cons_self)
    · simp [TpduBody.stamps, stampOffsets, named, submitted, discharged]
    · by_cases more : 2 + addrSize (o0 :: r) 2 + 15 < (o0 :: r).length
      · rw [decide_eq_true more] at has
        simp only [TpduBody.indicators, indicatorOffsets, first, named, has, more, if_true,
          value has, List.forall_mem_singleton]
      · rw [decide_eq_false more] at has
        simp only [TpduBody.indicators, indicatorOffsets, first, named, has, more, if_false]
        simp
  | command =>
    obtain ⟨⟨m, r'⟩, found, same⟩ := exists_of_map_ok read
    cases same
    obtain ⟨numeric, short⟩ := readCommand_ok found
    refine ⟨rfl, ?_, short, by simp [TpduBody.type], ?_, ?_⟩
    · exact fun number => numeric (number m.da List.mem_cons_self)
    · simp [TpduBody.stamps, stampOffsets, named]
    · simp [TpduBody.indicators, indicatorOffsets, named]
  | deliverReport =>
    obtain ⟨⟨m, r'⟩, found, same⟩ := exists_of_map_ok read
    cases same
    obtain ⟨shaped, failure, short, value, -⟩ := readReport_ok found
    refine ⟨rfl, fun _ => shaped, short, fun _ => failure.symm, ?_, ?_⟩
    · simp [TpduBody.stamps, stampOffsets, named]
    · simp [TpduBody.indicators, indicatorOffsets, named, value]
  | submitReport =>
    obtain ⟨⟨m, r'⟩, found, same⟩ := exists_of_map_ok read
    cases same
    obtain ⟨shaped, failure, short, value, range⟩ := readReport_ok found
    refine ⟨rfl, fun _ => shaped, short, fun _ => failure.symm, ?_, ?_⟩
    · simp [TpduBody.stamps, stampOffsets, named, range rfl]
    · simp [TpduBody.indicators, indicatorOffsets, named, value]

theorem mtiType_some {mti : UInt8} {dir : Int} (named : mtiType mti dir = some ty) :
    mti = ty.mti ∧ dir % 2 = ty.dir.toNat := by
  unfold mtiType at named
  split at named
  next even =>
    split at named
    next mti => cases named; exact ⟨mti, even⟩
    split at named
    next mti => cases named; exact ⟨mti, even⟩
    split at named
    next mti => cases named; exact ⟨mti, even⟩
    contradiction
  next =>
    have odd : dir % 2 = 1 := by omega
    split at named
    next mti => cases named; exact ⟨mti, odd⟩
    split at named
    next mti => cases named; exact ⟨mti, odd⟩
    split at named
    next mti => cases named; exact ⟨mti, odd⟩
    contradiction

theorem smsTpduDecode_ok {b : Bytes} {dir : Int} (decoded : smsTpduDecode b dir = .ok (t, n)) :
    t.mti = t.u.type.mti ∧ t.dir = t.u.type.dir ∧ t.u.Travels dir ∧ DecodedFrom b dir t.u := by
  unfold smsTpduDecode at decoded
  split at decoded
  · contradiction
  next bounds =>
  split at decoded
  · contradiction
  next o0 r =>
  split at decoded
  · contradiction
  next ty named =>
  obtain ⟨⟨u, rest⟩, read, decoded⟩ := exists_of_bind_ok decoded
  cases decoded
  obtain ⟨rfl, origin⟩ := readBody_ok named read
  obtain ⟨mti, side⟩ := mtiType_some named
  refine ⟨mti, ?_, ⟨by omega, side, origin.failure⟩, origin⟩
  rw [side, Int.toNat_natCast, UInt8.ofNat_toNat]

theorem writeTs_ok {out written : Bytes} (done : writeTs cap out t = .ok written) : t.InRange := by
  obtain ⟨octets, encoded, -⟩ := exists_of_bind_ok done
  unfold smsTsEncode at encoded
  split at encoded
  · contradiction
  split at encoded
  next range => exact range
  · contradiction

theorem smsTpduEncode_stamps (encoded : smsTpduEncode cap t = .ok out) :
    ∀ ts ∈ t.u.stamps, ts.InRange := by
  unfold smsTpduEncode at encoded
  split at encoded
  · contradiction
  cases body : t.u with
  | deliver m =>
    rw [body] at encoded
    obtain ⟨_, -, encoded⟩ := exists_of_bind_ok encoded
    obtain ⟨_, -, encoded⟩ := exists_of_bind_ok encoded
    obtain ⟨_, stamp, -⟩ := exists_of_bind_ok encoded
    simpa [TpduBody.stamps] using writeTs_ok stamp
  | submit m =>
    rw [body] at encoded
    obtain ⟨_, -, encoded⟩ := exists_of_bind_ok encoded
    obtain ⟨_, -, encoded⟩ := exists_of_bind_ok encoded
    obtain ⟨_, -, encoded⟩ := exists_of_bind_ok encoded
    obtain ⟨_, period, -⟩ := exists_of_bind_ok encoded
    by_cases absolute : m.vp.fmt = .absolute
    · rw [writeVp, absolute] at period
      simpa [TpduBody.stamps, absolute] using writeTs_ok period
    · simp [TpduBody.stamps, absolute]
  | statusReport m =>
    rw [body] at encoded
    obtain ⟨_, -, encoded⟩ := exists_of_bind_ok encoded
    obtain ⟨_, -, encoded⟩ := exists_of_bind_ok encoded
    obtain ⟨_, submitted, encoded⟩ := exists_of_bind_ok encoded
    obtain ⟨_, discharged, -⟩ := exists_of_bind_ok encoded
    simpa [TpduBody.stamps] using ⟨writeTs_ok submitted, writeTs_ok discharged⟩
  | submitReport m =>
    rw [body] at encoded
    obtain ⟨_, -, encoded⟩ := exists_of_bind_ok encoded
    obtain ⟨_, -, encoded⟩ := exists_of_bind_ok encoded
    obtain ⟨_, stamp, -⟩ := exists_of_bind_ok encoded
    simpa [TpduBody.stamps] using writeTs_ok stamp
  | deliverReport m => simp [TpduBody.stamps]
  | command m => simp [TpduBody.stamps]

/-- A decoded TPDU with numeric addresses is encoded, and decoded to the same
again, exactly when its octets conform. -/
theorem smsTpduEncode_decoded_iff {b : Bytes} {dir : Int} {t : Tpdu} {n : Nat}
    (decoded : smsTpduDecode b dir = .ok (t, n))
    (numeric : ∀ a ∈ t.u.addrs, a.ton ≠ tonAlphanum) :
    (∃ out, smsTpduEncode smsTpduMax t = .ok out ∧
      ∃ k, smsTpduDecode out dir = .ok (t, k)) ↔ Conforms b dir := by
  obtain ⟨mti, side, travels, origin⟩ := smsTpduDecode_ok decoded
  have shaped := origin.shaped numeric
  have roundTrip := fun range => TpduBody.roundTrip shaped origin.short range t.mti t.dir
  unfold Conforms
  rw [← origin.stamps, ← origin.indicators, ← TpduBody.announced_eq_iff shaped]
  constructor
  · intro ⟨out, encoded, k, again⟩
    have range := smsTpduEncode_stamps encoded
    obtain ⟨other, same, read⟩ := roundTrip range
    obtain rfl : other = out := Except.ok.inj (same.symm.trans encoded)
    rw [read dir travels] at again
    refine ⟨range, ?_⟩
    have whole := congrArg (fun result : Tpdu × Nat => result.1.u) (Except.ok.inj again)
    exact whole
  · intro ⟨range, announced⟩
    obtain ⟨out, encoded, read⟩ := roundTrip range
    refine ⟨out, encoded, out.length, ?_⟩
    rw [read dir travels, announced, ← mti, ← side]

def deliverOctets (month : UInt8) : Bytes :=
  [0x00, 0x01, 0x91, 0xF1, 0x00, 0x00, 0x62, month, 0x30, 0x70, 0x41, 0x50, 0x80, 0x00]

def deliverIn (month : UInt8) : Tpdu where
  mti := 0
  dir := 1
  u := .deliver { oa := ⟨1, 1, [0x31]⟩, scts := ⟨2026, month, 3, 7, 14, 5, 8⟩ }

theorem smsTpduEncode_decoded_august :
    smsTpduDecode (deliverOctets 0x80) 1 = .ok (deliverIn 8, 14) ∧
      ∃ out, smsTpduEncode smsTpduMax (deliverIn 8) = .ok out ∧
        ∃ k, smsTpduDecode out 1 = .ok (deliverIn 8, k) := by
  have decoded : smsTpduDecode (deliverOctets 0x80) 1 = .ok (deliverIn 8, 14) := by
    decide
  have conforms : Conforms (deliverOctets 0x80) 1 := by decide
  exact ⟨decoded, (smsTpduEncode_decoded_iff decoded (by decide)).mpr conforms⟩

theorem smsTpduEncode_thirteenth_month :
    smsTpduDecode (deliverOctets 0x31) 1 = .ok (deliverIn 13, 14) ∧
      smsTpduEncode smsTpduMax (deliverIn 13) = .error .inval := by
  constructor <;> decide

end Pro2Call.Sms

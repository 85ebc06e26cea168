import Pro2Call.Sms.Calendar
import Pro2Call.Sms.TpduReencode

namespace Pro2Call.Sms

open Pro2Call.Data

/-! A SUBMIT turned into the DELIVER that carries it on. -/

def addrSetLoop : Nat → Bytes → Except SmsErr Bytes
  | _, [] => .ok []
  | k, c :: num =>
    if smsAddrMaxDigits ≤ k then .error .length
    else if smsBcdNibble c = 0xFF then .error .inval
    else do
      let digits ← addrSetLoop (k + 1) num
      .ok (c :: digits)

def tonUnknown : UInt8 := 0
def tonInternational : UInt8 := 1
def npiIsdn : UInt8 := 1

/-- `num` in front of its NUL. -/
def smsAddrSet (num : Bytes) (ton : UInt8) : Except SmsErr Addr := do
  let plus := num.head? == some 0x2B
  let digits ← addrSetLoop 0 (if plus then num.tail else num)
  .ok ⟨if plus then tonInternational else ton, npiIsdn, digits⟩

/-- A failure is thrown under the name of the operation. -/
def check (op : String) (result : Except SmsErr α) : Except (String × SmsErr) α :=
  result.mapError fun rc => (op, rc)

def deliverFromSubmit (tpdu oa : Bytes) (scts now tz : Int) (more : Bool) :
    Except (String × SmsErr) Bytes := do
  let (submitted, _) ← check "deliver_from_submit" (smsTpduDecode tpdu 0)
  match submitted.u with
  | .submit s =>
    let originator ← check "originator" (smsAddrSet (oa.takeWhile (· ≠ 0)) tonUnknown)
    check "tpdu encode" (smsTpduEncode smsTpduMax
      { mti := 0
        dir := 1
        u := .deliver
          { mms := !more
            rp := s.rp
            sri := s.srr
            udhi := s.udhi
            oa := originator
            pid := s.pid
            dcs := s.dcs
            ud := s.ud
            scts := smsTsFromUnix (if scts ≠ 0 then scts else now) tz } })
  | _ => .error ("deliver_from_submit", .mti)

def yearDays (year : Nat) : Nat :=
  if year % 4 = 0 ∧ (year % 100 ≠ 0 ∨ year % 400 = 0) then 366 else 365

def daysBefore : Nat → Nat
  | 0 => 0
  | years + 1 => daysBefore years + yearDays (1970 + years)

def InYear (localTime : Int) (years : Nat) : Prop :=
  daysBefore years * 86400 ≤ localTime ∧ localTime < daysBefore (years + 1) * 86400

theorem daysBefore_mono : Monotone daysBefore :=
  monotone_nat_of_le_succ fun _ => Nat.le_add_right _ _

theorem InYear.century (inside : InYear localTime years)
    (last : years < 100) : 0 ≤ localTime ∧ localTime < 36525 * 86400 := by
  have century : daysBefore 100 = 36525 := by decide
  have bound : daysBefore (years + 1) ≤ daysBefore 100 := daysBefore_mono last
  obtain ⟨start, stop⟩ := inside
  omega

theorem smsTsFromUnix_inRange (inside : InYear (localSecs secs tzQh) years) (last : years < 100) :
    (smsTsFromUnix secs tzQh).InRange := by
  obtain ⟨least, most⟩ := inside.century last
  obtain ⟨rem, split, short, date⟩ := smsTsFromUnix_eq secs tzQh
  obtain ⟨y, m, d, civil, -, range, starts, ends⟩ :=
    daysFromCivil_civilFromDays (localSecs secs tzQh / 86400)
  have epoch : yearStart 1970 = 0 := rfl
  have century : yearStart 2070 = 36525 := rfl
  have first : 1970 < y + 1 := lt_of_yearStart_lt (by omega)
  have final : y < 2070 := lt_of_yearStart_lt (by omega)
  rw [date, civil]
  dsimp only
  refine ⟨?_, ?_, ?_, ?_, ?_, ?_, ?_⟩
  · rw [Int16.toInt_ofInt_of_le (by omega) (by omega)]
    dsimp only
    omega
  · exact (ofNat_le_iff (by omega) 12).mpr range.2.1
  · exact (ofNat_le_iff (by omega) 31).mpr range.2.2.2
  · exact (ofNat_le_iff (by omega) 23).mpr (show _ ≤ 23 by omega)
  · exact (ofNat_le_iff (by omega) 59).mpr (show _ ≤ 59 by omega)
  · exact (ofNat_le_iff (by omega) 59).mpr (show _ ≤ 59 by omega)
  · dsimp only
    omega

def canonicalDigit (c : UInt8) : UInt8 := smsBcdChar (smsBcdNibble c)

theorem canonicalDigit_symbol : ∀ c : UInt8, smsBcdNibble c ≠ 0xFF →
    canonicalDigit c ∈ bcdSymbols ∧ smsBcdNibble (canonicalDigit c) = smsBcdNibble c :=
  forall_octet (by decide +kernel)

theorem addrSetLoop_ok (set : addrSetLoop k num = .ok digits) (room : k ≤ smsAddrMaxDigits) :
    k + digits.length ≤ smsAddrMaxDigits ∧ ∀ c ∈ digits, smsBcdNibble c ≠ 0xFF := by
  induction num generalizing k digits with
  | nil =>
    cases set
    exact ⟨room, by simp⟩
  | cons c num ih =>
    rw [addrSetLoop] at set
    split_ifs at set with full bad
    obtain ⟨rest, inner, done⟩ := exists_of_bind_ok set
    cases done
    obtain ⟨count, digits⟩ := ih inner (Nat.not_le.mp full)
    refine ⟨by rw [List.length_cons]; omega, ?_⟩
    intro d member
    rcases List.mem_cons.mp member with rfl | member
    · exact bad
    · exact digits d member

theorem packDigits_canonical (symbols : ∀ c ∈ digits, smsBcdNibble c ≠ 0xFF) :
    packDigits (digits.map canonicalDigit) = packDigits digits := by
  have same : ∀ c ∈ digits, smsBcdNibble (canonicalDigit c) = smsBcdNibble c := fun c member =>
    (canonicalDigit_symbol c (symbols c member)).2
  clear symbols
  induction digits using packDigits.induct with
  | case1 => rfl
  | case2 c | case3 c =>
    simp only [List.map_cons, List.map_nil, packDigits, same c List.mem_cons_self]
  | case4 c d rest | case5 c d rest => simp_all [packDigits]
  | case6 c d rest first second ih => simp_all [packDigits]

theorem smsAddrSet_encodes (set : smsAddrSet num tonUnknown = .ok a) :
    ∃ b : Addr, b.Numeric ∧ ∀ cap, smsAddrEncode cap a = smsAddrEncode cap b := by
  obtain ⟨digits, looped, done⟩ := exists_of_bind_ok set
  cases done
  obtain ⟨count, symbols⟩ := addrSetLoop_ok looped (Nat.zero_le _)
  rw [Nat.zero_add] at count
  have kind : ∀ plus : Bool, (if plus = true then tonInternational else tonUnknown) ≤ 7 ∧
      (if plus = true then tonInternational else tonUnknown) ≠ tonAlphanum := by decide
  generalize (num.head? == some 0x2B) = plus at looped ⊢
  have isdn : npiIsdn ≤ 15 := by decide
  refine ⟨⟨if plus then tonInternational else tonUnknown, npiIsdn, digits.map canonicalDigit⟩,
    ⟨(kind plus).1, (kind plus).2, isdn, ?_, ?_⟩, ?_⟩
  · rw [List.length_map]
    exact count
  · intro c member
    obtain ⟨d, known, rfl⟩ := List.mem_map.mp member
    exact (canonicalDigit_symbol d (symbols d known)).1
  · intro cap
    simp only [smsAddrEncode, List.length_map, packDigits_canonical symbols, if_neg (kind plus).2]

theorem readSubmit_ud (read : readSubmit o0 r = .ok (m, rest)) :
    m.ud.Matches m.dcs ∧ m.ud.p.bytes.length ≤ smsUdMax := by
  obtain ⟨_, -, read⟩ := exists_of_bind_ok read
  obtain ⟨_, -, read⟩ := exists_of_bind_ok read
  obtain ⟨_, -, read⟩ := exists_of_bind_ok read
  obtain ⟨_, -, read⟩ := exists_of_bind_ok read
  obtain ⟨_, -, read⟩ := exists_of_bind_ok read
  obtain ⟨_, readData, read⟩ := exists_of_bind_ok read
  cases read
  exact readUd_ok readData

theorem smsTpduDecode_submit {dir : Int} {mti side : UInt8}
    (decoded : smsTpduDecode b dir = .ok (⟨mti, side, .submit s⟩, n)) :
    smsTpduDecode b 0 = .ok (⟨mti, side, .submit s⟩, n) ∧
      s.ud.Matches s.dcs ∧ s.ud.p.bytes.length ≤ smsUdMax := by
  unfold smsTpduDecode at decoded
  split at decoded
  · contradiction
  next bounds =>
  split at decoded
  · contradiction
  next o0 r =>
  split at decoded
  · contradiction
  next ty named =>
  obtain ⟨⟨u, rest⟩, read, decoded⟩ := exists_of_bind_ok decoded
  cases decoded
  obtain ⟨rfl, -⟩ := readBody_ok named read
  obtain ⟨mti, side⟩ := mtiType_some named
  have even : dir % 2 = 0 := side
  obtain ⟨⟨m, left⟩, readM, done⟩ := exists_of_map_ok read
  cases done
  have again : mtiType (o0 &&& 0x03) 0 = some .submit := mti ▸ mtiType_mti .submit rfl
  refine ⟨?_, readSubmit_ud readM⟩
  rw [even]
  simp only [smsTpduDecode, again, readBody, readM]
  rfl

/-- Whatever the decoder takes for a SUBMIT goes on as a DELIVER with the same
user data, at any time of the years 1970 to 2069. -/
theorem deliverFromSubmit_delivers (tpdu oa : Bytes) (scts now tz : Int) (more : Bool) (dir : Int)
    (mti side : UInt8) (s : Submit) (n : Nat)
    (submitted : smsTpduDecode tpdu dir = .ok (⟨mti, side, .submit s⟩, n)) (a : Addr)
    (originator : smsAddrSet (oa.takeWhile (· ≠ 0)) tonUnknown = .ok a) (years : Nat)
    (last : years < 100)
    (inside : InYear (localSecs (if scts ≠ 0 then scts else now) tz) years) :
    ∃ out m, deliverFromSubmit tpdu oa scts now tz more = .ok out ∧
      smsTpduDecode out 1 = .ok (⟨0, 1, .deliver m⟩, out.length) ∧ m.ud = s.ud ∧
        m.dcs = s.dcs ∧ m.pid = s.pid ∧ m.udhi = s.udhi ∧ m.rp = s.rp := by
  obtain ⟨decoded, agrees, short⟩ := smsTpduDecode_submit submitted
  obtain ⟨b, numeric, encodes⟩ := smsAddrSet_encodes originator
  have range := smsTsFromUnix_inRange inside last
  let m : Deliver :=
    { mms := !more
      rp := s.rp
      sri := s.srr
      udhi := s.udhi
      oa := b
      pid := s.pid
      dcs := s.dcs
      ud := s.ud
      scts := smsTsFromUnix (if scts ≠ 0 then scts else now) tz }
  obtain ⟨out, encoded, back⟩ := TpduBody.roundTrip (u := .deliver m) ⟨numeric, agrees⟩ short
    (List.forall_mem_singleton.mpr range) 0 1
  have same : smsTpduEncode smsTpduMax ⟨0, 1, .deliver { m with oa := a }⟩ = .ok out := by
    rw [← encoded]
    show writeDeliver smsTpduMax { m with oa := a } = writeDeliver smsTpduMax m
    simp only [writeDeliver, writeAddr, encodes]
    rfl
  have travels : (TpduBody.deliver m).Travels 1 := ⟨by decide, rfl, fun _ => rfl⟩
  refine ⟨out, m, ?_, back 1 travels, rfl, rfl, rfl, rfl, rfl⟩
  rw [deliverFromSubmit, decoded]
  show (check "originator" (smsAddrSet (oa.takeWhile (· ≠ 0)) tonUnknown) >>= fun originator =>
    check "tpdu encode" (smsTpduEncode smsTpduMax ⟨0, 1, .deliver { m with oa := originator }⟩)) = _
  rw [originator]
  exact congrArg (check "tpdu encode") same

def enhancedSubmit : Bytes :=
  [0x09, 0x07, 0x04, 0xD0, 0xC1, 0x61, 0x00, 0x00, 0x40, 0x05, 0, 0, 0, 0, 0,
    0x05, 0xE8, 0x32, 0x9B, 0xFD, 0x06]

theorem deliverFromSubmit_delivers_enhanced : ∃ s out m,
    smsTpduDecode enhancedSubmit 0 = .ok (⟨1, 0, .submit s⟩, 21) ∧ s.vp.fmt = .enhanced ∧
      deliverFromSubmit enhancedSubmit [0x2B, 0x31, 0x32, 0x41] 3155759999 0 0 true = .ok out ∧
        smsTpduDecode out 1 = .ok (⟨0, 1, .deliver m⟩, out.length) ∧ m.ud = s.ud ∧
          m.dcs = s.dcs ∧ m.pid = s.pid ∧ m.udhi = s.udhi ∧ m.rp = s.rp := by
  let s : Submit :=
    { mr := 7
      da := { ton := 5, digits := [0x41, 0x43] }
      vp := { fmt := .enhanced, enh := #v[0x40, 0x05, 0, 0, 0, 0, 0] }
      ud := { udl := 5, p := { bytes := [0xE8, 0x32, 0x9B, 0xFD, 0x06] } } }
  have decoded : smsTpduDecode enhancedSubmit 0 = .ok (⟨1, 0, .submit s⟩, 21) := by decide
  have originator : smsAddrSet ([0x2B, 0x31, 0x32, 0x41].takeWhile (· ≠ 0)) tonUnknown =
      .ok ⟨tonInternational, npiIsdn, [0x31, 0x32, 0x41]⟩ := by decide
  have evening : InYear (localSecs (if (3155759999 : Int) ≠ 0 then 3155759999 else 0) 0) 99 := by
    unfold InYear
    decide
  obtain ⟨out, m, delivered, fields⟩ := deliverFromSubmit_delivers enhancedSubmit
    [0x2B, 0x31, 0x32, 0x41] 3155759999 0 0 true 0 1 0 s 21 decoded _ originator 99
    (by decide) evening
  exact ⟨s, out, m, decoded, rfl, delivered, fields⟩

end Pro2Call.Sms

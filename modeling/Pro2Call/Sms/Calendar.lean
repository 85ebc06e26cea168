import Pro2Call.Sms.Timestamp

namespace Pro2Call.Sms

/-! Timestamps as seconds, and validity periods as codes. -/

def daysFromCivil (y : Int) (m d : Nat) : Int :=
  let y := if m ≤ 2 then y - 1 else y
  let era := (if y ≥ 0 then y else y - 399).tdiv 400
  let yoe := (y - era * 400).toNat
  let doy := (153 * (if 2 < m then m - 3 else m + 9) + 2) / 5 + d - 1
  let doe := yoe * 365 + yoe / 4 - yoe / 100 + doy
  era * 146097 + doe - 719468

def civilFromDays (z : Int) : Int × Nat × Nat :=
  let z := z + 719468
  let era := (if z ≥ 0 then z else z - 146096).tdiv 146097
  let doe := (z - era * 146097).toNat
  let yoe := (doe - doe / 1460 + doe / 36524 - doe / 146096) / 365
  let doy := doe - (365 * yoe + yoe / 4 - yoe / 100)
  let mp := (5 * doy + 2) / 153
  let d := doy - (153 * mp + 2) / 5 + 1
  let m := if mp < 10 then mp + 3 else mp - 9
  (yoe + era * 400 + (if m ≤ 2 then 1 else 0), m, d)

def smsTsUnix (t : Ts) : Int :=
  if t.mon < 1 ∨ 12 < t.mon ∨ t.day < 1 ∨ 31 < t.day ∨ 23 < t.hour ∨ 59 < t.min ∨ 59 < t.sec then
    -1
  else
    let days := daysFromCivil t.year t.mon.toNat t.day.toNat
    let secs := days * 86400 + t.hour.toNat * 3600 + t.min.toNat * 60 + t.sec.toNat
    secs - t.tzQh * 900

def localSecs (secs tzQh : Int) : Int := secs + max (-48) (min 48 tzQh) * 900

def smsTsFromUnix (secs tzQh : Int) : Ts :=
  let localTime := localSecs secs tzQh
  let rem := localTime.tmod 86400
  let days := if rem < 0 then localTime.tdiv 86400 - 1 else localTime.tdiv 86400
  let rem := if rem < 0 then (rem + 86400).toNat else rem.toNat
  let (y, m, d) := civilFromDays days
  { year := (Int16.ofInt y).toInt
    mon := UInt8.ofNat m
    day := UInt8.ofNat d
    hour := UInt8.ofNat (rem / 3600)
    min := UInt8.ofNat (rem % 3600 / 60)
    sec := UInt8.ofNat (rem % 60)
    tzQh := max (-48) (min 48 tzQh) }

def leapYear (y : Int) : Bool := y % 4 = 0 ∧ (y % 100 ≠ 0 ∨ y % 400 = 0)

def monthDays (y : Int) (m : Nat) : Nat :=
  if m = 2 then if leapYear y then 29 else 28
  else if m = 4 ∨ m = 6 ∨ m = 9 ∨ m = 11 then 30 else 31

/-- A date of the calendar in a year of 16 bits, a time of the day and a zone. -/
structure Ts.Calendar (t : Ts) : Prop where
  year : -32768 ≤ t.year ∧ t.year ≤ 32767
  mon : 1 ≤ t.mon.toNat ∧ t.mon.toNat ≤ 12
  day : 1 ≤ t.day.toNat ∧ t.day.toNat ≤ monthDays t.year t.mon.toNat
  time : t.hour.toNat ≤ 23 ∧ t.min.toNat ≤ 59 ∧ t.sec.toNat ≤ 59
  zone : -48 ≤ t.tzQh ∧ t.tzQh ≤ 48

/-- The days before the year that begins with March of `y`, from March of the year 0 on. -/
def marchDays (y : Int) : Int := 365 * y + y / 4 - y / 100 + y / 400

def yearStart (y : Int) : Int := marchDays (y - 1) + 306 - 719468

def marchYear (y : Int) (m : Nat) : Int := if m ≤ 2 then y - 1 else y

def dayOfYear (m d : Nat) : Nat := (153 * (if 2 < m then m - 3 else m + 9) + 2) / 5 + d - 1

def civilOf (y : Int) (doy : Nat) : Int × Nat × Nat :=
  let mp := (5 * doy + 2) / 153
  (if mp < 10 then y else y + 1, if mp < 10 then mp + 3 else mp - 9, doy - (153 * mp + 2) / 5 + 1)

theorem tdiv_floor (z : Int) {n : Int} (positive : 0 < n) :
    (if z ≥ 0 then z else z - (n - 1)).tdiv n = z / n := by
  split
  next front => exact Int.tdiv_eq_ediv_of_nonneg front
  next behind =>
    have split := Int.emod_add_mul_ediv z n
    have least := Int.emod_nonneg z (Int.ne_of_gt positive)
    have most := Int.emod_lt_of_pos z positive
    have mirrored : n - 1 - z = n - 1 - z % n + n * -(z / n) := by
      rw [Int.mul_neg]
      omega
    rw [← Int.neg_sub (n - 1) z, Int.neg_tdiv, Int.tdiv_eq_ediv_of_nonneg (by omega), mirrored,
      Int.add_mul_ediv_left _ _ (Int.ne_of_gt positive),
      Int.ediv_eq_zero_of_lt (by omega) (by omega)]
    omega

theorem marchDays_mono (le : y ≤ z) : marchDays y ≤ marchDays z := by
  have step : ∀ y, marchDays y ≤ marchDays (y + 1) := by
    intro y
    unfold marchDays
    omega
  exact monotone_int_of_le_succ step le

theorem yearStart_mono (le : y ≤ z) : yearStart y ≤ yearStart z := by
  have days : marchDays (y - 1) ≤ marchDays (z - 1) := marchDays_mono (by omega)
  unfold yearStart
  omega

theorem lt_of_marchDays_lt (less : marchDays y < marchDays z) : y < z := by
  refine Int.not_le.mp fun le => ?_
  have days := marchDays_mono le
  omega

theorem lt_of_yearStart_lt (less : yearStart y < yearStart z) : y < z := by
  refine Int.not_le.mp fun le => ?_
  have days := yearStart_mono le
  omega

theorem marchDays_era (era : Int) {yoe : Nat} (inEra : yoe < 400) :
    marchDays (yoe + era * 400) = era * 146097 + marchDays yoe ∧
      marchDays (yoe + era * 400 + 1) = era * 146097 + marchDays (yoe + 1) := by
  unfold marchDays
  omega

theorem yearOfEra_spec {doe yoe : Nat} (inEra : doe < 146097)
    (year : yoe = (doe - doe / 1460 + doe / 36524 - doe / 146096) / 365) :
    yoe < 400 ∧ marchDays yoe ≤ doe ∧ doe < marchDays (yoe + 1) := by
  unfold marchDays
  by_cases last : doe = 146096
  · omega
  obtain ⟨century, isCentury⟩ : ∃ century, doe / 36524 = century := ⟨_, rfl⟩
  obtain ⟨cycles, isCycles⟩ : ∃ cycles, doe / 1460 = cycles := ⟨_, rfl⟩
  have inside : doe / 146096 = 0 := by omega
  rw [inside, isCentury, isCycles, Nat.sub_zero] at year
  have centuries : yoe / 100 = century := by omega
  have four : century = 0 ∨ century = 1 ∨ century = 2 ∨ century = 3 := by omega
  have leaps : cycles = yoe / 4 ∨ cycles = yoe / 4 + 1 := by omega
  have leap : ((yoe : Int) + 1) / 4 = yoe / 4 ∧ yoe % 4 ≠ 3 ∨
      ((yoe : Int) + 1) / 4 = yoe / 4 + 1 ∧ yoe % 4 = 3 := by
    omega
  have turn : ((yoe : Int) + 1) / 100 = century ∧ yoe % 100 ≠ 99 ∨
      ((yoe : Int) + 1) / 100 = century + 1 ∧ yoe % 100 = 99 := by
    omega
  obtain ⟨next, _⟩ | ⟨next, _⟩ := leap
  all_goals
    rw [next]
    obtain ⟨within, _⟩ | ⟨behind, _⟩ := turn
    · omega
    · omega

theorem civilFromDays_spec (z : Int) : ∃ (y : Int) (doy : Nat),
    marchDays y + doy = z + 719468 ∧ z + 719468 < marchDays (y + 1) ∧
      civilFromDays z = civilOf y doy := by
  obtain ⟨doe, isDoe⟩ : ∃ doe : Nat, (z + 719468) % 146097 = doe :=
    Int.eq_ofNat_of_zero_le (Int.emod_nonneg _ (by decide))
  obtain ⟨yoe, isYoe⟩ : ∃ yoe, (doe - doe / 1460 + doe / 36524 - doe / 146096) / 365 = yoe :=
    ⟨_, rfl⟩
  obtain ⟨inEra, first, last⟩ := yearOfEra_spec (by omega) isYoe.symm
  obtain ⟨starts, ends⟩ := marchDays_era ((z + 719468) / 146097) inEra
  have doeOf : z + 719468 - (z + 719468) / 146097 * 146097 = doe := by omega
  have counted : marchDays yoe = 365 * yoe + yoe / 4 - yoe / 100 := by
    unfold marchDays
    omega
  obtain ⟨doy, isDoy⟩ : ∃ doy, doe - (365 * yoe + yoe / 4 - yoe / 100) = doy := ⟨_, rfl⟩
  refine ⟨yoe + (z + 719468) / 146097 * 400, doy, by omega, by omega, ?_⟩
  simp only [civilFromDays, civilOf]
  rw [show (146096 : Int) = 146097 - 1 from rfl, tdiv_floor (z + 719468) (by decide), doeOf,
    Int.toNat_natCast, isYoe, isDoy]
  split
  · rw [if_neg (by omega), Int.add_zero]
  · rw [if_pos (by omega)]

theorem daysFromCivil_eq (y : Int) (m d : Nat) :
    daysFromCivil y m d = marchDays (marchYear y m) + dayOfYear m d - 719468 := by
  unfold daysFromCivil marchYear dayOfYear
  generalize (if m ≤ 2 then y - 1 else y) = year
  generalize (153 * (if 2 < m then m - 3 else m + 9) + 2) / 5 + d - 1 = doy
  obtain ⟨yoe, isYoe⟩ : ∃ yoe : Nat, year % 400 = yoe :=
    Int.eq_ofNat_of_zero_le (Int.emod_nonneg _ (by decide))
  have whole : year = yoe + year / 400 * 400 := by omega
  have inEra : yoe < 400 := by omega
  have starts := (marchDays_era (year / 400) inEra).1
  rw [← whole] at starts
  have yearOf : year - year / 400 * 400 = yoe := by omega
  dsimp only
  rw [starts, show (399 : Int) = 400 - 1 from rfl, tdiv_floor year (by decide), yearOf,
    Int.toNat_natCast]
  unfold marchDays
  omega

theorem marchYear_civilOf (short : doy ≤ 365) :
    marchYear (civilOf y doy).1 (civilOf y doy).2.1 = y ∧
      dayOfYear (civilOf y doy).2.1 (civilOf y doy).2.2 = doy := by
  obtain ⟨mp, isMp⟩ : ∃ mp, (5 * doy + 2) / 153 = mp := ⟨_, rfl⟩
  simp only [civilOf, isMp, marchYear, dayOfYear]
  split
  next before =>
    rw [if_neg (by omega), if_pos (by omega), Nat.add_sub_cancel]
    omega
  next behind =>
    rw [if_pos (by omega), if_neg (by omega), Nat.sub_add_cancel (by omega)]
    omega

theorem civilOf_dayOfYear (month : 1 ≤ m ∧ m ≤ 12) (day : 1 ≤ d ∧ d ≤ monthDays y m) :
    civilOf (marchYear y m) (dayOfYear m d) = (y, m, d) ∧
      marchDays (marchYear y m) + dayOfYear m d < marchDays (marchYear y m + 1) := by
  obtain ⟨mp, isMp, march⟩ : ∃ mp, (if 2 < m then m - 3 else m + 9) = mp ∧
      (2 < m ∧ m = mp + 3 ∧ marchYear y m = y ∨ m ≤ 2 ∧ m + 9 = mp ∧ marchYear y m = y - 1) := by
    refine ⟨_, rfl, ?_⟩
    unfold marchYear
    split <;> omega
  have length : d ≤ (153 * (mp + 1) + 2) / 5 - (153 * mp + 2) / 5 ∧
      (mp = 11 → d ≤ 28 ∨ leapYear y = true ∧ d = 29) := by
    unfold monthDays at day
    split_ifs at day with february leap thirty
    · refine ⟨by omega, fun _ => ?_⟩
      by_cases last : d = 29
      · exact .inr ⟨leap, last⟩
      · exact .inl (by omega)
    · omega
    · omega
    · have long : mp = 0 ∨ mp = 2 ∨ mp = 4 ∨ mp = 5 ∨ mp = 7 ∨ mp = 9 ∨ mp = 10 := by omega
      rcases long with rfl | rfl | rfl | rfl | rfl | rfl | rfl <;> omega
  have place : (5 * dayOfYear m d + 2) / 153 = mp := by
    rw [dayOfYear, isMp]
    omega
  simp only [civilOf, place, Prod.mk.injEq]
  rw [dayOfYear, isMp]
  rcases march with ⟨late, isM, year⟩ | ⟨early, isM, year⟩
  · rw [if_pos (by omega), if_pos (by omega), year]
    unfold marchDays
    omega
  · rw [if_neg (by omega), if_neg (by omega), year]
    simp only [leapYear, decide_eq_true_eq] at length
    unfold marchDays
    omega

theorem daysFromCivil_civilFromDays (z : Int) : ∃ (y : Int) (m d : Nat),
    civilFromDays z = (y, m, d) ∧ daysFromCivil y m d = z ∧
      (1 ≤ m ∧ m ≤ 12 ∧ 1 ≤ d ∧ d ≤ 31) ∧ yearStart y ≤ z ∧ z < yearStart (y + 1) := by
  obtain ⟨y, doy, same, last, civil⟩ := civilFromDays_spec z
  have short : doy ≤ 365 := by
    unfold marchDays at same last
    omega
  obtain ⟨year, day⟩ := marchYear_civilOf (y := y) short
  refine ⟨(civilOf y doy).1, (civilOf y doy).2.1, (civilOf y doy).2.2, civil, ?_, ?_⟩
  · rw [daysFromCivil_eq, year, day]
    omega
  simp only [civilOf, yearStart]
  split
  · have before : marchDays (y - 1) + 306 ≤ marchDays y := by
      unfold marchDays
      omega
    rw [Int.add_sub_cancel]
    omega
  · rw [Int.add_sub_cancel, Int.add_sub_cancel]
    omega

theorem civilFromDays_daysFromCivil (month : 1 ≤ m ∧ m ≤ 12)
    (day : 1 ≤ d ∧ d ≤ monthDays y m) : civilFromDays (daysFromCivil y m d) = (y, m, d) := by
  obtain ⟨date, within⟩ := civilOf_dayOfYear month day
  have days := daysFromCivil_eq y m d
  obtain ⟨year, doy, same, last, civil⟩ := civilFromDays_spec (daysFromCivil y m d)
  have before : year < marchYear y m + 1 := lt_of_marchDays_lt (by omega)
  have behind : marchYear y m < year + 1 := lt_of_marchDays_lt (by omega)
  obtain rfl : year = marchYear y m := by omega
  obtain rfl : doy = dayOfYear m d := by omega
  rw [civil, date]

theorem smsTsFromUnix_eq (secs tzQh : Int) : ∃ rem : Nat,
    localSecs secs tzQh = localSecs secs tzQh / 86400 * 86400 + rem ∧ rem < 86400 ∧
      smsTsFromUnix secs tzQh =
        let (y, m, d) := civilFromDays (localSecs secs tzQh / 86400)
        ⟨(Int16.ofInt y).toInt, .ofNat m, .ofNat d, .ofNat (rem / 3600), .ofNat (rem % 3600 / 60),
          .ofNat (rem % 60), max (-48) (min 48 tzQh)⟩ := by
  unfold smsTsFromUnix
  generalize localSecs secs tzQh = n
  have split := Int.tdiv_mul_add_tmod n 86400
  have least : -86400 < n.tmod 86400 := Int.lt_tmod_of_pos n (by decide)
  have most : n.tmod 86400 < 86400 := Int.tmod_lt_of_pos n (by decide)
  dsimp only
  split
  · refine ⟨_, ?_, ?_, by rw [show n.tdiv 86400 - 1 = n / 86400 by omega]⟩ <;> omega
  · refine ⟨_, ?_, ?_, by rw [show n.tdiv 86400 = n / 86400 by omega]⟩ <;> omega

theorem smsTsUnix_fromUnix (year : yearStart (-32768) * 86400 ≤ localSecs secs tzQh ∧
      localSecs secs tzQh < yearStart 32768 * 86400) :
    smsTsUnix (smsTsFromUnix secs tzQh) = secs := by
  obtain ⟨rem, split, short, date⟩ := smsTsFromUnix_eq secs tzQh
  obtain ⟨y, m, d, civil, back, range, starts, ends⟩ :=
    daysFromCivil_civilFromDays (localSecs secs tzQh / 86400)
  have first : -32768 < y + 1 := lt_of_yearStart_lt (by omega)
  have last : y < 32768 := lt_of_yearStart_lt (by omega)
  rw [date, civil]
  unfold smsTsUnix
  simp only [UInt8.lt_iff_toNat_lt, UInt8.reduceToNat, UInt8.toNat_ofNat']
  rw [Nat.mod_eq_of_lt (a := m) (by omega), Nat.mod_eq_of_lt (a := d) (by omega),
    Nat.mod_eq_of_lt (a := rem / 3600) (by omega),
    Nat.mod_eq_of_lt (a := rem % 3600 / 60) (by omega), Nat.mod_eq_of_lt (a := rem % 60) (by omega),
    Int16.toInt_ofInt_of_le (by omega) (by omega), if_neg (by omega), back]
  have zoned : localSecs secs tzQh = secs + max (-48) (min 48 tzQh) * 900 := rfl
  omega

theorem smsTsFromUnix_unix {t : Ts} (calendar : t.Calendar) :
    smsTsFromUnix (smsTsUnix t) t.tzQh = t := by
  obtain ⟨year, month, day, time, zone⟩ := calendar
  have civil := civilFromDays_daysFromCivil month day
  obtain ⟨rem, split, short, date⟩ := smsTsFromUnix_eq (smsTsUnix t) t.tzQh
  have most : monthDays t.year t.mon.toNat ≤ 31 := by
    unfold monthDays
    split_ifs <;> omega
  have seconds : localSecs (smsTsUnix t) t.tzQh =
      daysFromCivil t.year t.mon.toNat t.day.toNat * 86400 +
        (t.hour.toNat * 3600 + t.min.toNat * 60 + t.sec.toNat) := by
    unfold smsTsUnix localSecs
    simp only [UInt8.lt_iff_toNat_lt, UInt8.reduceToNat]
    rw [if_neg (by omega)]
    omega
  have days : localSecs (smsTsUnix t) t.tzQh / 86400 =
      daysFromCivil t.year t.mon.toNat t.day.toNat := by
    omega
  have hour : rem / 3600 = t.hour.toNat := by omega
  have min : rem % 3600 / 60 = t.min.toNat := by omega
  have sec : rem % 60 = t.sec.toNat := by omega
  have zoned : max (-48) (Min.min 48 t.tzQh) = t.tzQh := by omega
  rw [date, days, civil, hour, min, sec, zoned]
  simp only [UInt8.ofNat_toNat]
  rw [Int16.toInt_ofInt_of_le (by omega) (by omega)]

/-- Both directions, over all the years that a timestamp can hold. -/
theorem smsTsUnix_inverse :
    (∀ secs tzQh : Int, yearStart (-32768) * 86400 ≤ localSecs secs tzQh ∧
        localSecs secs tzQh < yearStart 32768 * 86400 →
      smsTsUnix (smsTsFromUnix secs tzQh) = secs) ∧
    ∀ t : Ts, t.Calendar → smsTsFromUnix (smsTsUnix t) t.tzQh = t :=
  ⟨fun _ _ year => smsTsUnix_fromUnix year, fun _ calendar => smsTsFromUnix_unix calendar⟩

theorem smsTsUnix_inverse_leapDay :
    smsTsUnix (smsTsFromUnix (-1) 48) = -1 ∧
      smsTsFromUnix (smsTsUnix ⟨-400, 2, 29, 23, 59, 59, -48⟩) (-48) =
        ⟨-400, 2, 29, 23, 59, 59, -48⟩ := by
  have calendar : Ts.Calendar ⟨-400, 2, 29, 23, 59, 59, -48⟩ := by
    constructor <;> decide
  exact ⟨smsTsUnix_inverse.1 (-1) 48 (by decide), smsTsUnix_inverse.2 _ calendar⟩

def smsVpSecs (rel : UInt8) : UInt32 :=
  if rel ≤ 143 then (rel.toUInt32 + 1) * 5 * 60
  else if rel ≤ 167 then 12 * 3600 + (rel.toUInt32 - 143) * 30 * 60
  else if rel ≤ 196 then (rel.toUInt32 - 166) * 86400
  else (rel.toUInt32 - 192) * 7 * 86400

def smsVpRelFromSecs (secs : UInt32) : UInt8 :=
  if secs ≤ 12 * 3600 then
    let units := (secs + 299) / 300
    ((if units = 0 then 1 else units) - 1).toUInt8
  else if secs ≤ 24 * 3600 then
    let units := (secs - 12 * 3600 + 1799) / 1800
    (143 + if units = 0 then 1 else units).toUInt8
  else if secs ≤ 30 * 86400 then (166 + (secs + 86399) / 86400).toUInt8
  else
    let weeks := (secs + 7 * 86400 - 1) / (7 * 86400)
    (192 + if 63 < weeks then 63 else weeks).toUInt8

/-- The least code of a period of at least `secs` seconds, or the last code. -/
def LeastCode (secs : UInt32) (r : UInt8) : Prop :=
  (secs ≤ smsVpSecs r ∧ ∀ other, secs ≤ smsVpSecs other → r ≤ other) ∨
    (∀ other, smsVpSecs other < secs) ∧ r = 255

def periodSecs (rel : Nat) : Nat :=
  if rel ≤ 143 then (rel + 1) * 300
  else if rel ≤ 167 then 43200 + (rel - 143) * 1800
  else if rel ≤ 196 then (rel - 166) * 86400
  else (rel - 192) * 604800

theorem toNat_smsVpSecs : ∀ rel : UInt8, (smsVpSecs rel).toNat = periodSecs rel.toNat :=
  Data.forall_octet (by decide +kernel)

theorem periodSecs_strictMono : StrictMono periodSecs :=
  strictMono_nat_of_lt_succ fun rel => by
    unfold periodSecs
    split_ifs <;> omega

def periodCode (n : Nat) : Nat :=
  if n ≤ 43200 then (n + 299) / 300 - 1
  else if n ≤ 86400 then 143 + (n - 43200 + 1799) / 1800
  else if n ≤ 2592000 then 166 + (n + 86399) / 86400
  else 192 + min 63 ((n + 604799) % 4294967296 / 604800)

theorem toNat_smsVpRelFromSecs (secs : UInt32) :
    (smsVpRelFromSecs secs).toNat = periodCode secs.toNat := by
  have bound := secs.toNat_lt
  have rounded : secs + 7 * 86400 - 1 = secs + 604799 := by
    rw [← UInt32.toNat_inj, UInt32.toNat_sub, UInt32.toNat_add, UInt32.toNat_add]
    simp only [UInt32.reduceMul, UInt32.reduceToNat]
    omega
  unfold smsVpRelFromSecs periodCode
  rw [rounded]
  simp only [UInt32.le_iff_toNat_le, UInt32.lt_iff_toNat_lt, UInt32.reduceMul, UInt32.reduceToNat,
    ← UInt32.toNat_inj, UInt32.toNat_add, UInt32.toNat_sub, UInt32.toNat_div]
  split_ifs <;>
    simp only [UInt32.toNat_toUInt8, UInt32.toNat_add, UInt32.toNat_sub, UInt32.toNat_div,
      UInt32.reduceToNat] <;>
    omega

theorem periodCode_least (short : n ≤ 38102400) :
    n ≤ periodSecs (periodCode n) ∧ (0 < periodCode n → periodSecs (periodCode n - 1) < n) := by
  obtain ⟨r, isR⟩ : ∃ r, periodCode n = r := ⟨_, rfl⟩
  rw [isR]
  unfold periodCode at isR
  unfold periodSecs
  -- the code before `r` may belong to the period before
  split at isR
  · rw [if_pos (by omega : r ≤ 143), if_pos (by omega : r - 1 ≤ 143)]
    omega
  split at isR
  · rw [if_neg (by omega : ¬ r ≤ 143), if_pos (by omega : r ≤ 167)]
    split_ifs <;> omega
  split at isR
  · rw [if_neg (by omega : ¬ r ≤ 143), if_neg (by omega : ¬ r ≤ 167), if_pos (by omega : r ≤ 196)]
    split_ifs <;> omega
  · rw [if_neg (by omega : ¬ r ≤ 143), if_neg (by omega : ¬ r ≤ 167), if_neg (by omega : ¬ r ≤ 196)]
    split_ifs <;> omega

/-- The code is right up to where rounding up to a week leaves 32 bits. -/
theorem smsVpRelFromSecs_least_iff (secs : UInt32) :
    (∀ a b, a < b → smsVpSecs a < smsVpSecs b) ∧
      (LeastCode secs (smsVpRelFromSecs secs) ↔ secs.toNat + 604800 ≤ 4294967296) := by
  simp only [LeastCode, UInt8.lt_iff_toNat_lt, UInt8.le_iff_toNat_le, UInt32.le_iff_toNat_le,
    UInt32.lt_iff_toNat_lt, toNat_smsVpSecs, ← UInt8.toNat_inj, toNat_smsVpRelFromSecs]
  refine ⟨fun a b less => periodSecs_strictMono less, ?_⟩
  have bound := secs.toNat_lt
  generalize secs.toNat = n at bound ⊢
  constructor
  · intro least
    by_contra wrapped
    have code : periodCode n = 192 := by
      unfold periodCode
      split_ifs <;> omega
    rw [code] at least
    rcases least with ⟨reaches, _⟩ | ⟨_, last⟩
    · have secs : periodSecs 192 = 2246400 := by decide
      omega
    · cases last
  · intro small
    by_cases long : 38102400 < n
    · have code : periodCode n = 255 := by
        unfold periodCode
        split_ifs <;> omega
      have top : periodSecs 255 = 38102400 := by decide
      refine .inr ⟨fun other => ?_, code⟩
      have le := periodSecs_strictMono.monotone (Nat.le_of_lt_succ other.toNat_lt)
      omega
    · obtain ⟨reaches, before⟩ := periodCode_least (Nat.not_lt.mp long)
      refine .inl ⟨reaches, fun other enough => ?_⟩
      by_contra less
      have le := periodSecs_strictMono.monotone (Nat.le_sub_one_of_lt (Nat.not_le.mp less))
      omega

theorem smsVpRelFromSecs_wraps : smsVpRelFromSecs 0xFFFFFFFF = 192 ∧
    smsVpSecs 192 = 2246400 ∧ ¬ LeastCode 0xFFFFFFFF (smsVpRelFromSecs 0xFFFFFFFF) := by
  have code : smsVpRelFromSecs 0xFFFFFFFF = 192 := by decide
  refine ⟨code, by decide, ?_⟩
  rw [code]
  rintro (⟨reaches, _⟩ | ⟨_, last⟩)
  · exact absurd reaches (by decide)
  · exact absurd last (by decide)

end Pro2Call.Sms

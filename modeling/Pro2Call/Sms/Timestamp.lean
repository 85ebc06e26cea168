import Pro2Call.Sms.Cursor

namespace Pro2Call.Sms

open Pro2Call.Data

structure Ts where
  year : Int := 0
  mon : UInt8 := 0
  day : UInt8 := 0
  hour : UInt8 := 0
  min : UInt8 := 0
  sec : UInt8 := 0
  tzQh : Int := 0
  deriving DecidableEq, Repr

def smsBcd2 (o : UInt8) : Option Nat :=
  let tens := (o &&& 0x0F).toNat
  let units := (o >>> 4).toNat
  if 9 < tens ∨ 9 < units then none else some (tens * 10 + units)

def smsBcd2Enc (v : Nat) : UInt8 := UInt8.ofNat ((v % 10) <<< 4 ||| v / 10 % 10)

def smsYearPivot : Nat := 70

/-- The quarters of an hour in the last octet: bit 3 is the sign. -/
def tzOf (tz : UInt8) : Option Int :=
  let tens := (tz &&& 0x07).toNat
  let units := (tz >>> 4 &&& 0x0F).toNat
  if 9 < units then none
  else
    let qh := tens * 10 + units
    if 48 < qh then none else some (if tz &&& 0x08 ≠ 0 then -qh else qh)

def tzOctet (tzQh : Int) : UInt8 :=
  let qh := tzQh.natAbs
  let tz := UInt8.ofNat ((qh % 10) <<< 4 ||| qh / 10)
  if tzQh < 0 then tz ||| 0x08 else tz

def smsTsDecode (b : Bytes) : Except SmsErr Ts :=
  match b with
  | b0 :: b1 :: b2 :: b3 :: b4 :: b5 :: b6 :: _ =>
    match smsBcd2 b0, smsBcd2 b1, smsBcd2 b2, smsBcd2 b3, smsBcd2 b4, smsBcd2 b5, tzOf b6 with
    | some yy, some mo, some dd, some hh, some mi, some ss, some tz =>
      .ok
        { year := if yy < smsYearPivot then 2000 + yy else 1900 + yy
          mon := UInt8.ofNat mo
          day := UInt8.ofNat dd
          hour := UInt8.ofNat hh
          min := UInt8.ofNat mi
          sec := UInt8.ofNat ss
          tzQh := tz }
    | _, _, _, _, _, _, _ => .error .length
  | _ => .error .short

structure Ts.InRange (t : Ts) : Prop where
  year : 1970 ≤ t.year ∧ t.year ≤ 2069
  mon : t.mon ≤ 12
  day : t.day ≤ 31
  hour : t.hour ≤ 23
  min : t.min ≤ 59
  sec : t.sec ≤ 59
  tzQh : -48 ≤ t.tzQh ∧ t.tzQh ≤ 48

instance (t : Ts) : Decidable t.InRange :=
  decidable_of_iff
    ((1970 ≤ t.year ∧ t.year ≤ 2069) ∧ t.mon ≤ 12 ∧ t.day ≤ 31 ∧ t.hour ≤ 23 ∧ t.min ≤ 59 ∧
      t.sec ≤ 59 ∧ -48 ≤ t.tzQh ∧ t.tzQh ≤ 48)
    ⟨fun ⟨year, mon, day, hour, min, sec, tzQh⟩ => ⟨year, mon, day, hour, min, sec, tzQh⟩,
      fun ⟨year, mon, day, hour, min, sec, tzQh⟩ => ⟨year, mon, day, hour, min, sec, tzQh⟩⟩

def Ts.octets (t : Ts) : Bytes :=
  [smsBcd2Enc (t.year % 100).toNat, smsBcd2Enc t.mon.toNat, smsBcd2Enc t.day.toNat,
    smsBcd2Enc t.hour.toNat, smsBcd2Enc t.min.toNat, smsBcd2Enc t.sec.toNat, tzOctet t.tzQh]

def smsTsEncode (cap : Nat) (t : Ts) : Except SmsErr Bytes :=
  if cap < 7 then .error .overflow
  else if t.InRange then .ok t.octets
  else .error .inval

theorem smsBcd2_smsBcd2Enc (small : v < 100) : smsBcd2 (smsBcd2Enc v) = some v := by
  have every : ∀ v : Fin 100, smsBcd2 (smsBcd2Enc v) = some v.val := by decide
  exact every ⟨v, small⟩

theorem tzOf_tzOctet (range : -48 ≤ tzQh ∧ tzQh ≤ 48) : tzOf (tzOctet tzQh) = some tzQh := by
  have every : ∀ shifted : Fin 97, tzOf (tzOctet (shifted.val - 48)) =
      some (shifted.val - 48 : Int) := by decide
  have shifted := every ⟨(tzQh + 48).toNat, by omega⟩
  have back : ((tzQh + 48).toNat : Int) - 48 = tzQh := by omega
  dsimp only at shifted
  rwa [back] at shifted

theorem smsBcd2_octet {v top : UInt8} (within : v ≤ top) (small : top ≤ 99) :
    smsBcd2 (smsBcd2Enc v.toNat) = some v.toNat := by
  have bound : v.toNat ≤ 99 := UInt8.le_iff_toNat_le.mp (UInt8.le_trans within small)
  exact smsBcd2_smsBcd2Enc (by omega)

theorem smsTsDecode_octets {t : Ts} (range : t.InRange) (rest : Bytes) :
    smsTsDecode (t.octets ++ rest) = .ok t := by
  have century : (if (t.year % 100).toNat < smsYearPivot then 2000 + ((t.year % 100).toNat : Int)
      else 1900 + (t.year % 100).toNat) = t.year := by
    have year := range.year
    unfold smsYearPivot
    split <;> omega
  have yy : smsBcd2 (smsBcd2Enc (t.year % 100).toNat) = some (t.year % 100).toNat :=
    smsBcd2_smsBcd2Enc (by omega)
  rw [Ts.octets]
  simp only [List.cons_append, smsTsDecode]
  rw [yy, smsBcd2_octet range.mon (by decide), smsBcd2_octet range.day (by decide),
    smsBcd2_octet range.hour (by decide), smsBcd2_octet range.min (by decide),
    smsBcd2_octet range.sec (by decide), tzOf_tzOctet range.tzQh]
  simp only [UInt8.ofNat_toNat, century]

def stampInRange (stamp : Bytes) : Prop :=
  (smsBcd2 (stamp.getD 1 0)).getD 0 ≤ 12 ∧ (smsBcd2 (stamp.getD 2 0)).getD 0 ≤ 31 ∧
    (smsBcd2 (stamp.getD 3 0)).getD 0 ≤ 23 ∧ (smsBcd2 (stamp.getD 4 0)).getD 0 ≤ 59 ∧
    (smsBcd2 (stamp.getD 5 0)).getD 0 ≤ 59

instance (stamp : Bytes) : Decidable (stampInRange stamp) := inferInstanceAs (Decidable (_ ∧ _))

theorem smsBcd2_lt (digits : smsBcd2 o = some v) : v < 100 := by
  unfold smsBcd2 at digits
  dsimp only at digits
  split at digits
  · contradiction
  · cases digits
    omega

theorem tzOf_range (found : tzOf tz = some tzQh) : -48 ≤ tzQh ∧ tzQh ≤ 48 := by
  unfold tzOf at found
  dsimp only at found
  split at found
  · contradiction
  split at found
  · contradiction
  · cases found
    split <;> omega

theorem ofNat_le_iff (small : v < 100) (top : UInt8) : UInt8.ofNat v ≤ top ↔ v ≤ top.toNat := by
  rw [UInt8.le_iff_toNat_le, UInt8.toNat_ofNat', Nat.mod_eq_of_lt (by omega)]

theorem smsTsDecode_ok (decoded : smsTsDecode b = .ok t) :
    7 ≤ b.length ∧ (t.InRange ↔ stampInRange (b.take 7)) := by
  unfold smsTsDecode at decoded
  split at decoded
  next b0 b1 b2 b3 b4 b5 b6 rest =>
    split at decoded
    next yy mo dd hh mi ss tz year mon day hour min sec zone =>
      cases decoded
      have range := tzOf_range zone
      have pivot : smsYearPivot = 70 := rfl
      have years := smsBcd2_lt year
      refine ⟨by simp only [List.length_cons]; omega, ?_⟩
      have fields : stampInRange ((b0 :: b1 :: b2 :: b3 :: b4 :: b5 :: b6 :: rest).take 7) ↔
          mo ≤ 12 ∧ dd ≤ 31 ∧ hh ≤ 23 ∧ mi ≤ 59 ∧ ss ≤ 59 := by
        simp [stampInRange, mon, day, hour, min, sec]
      have month := ofNat_le_iff (smsBcd2_lt mon) 12
      have days := ofNat_le_iff (smsBcd2_lt day) 31
      have hours := ofNat_le_iff (smsBcd2_lt hour) 23
      have minutes := ofNat_le_iff (smsBcd2_lt min) 59
      have seconds := ofNat_le_iff (smsBcd2_lt sec) 59
      rw [fields]
      constructor
      · intro inRange
        exact ⟨month.mp inRange.mon, days.mp inRange.day, hours.mp inRange.hour,
          minutes.mp inRange.min, seconds.mp inRange.sec⟩
      · intro ⟨mo, dd, hh, mi, ss⟩
        refine ⟨?_, month.mpr mo, days.mpr dd, hours.mpr hh, minutes.mpr mi, seconds.mpr ss, range⟩
        dsimp only
        split <;> omega
    · contradiction
  · contradiction

end Pro2Call.Sms

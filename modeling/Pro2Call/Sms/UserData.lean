import Pro2Call.Sms.Gsm7

namespace Pro2Call.Sms

open Pro2Call.Data

def smsUdMax : Nat := 140

inductive Alphabet where
  | auto
  | gsm7
  | bit8
  | ucs2
  | reserved
  deriving DecidableEq, Repr

structure Dcs where
  alphabet : Alphabet := .gsm7
  compressed : Bool := false
  hasClass : Bool := false
  cls : UInt8 := 0
  autoDelete : Bool := false
  mwi : Bool := false
  mwiActive : Bool := false
  mwiType : UInt8 := 0
  mwiDiscard : Bool := false
  deriving DecidableEq, Repr

def Alphabet.ofWire (bits : UInt8) : Alphabet :=
  if bits = 0 then .gsm7 else if bits = 1 then .bit8 else if bits = 2 then .ucs2
  else .reserved

def smsDcsDecode (dcs : UInt8) : Dcs :=
  let group := dcs >>> 4
  if group ≤ 0x7 then
    let compressed := decide (dcs &&& 0x20 ≠ 0)
    { autoDelete := decide (0x4 ≤ group)
      compressed := compressed
      hasClass := decide (dcs &&& 0x10 ≠ 0)
      cls := dcs &&& 0x03
      alphabet := if compressed then .reserved else .ofWire (dcs >>> 2 &&& 0x03) }
  else if 0xC ≤ group ∧ group ≤ 0xE then
    { mwi := true
      mwiDiscard := decide (group = 0xC)
      mwiActive := decide (dcs &&& 0x08 ≠ 0)
      mwiType := dcs &&& 0x03
      alphabet := if group = 0xE then .ucs2 else .gsm7 }
  else if group = 0xF then
    { hasClass := true
      cls := dcs &&& 0x03
      alphabet := if dcs &&& 0x04 ≠ 0 then .bit8 else .gsm7 }
  else { alphabet := .reserved }

def smsDcsMake (alphabet : Alphabet) (cls : Int) : UInt8 :=
  let dcs : UInt8 :=
    match alphabet with
    | .bit8 => 0x04
    | .ucs2 => 0x08
    | _ => 0x00
  if 0 ≤ cls ∧ cls ≤ 3 then dcs ||| 0x10 ||| UInt8.ofNat cls.toNat else dcs

def smsDcsAlphabet (dcs : UInt8) : Alphabet := (smsDcsDecode dcs).alphabet

def smsUdhLen (ud : Bytes) : Nat :=
  if ud.length = 0 then 0
  else
    let udhl := (ud.getD 0 0).toNat
    if ud.length < udhl + 1 then 0 else udhl + 1

structure UdhIter where
  p : Bytes
  stop : Nat
  off : Nat

structure UdhIe where
  iei : UInt8
  len : UInt8
  data : Bytes

def smsUdhBegin (ud : Bytes) : UdhIter × Bool :=
  let n := smsUdhLen ud
  (⟨ud, n, 1⟩, decide (1 < n))

def smsUdhNext (it : UdhIter) : Option (UdhIe × UdhIter) :=
  if it.stop < it.off + 2 then none
  else
    let iei := it.p.getD it.off 0
    let len := it.p.getD (it.off + 1) 0
    if it.stop < it.off + 2 + len.toNat then none
    else some (⟨iei, len, slice it.p (it.off + 2) len.toNat⟩,
      { it with off := it.off + 2 + len.toNat })

/-- The code point of a UTF-16 unit, and what follows it: the low half of a
surrogate pair is taken along. -/
def utf16Next (u : Nat) (rest : Bytes) : Nat × Bytes :=
  match rest with
  | hi :: lo :: after =>
    let low := hi.toNat <<< 8 ||| lo.toNat
    if 0xD800 ≤ u ∧ u ≤ 0xDBFF ∧ 0xDC00 ≤ low ∧ low ≤ 0xDFFF then
      (0x10000 + (u - 0xD800) <<< 10 + (low - 0xDC00), after)
    else (u, rest)
  | _ => (u, rest)

theorem length_utf16Next_le (u : Nat) (rest : Bytes) :
    (utf16Next u rest).2.length ≤ rest.length := by
  unfold utf16Next
  split
  · dsimp only
    split
    · simp only [List.length_cons]
      omega
    · exact Nat.le_refl _
  · exact Nat.le_refl _

def ucs2ToUtf8Loop (cap : Nat) (p out : Bytes) : Except SmsErr Bytes :=
  match p with
  | hi :: lo :: rest =>
    let next := utf16Next (hi.toNat <<< 8 ||| lo.toNat) rest
    -- a lone surrogate is shown as the replacement character
    let u := if 0xD800 ≤ next.1 ∧ next.1 ≤ 0xDFFF then 0xFFFD else next.1
    match putChar cap out u with
    | .error e => .error e
    | .ok out => ucs2ToUtf8Loop cap next.2 out
  | _ => .ok out
termination_by p.length
decreasing_by
  have shorter := length_utf16Next_le (hi.toNat <<< 8 ||| lo.toNat) rest
  simp only [List.length_cons]
  omega

def septetRoom : Nat := smsUdMax * 8 / 7 + 2

def udBody (alphabet : Alphabet) (udhl : Nat) (ud : Bytes) (udl cap : Nat) : Except SmsErr Bytes :=
  match alphabet with
  | .gsm7 =>
    let off := smsGsm7SeptetOff udhl
    if udl < off then .error .length
    else if septetRoom < udl - off then .error .length
    else do
      let septets ← smsGsm7Unpack ud off (udl - off) septetRoom
      smsGsm7ToUtf8 septets cap
  | .ucs2 =>
    if ud.length < udl ∨ udl < udhl then .error .length
    else ucs2ToUtf8Loop cap (slice ud udhl (udl - udhl)) []
  | .bit8 =>
    if ud.length < udl ∨ udl < udhl then .error .length
    else if cap < udl - udhl + 1 then .error .overflow
    else .ok (slice ud udhl (udl - udhl))
  | _ => .error .alphabet

def smsUdToUtf8 (dcs : UInt8) (udhi : Bool) (ud : Bytes) (udl : UInt8) (cap : Nat) :
    Except SmsErr Bytes :=
  if cap = 0 then .error .inval
  else
    let udhl := if udhi then smsUdhLen ud else 0
    if udhi = true ∧ udhl = 0 then .error .length
    else if udl = 0 then .ok []
    else udBody (smsDcsAlphabet dcs) udhl ud udl.toNat cap

def SmsErr.code : SmsErr → Int
  | .short => -1
  | .length => -2
  | .overflow => -3
  | .inval => -4
  | .alphabet => -5
  | .mti => -6
  | .missing => -7

def intOf : Except SmsErr Nat → Int
  | .error e => e.code
  | .ok k => Int.bmod k 0x100000000

theorem intOf_ok (small : k < 2 ^ 31) : intOf (.ok k) = k := by
  show Int.bmod k 0x100000000 = k
  apply Int.bmod_eq_of_le <;> omega

def smsGsm7Septets (s : Bytes) : Int :=
  intOf (eachChar s (fun k c => (gsm7Width c).map fun w => k + w) 0 0)

/-- What `SMS_ALPHA_AUTO` stands for. -/
def Alphabet.resolve (s : Bytes) (alphabet : Alphabet) : Alphabet :=
  if alphabet = .auto then if 0 ≤ smsGsm7Septets s then .gsm7 else .ucs2 else alphabet

def ucs2Octets (u : Nat) : Bytes := [UInt8.ofNat (u >>> 8), UInt8.ofNat (u &&& 0xFF)]

def utf16Units (u : Nat) : Bytes :=
  if u < 0x10000 then ucs2Octets u
  else
    let v := u - 0x10000
    ucs2Octets (0xD800 + v >>> 10) ++ ucs2Octets (0xDC00 + (v &&& 0x3FF))

/-- The body of the UCS2 case: `k` octets of the buffer are in use. -/
def ucs2Put (state : Nat × Bytes) (u : Nat) : Except SmsErr (Nat × Bytes) :=
  let units := utf16Units u
  let (k, out) := state
  if out.length < k + units.length then .error .overflow
  else if smsUdMax < k + units.length then .error .length
  else .ok (k + units.length, splice out k units)

/-- What `sms_ud_from_utf8` returns and writes: the buffer, its octets in use,
TP-UDL and TP-DCS. -/
structure UserData where
  out : Bytes
  len : Nat
  udl : UInt8
  dcs : UInt8
  deriving DecidableEq, Repr

/-! The three alphabets, each with the header of `udhLen` octets already in `out`. -/

def udGsm7 (s : Bytes) (udhLen : Nat) (out : Bytes) : Except SmsErr UserData :=
  match smsGsm7FromUtf8 s septetRoom with
  | .error .overflow => .error .length
  | .error e => .error e
  | .ok septets =>
    let off := smsGsm7SeptetOff udhLen
    let total := off + septets.length
    let octets := (total * 7 + 7) / 8
    if 255 < total then .error .length
    else if smsUdMax < octets then .error .length
    else if out.length < octets then .error .overflow
    else do
      let (len, packed) ← smsGsm7Pack septets off
        (splice out udhLen (List.replicate (octets - udhLen) 0))
      .ok ⟨packed, len, UInt8.ofNat total, smsDcsMake .gsm7 (-1)⟩

def udUcs2 (s : Bytes) (udhLen : Nat) (out : Bytes) : Except SmsErr UserData := do
  let (k, written) ← eachChar s ucs2Put 0 (udhLen, out)
  .ok ⟨written, k, UInt8.ofNat k, smsDcsMake .ucs2 (-1)⟩

def udBit8 (s : Bytes) (udhLen : Nat) (out : Bytes) : Except SmsErr UserData :=
  if smsUdMax < udhLen + s.length then .error .length
  else if out.length < udhLen + s.length then .error .overflow
  else .ok ⟨splice out udhLen s, udhLen + s.length, UInt8.ofNat (udhLen + s.length),
    smsDcsMake .bit8 (-1)⟩

def smsUdFromUtf8 (s : Bytes) (alphabet : Alphabet) (udh out : Bytes) : Except SmsErr UserData :=
  if udh.length ≠ 0 ∧ (udh.getD 0 0).toNat + 1 ≠ udh.length then .error .inval
  else if smsUdMax < udh.length then .error .length
  else if udh.length ≠ 0 ∧ out.length < udh.length then .error .overflow
  else
    match alphabet.resolve s with
    | .gsm7 => udGsm7 s udh.length (splice out 0 udh)
    | .ucs2 => udUcs2 s udh.length (splice out 0 udh)
    | .bit8 => udBit8 s udh.length (splice out 0 udh)
    | _ => .error .alphabet

end Pro2Call.Sms

import Pro2Call.Sms.UserDataText

namespace Pro2Call.Sms

open Pro2Call.Data

structure Concat where
  ref : UInt16
  total : UInt8
  seq : UInt8
  ref16 : Bool
  deriving DecidableEq, Repr

theorem smsUdhNext_lt {it next : UdhIter} (found : smsUdhNext it = some (ie, next)) :
    it.off < next.off ∧ next.off ≤ next.stop ∧ next.stop = it.stop := by
  unfold smsUdhNext at found
  split at found
  · contradiction
  dsimp only at found
  split at found
  · contradiction
  · cases found
    dsimp only
    omega

def concatOfIe (ie : UdhIe) : Option Concat :=
  if ie.iei = 0x00 ∧ ie.len = 3 then
    some ⟨(ie.data.getD 0 0).toUInt16, ie.data.getD 1 0, ie.data.getD 2 0, false⟩
  else if ie.iei = 0x08 ∧ ie.len = 4 then
    some ⟨(ie.data.getD 0 0).toUInt16 <<< 8 ||| (ie.data.getD 1 0).toUInt16,
      ie.data.getD 2 0, ie.data.getD 3 0, true⟩
  else none

def concatGetLoop (it : UdhIter) : Option Concat :=
  match _found : smsUdhNext it with
  | none => none
  | some (ie, next) =>
    match concatOfIe ie with
    | some c => some c
    | none => concatGetLoop next
termination_by it.stop - it.off
decreasing_by
  have behind := smsUdhNext_lt _found
  omega

def smsConcatGet (ud : Bytes) : Option Concat :=
  let (it, found) := smsUdhBegin ud
  if found then concatGetLoop it else none

def smsConcatUdh (cap : Nat) (c : Concat) : Except SmsErr Bytes :=
  if c.total = 0 ∨ c.seq = 0 ∨ c.total < c.seq then .error .inval
  else if c.ref16 then
    if cap < 7 then .error .overflow
    else .ok [6, 0x08, 4, (c.ref >>> 8).toUInt8, (c.ref &&& 0xFF).toUInt8, c.total, c.seq]
  else
    if cap < 6 then .error .overflow
    else .ok [5, 0x00, 3, (c.ref &&& 0xFF).toUInt8, c.total, c.seq]

def charUnits (alphabet : Alphabet) (cp : Nat) : Except SmsErr Nat :=
  if alphabet = .gsm7 then gsm7Width cp else .ok (if cp < 0x10000 then 2 else 4)

def splitAtLoop (s : Bytes) (alphabet : Alphabet) (budget i used : Nat) :
    Except SmsErr (Nat × Nat) :=
  if i < s.length then
    match _next : smsUtf8Next s i with
    | none => .error .inval
    | some (cp, j) =>
      match charUnits alphabet cp with
      | .error e => .error e
      | .ok w =>
        if budget < used + w then .ok (i, used)
        else splitAtLoop s alphabet budget j (used + w)
  else .ok (i, used)
termination_by s.length - i
decreasing_by
  have behind := smsUtf8Next_lt _next
  omega

def splitAt (s : Bytes) (start : Nat) (alphabet : Alphabet) (budget : Nat) : Except SmsErr Nat :=
  if alphabet = .bit8 then
    let take := if s.length - start < budget then s.length - start else budget
    if 0 < take then .ok (start + take) else .error .length
  else
    match splitAtLoop s alphabet budget start 0 with
    | .error e => .error e
    | .ok (i, used) => if 0 < used then .ok i else .error .length

def wireUnits (s : Bytes) (alphabet : Alphabet) : Int :=
  if alphabet = .gsm7 then smsGsm7Septets s
  else if alphabet = .bit8 then
    if 0x7FFFFFFF < s.length then SmsErr.length.code else s.length
  else
    match eachChar s (fun (k : Nat) cp => .ok (k + if cp < 0x10000 then 2 else 4)) 0 0 with
    | .error e => e.code
    | .ok k => if 0x7FFFFFFF < k then SmsErr.length.code else k

structure Part where
  ud : Bytes
  udLen : UInt8
  udl : UInt8
  dcs : UInt8
  seq : UInt8
  total : UInt8
  deriving DecidableEq, Repr

/-- `memset(p, 0, sizeof *p)` and `sms_ud_from_utf8` into the part. -/
def fillPart (s : Bytes) (alphabet : Alphabet) (udh : Bytes) (seq total : Nat) :
    Except SmsErr Part := do
  let ud ← smsUdFromUtf8 s alphabet udh (List.replicate smsUdMax 0)
  .ok ⟨ud.out, UInt8.ofNat ud.len, ud.udl, ud.dcs, UInt8.ofNat seq, UInt8.ofNat total⟩

def countParts (s : Bytes) (alphabet : Alphabet) (budget : Nat) (max : Int)
    (i count : Nat) : Except SmsErr Nat :=
  if i < s.length then
    match splitAt s i alphabet budget with
    | .error e => .error e
    | .ok stop =>
      if max < count + 1 ∨ 255 < count + 1 then .error .length
      else countParts s alphabet budget max stop (count + 1)
  else .ok count
termination_by 255 - count

def buildParts (s : Bytes) (alphabet : Alphabet) (budget : Nat) (ref : UInt16)
    (ref16 : Bool) (count : Nat) : Nat → Nat → Nat → Except SmsErr (List Part)
  | 0, _, _ => .ok []
  | left + 1, part, i => do
      let stop ← splitAt s i alphabet budget
      let udh ← smsConcatUdh 7 ⟨ref, UInt8.ofNat count, UInt8.ofNat part, ref16⟩
      let first ← fillPart (slice s i (stop - i)) alphabet udh part count
      let rest ← buildParts s alphabet budget ref ref16 count left (part + 1) stop
      .ok (first :: rest)

def partBudget (alphabet : Alphabet) (ref16 : Bool) : Nat :=
  let udhLen := if ref16 then 7 else 6
  if alphabet = .gsm7 then smsUdMax * 8 / 7 - smsGsm7SeptetOff udhLen
  else smsUdMax - udhLen

def oneOctets (s : Bytes) (alphabet : Alphabet) : Nat :=
  if alphabet = .gsm7 then ((wireUnits s alphabet).toNat * 7 + 7) / 8
  else (wireUnits s alphabet).toNat

def smsConcatSplit (s : Bytes) (alphabet : Alphabet) (ref : UInt16) (ref16 : Bool)
    (max : Int) : Except Int (List Part) :=
  if max ≤ 0 then .error SmsErr.inval.code
  else
    let alphabet := alphabet.resolve s
    if alphabet ≠ .gsm7 ∧ alphabet ≠ .ucs2 ∧ alphabet ≠ .bit8 then
      .error SmsErr.alphabet.code
    else
      let units := wireUnits s alphabet
      if units < 0 then .error units
      else if oneOctets s alphabet ≤ smsUdMax then
        ((fillPart s alphabet [] 1 1).map fun part => [part]).mapError SmsErr.code
      else
        let budget := partBudget alphabet ref16
        Except.mapError SmsErr.code do
          let count ← countParts s alphabet budget max 0 0
          buildParts s alphabet budget ref ref16 count count 1 0

end Pro2Call.Sms

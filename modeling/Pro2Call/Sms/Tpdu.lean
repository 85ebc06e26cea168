import Pro2Call.Sms.Address
import Pro2Call.Sms.Timestamp
import Pro2Call.Sms.UserData

namespace Pro2Call.Sms

open Pro2Call.Data

def smsCdMax : Nat := 156
def smsTpduMax : Nat := 176

structure Ud where
  udl : UInt8 := 0
  p : Octets := ⟨[], Octets.bound_nil⟩
  deriving DecidableEq, Repr

inductive Vpf where
  | none
  | enhanced
  | relative
  | absolute
  deriving DecidableEq, Repr

def Vpf.bits : Vpf → UInt8
  | .none => 0
  | .enhanced => 1
  | .relative => 2
  | .absolute => 3

def Vpf.ofBits (bits : UInt8) : Vpf :=
  if bits = 0 then .none
  else if bits = 1 then .enhanced
  else if bits = 2 then .relative
  else .absolute

structure Vp where
  fmt : Vpf := .none
  rel : UInt8 := 0
  abs : Ts := {}
  enh : Vector UInt8 7 := Vector.replicate 7 0
  deriving DecidableEq, Repr

structure Deliver where
  mms : Bool := false
  lp : Bool := false
  rp : Bool := false
  udhi : Bool := false
  sri : Bool := false
  oa : Addr := {}
  pid : UInt8 := 0
  dcs : UInt8 := 0
  scts : Ts := {}
  ud : Ud := {}
  deriving DecidableEq, Repr

structure Submit where
  rd : Bool := false
  rp : Bool := false
  udhi : Bool := false
  srr : Bool := false
  mr : UInt8 := 0
  da : Addr := {}
  pid : UInt8 := 0
  dcs : UInt8 := 0
  vp : Vp := {}
  ud : Ud := {}
  deriving DecidableEq, Repr

structure PiTail where
  hasPid : Bool := false
  pid : UInt8 := 0
  hasDcs : Bool := false
  dcs : UInt8 := 0
  hasUd : Bool := false
  ud : Ud := {}
  deriving DecidableEq, Repr

structure StatusReport where
  mms : Bool := false
  lp : Bool := false
  udhi : Bool := false
  srq : Bool := false
  mr : UInt8 := 0
  ra : Addr := {}
  scts : Ts := {}
  dt : Ts := {}
  st : UInt8 := 0
  hasPi : Bool := false
  pi : UInt8 := 0
  tail : PiTail := {}
  deriving DecidableEq, Repr

structure Command where
  udhi : Bool := false
  srr : Bool := false
  mr : UInt8 := 0
  pid : UInt8 := 0
  ct : UInt8 := 0
  mn : UInt8 := 0
  da : Addr := {}
  cd : Octets := ⟨[], Octets.bound_nil⟩
  deriving DecidableEq, Repr

structure Report where
  udhi : Bool := false
  hasFcs : Bool := false
  fcs : UInt8 := 0
  pi : UInt8 := 0
  hasScts : Bool := false
  scts : Ts := {}
  tail : PiTail := {}
  deriving DecidableEq, Repr

inductive TpduBody where
  | deliver (m : Deliver)
  | deliverReport (m : Report)
  | submit (m : Submit)
  | submitReport (m : Report)
  | statusReport (m : StatusReport)
  | command (m : Command)
  deriving DecidableEq, Repr

structure Tpdu where
  mti : UInt8
  dir : UInt8
  u : TpduBody
  deriving DecidableEq, Repr

inductive TpduType where
  | deliver
  | deliverReport
  | submit
  | submitReport
  | statusReport
  | command
  deriving DecidableEq, Repr

def TpduBody.type : TpduBody → TpduType
  | .deliver _ => .deliver
  | .deliverReport _ => .deliverReport
  | .submit _ => .submit
  | .submitReport _ => .submitReport
  | .statusReport _ => .statusReport
  | .command _ => .command

def TpduType.mti : TpduType → UInt8
  | .deliver | .deliverReport => 0
  | .submit | .submitReport => 1
  | .statusReport | .command => 2

def TpduType.dir : TpduType → UInt8
  | .deliver | .submitReport | .statusReport => 1
  | .deliverReport | .submit | .command => 0

def mtiType (mti : UInt8) (dir : Int) : Option TpduType :=
  if dir % 2 = 0 then
    if mti = 0 then some .deliverReport
    else if mti = 1 then some .submit
    else if mti = 2 then some .command
    else none
  else
    if mti = 0 then some .deliver
    else if mti = 1 then some .submitReport
    else if mti = 2 then some .statusReport
    else none

def readAddr (r : Bytes) : Except SmsErr (Addr × Bytes) := do
  let (a, k) ← smsAddrDecode r
  .ok (a, r.drop k)

def readTs (r : Bytes) : Except SmsErr (Ts × Bytes) := do
  let t ← smsTsDecode r
  .ok (t, r.drop 7)

def udOctets (dcs udl : UInt8) : Nat :=
  if smsDcsAlphabet dcs = .gsm7 then (udl.toNat * 7 + 7) / 8 else udl.toNat

def readUd (r : Bytes) (dcs : UInt8) : Except SmsErr (Ud × Bytes) := do
  let (udl, r) ← u8 r
  if smsUdMax < udOctets dcs udl then .error .length
  else do
    let (p, r) ← viewOf (UInt8.ofNat (udOctets dcs udl)) r
    .ok (⟨udl, p⟩, r)

def flaggedU8 (has : Bool) (r : Bytes) : Except SmsErr (UInt8 × Bytes) :=
  if has then u8 r else .ok (0, r)

def flaggedUd (has : Bool) (r : Bytes) (dcs : UInt8) : Except SmsErr (Ud × Bytes) :=
  if has then readUd r dcs else .ok ({}, r)

def readPiTail (r : Bytes) (pi : UInt8) : Except SmsErr (PiTail × Bytes) := do
  let hasPid := decide (pi &&& 0x01 ≠ 0)
  let hasDcs := decide (pi &&& 0x02 ≠ 0)
  let hasUd := decide (pi &&& 0x04 ≠ 0)
  let (pid, r) ← flaggedU8 hasPid r
  let (dcs, r) ← flaggedU8 hasDcs r
  let (ud, r) ← flaggedUd hasUd r dcs
  .ok (⟨hasPid, pid, hasDcs, dcs, hasUd, ud⟩, r)

def readEnh (r : Bytes) : Except SmsErr (Vector UInt8 7 × Bytes) :=
  if r.length < 7 then .error .short
  else .ok (.ofFn fun i => r.getD i.val 0, r.drop 7)

def readVp (fmt : Vpf) (r : Bytes) : Except SmsErr (Vp × Bytes) :=
  match fmt with
  | .none => .ok ({}, r)
  | .relative => do
      let (rel, r) ← u8 r
      .ok ({ fmt := .relative, rel := rel }, r)
  | .absolute => do
      let (abs, r) ← readTs r
      .ok ({ fmt := .absolute, abs := abs }, r)
  | .enhanced => do
      let (enh, r) ← readEnh r
      .ok ({ fmt := .enhanced, enh := enh }, r)

def readDeliver (o0 : UInt8) (r : Bytes) : Except SmsErr (Deliver × Bytes) := do
  let (oa, r) ← readAddr r
  let (pid, r) ← u8 r
  let (dcs, r) ← u8 r
  let (scts, r) ← readTs r
  let (ud, r) ← readUd r dcs
  .ok
    ({ mms := decide (o0 &&& 0x04 ≠ 0)
       lp := decide (o0 &&& 0x08 ≠ 0)
       sri := decide (o0 &&& 0x20 ≠ 0)
       udhi := decide (o0 &&& 0x40 ≠ 0)
       rp := decide (o0 &&& 0x80 ≠ 0)
       oa := oa
       pid := pid
       dcs := dcs
       scts := scts
       ud := ud }, r)

def readSubmit (o0 : UInt8) (r : Bytes) : Except SmsErr (Submit × Bytes) := do
  let (mr, r) ← u8 r
  let (da, r) ← readAddr r
  let (pid, r) ← u8 r
  let (dcs, r) ← u8 r
  let (vp, r) ← readVp (.ofBits (o0 >>> 3 &&& 0x03)) r
  let (ud, r) ← readUd r dcs
  .ok
    ({ rd := decide (o0 &&& 0x04 ≠ 0)
       srr := decide (o0 &&& 0x20 ≠ 0)
       udhi := decide (o0 &&& 0x40 ≠ 0)
       rp := decide (o0 &&& 0x80 ≠ 0)
       mr := mr
       da := da
       pid := pid
       dcs := dcs
       vp := vp
       ud := ud }, r)

/-- TP-PI and what it announces: a status report may end before it. -/
def readStatusTail (r : Bytes) : Except SmsErr (Bool × UInt8 × PiTail × Bytes) :=
  match r with
  | [] => .ok (false, 0, {}, [])
  | pi :: r => do
      let (tail, r) ← readPiTail r pi
      .ok (true, pi, tail, r)

def readStatusReport (o0 : UInt8) (r : Bytes) : Except SmsErr (StatusReport × Bytes) := do
  let (mr, r) ← u8 r
  let (ra, r) ← readAddr r
  let (scts, r) ← readTs r
  let (dt, r) ← readTs r
  let (st, r) ← u8 r
  let (hasPi, pi, tail, r) ← readStatusTail r
  .ok
    ({ mms := decide (o0 &&& 0x04 ≠ 0)
       lp := decide (o0 &&& 0x08 ≠ 0)
       srq := decide (o0 &&& 0x20 ≠ 0)
       udhi := decide (o0 &&& 0x40 ≠ 0)
       mr := mr
       ra := ra
       scts := scts
       dt := dt
       st := st
       hasPi := hasPi
       pi := pi
       tail := tail }, r)

def readCd (r : Bytes) : Except SmsErr (Octets × Bytes) := do
  let (cdl, r) ← u8 r
  if smsCdMax < cdl.toNat then .error .length else viewOf cdl r

def readCommand (o0 : UInt8) (r : Bytes) : Except SmsErr (Command × Bytes) := do
  let (mr, r) ← u8 r
  let (pid, r) ← u8 r
  let (ct, r) ← u8 r
  let (mn, r) ← u8 r
  let (da, r) ← readAddr r
  let (cd, r) ← readCd r
  .ok
    ({ srr := decide (o0 &&& 0x20 ≠ 0)
       udhi := decide (o0 &&& 0x40 ≠ 0)
       mr := mr
       pid := pid
       ct := ct
       mn := mn
       da := da
       cd := cd }, r)

def flaggedTs (has : Bool) (r : Bytes) : Except SmsErr (Ts × Bytes) :=
  if has then readTs r else .ok ({}, r)

def readReport (submit : Bool) (o0 : UInt8) (negative : Bool) (r : Bytes) :
    Except SmsErr (Report × Bytes) := do
  let (fcs, r) ← flaggedU8 negative r
  let (pi, r) ← u8 r
  let (scts, r) ← flaggedTs submit r
  let (tail, r) ← readPiTail r pi
  .ok
    ({ udhi := decide (o0 &&& 0x40 ≠ 0)
       hasFcs := negative
       fcs := fcs
       pi := pi
       hasScts := submit
       scts := scts
       tail := tail }, r)

def readBody (ty : TpduType) (o0 : UInt8) (negative : Bool) (r : Bytes) :
    Except SmsErr (TpduBody × Bytes) :=
  match ty with
  | .deliver => (readDeliver o0 r).map fun (m, r) => (.deliver m, r)
  | .submit => (readSubmit o0 r).map fun (m, r) => (.submit m, r)
  | .statusReport => (readStatusReport o0 r).map fun (m, r) => (.statusReport m, r)
  | .command => (readCommand o0 r).map fun (m, r) => (.command m, r)
  | .deliverReport => (readReport false o0 negative r).map fun (m, r) => (.deliverReport m, r)
  | .submitReport => (readReport true o0 negative r).map fun (m, r) => (.submitReport m, r)

/-- The TPDU decoded and the octets consumed. `dir` is odd from the SC, and 2 or
more with `SMS_DIR_NEGATIVE`; other bits are refused. -/
def smsTpduDecode (b : Bytes) (dir : Int) : Except SmsErr (Tpdu × Nat) :=
  if dir < 0 ∨ 3 < dir then .error .inval
  else
    match b with
    | [] => .error .short
    | o0 :: r =>
      match mtiType (o0 &&& 0x03) dir with
      | none => .error .mti
      | some ty => do
          let (u, rest) ← readBody ty o0 (decide (2 ≤ dir)) r
          .ok (⟨o0 &&& 0x03, UInt8.ofNat (dir % 2).toNat, u⟩, b.length - rest.length)

def writeAddr (cap : Nat) (out : Bytes) (a : Addr) : Except SmsErr Bytes := do
  let octets ← smsAddrEncode (cap - out.length) a
  .ok (out ++ octets)

def writeTs (cap : Nat) (out : Bytes) (t : Ts) : Except SmsErr Bytes := do
  let octets ← smsTsEncode (cap - out.length) t
  .ok (out ++ octets)

def writeUd (cap : Nat) (out : Bytes) (ud : Ud) : Except SmsErr Bytes :=
  if smsUdMax < ud.p.bytes.length then .error .length
  else put cap out (ud.udl :: ud.p.bytes)

def flag (set : Bool) (bit : UInt8) : UInt8 :=
  if set then bit else 0

/-- TP-PI follows the fields that are there; only its extension bit is kept. -/
def piOf (tail : PiTail) (pi : UInt8) : UInt8 :=
  pi &&& 0x80 ||| flag tail.hasPid 0x01 ||| flag tail.hasDcs 0x02 ||| flag tail.hasUd 0x04

def putFlagged (has : Bool) (cap : Nat) (out : Bytes) (v : UInt8) : Except SmsErr Bytes :=
  if has then put cap out [v] else .ok out

def writePiTail (cap : Nat) (out : Bytes) (tail : PiTail) : Except SmsErr Bytes := do
  let out ← putFlagged tail.hasPid cap out tail.pid
  let out ← putFlagged tail.hasDcs cap out tail.dcs
  if tail.hasUd then writeUd cap out tail.ud else .ok out

def writeVp (cap : Nat) (out : Bytes) (vp : Vp) : Except SmsErr Bytes :=
  match vp.fmt with
  | .none => .ok out
  | .relative => put cap out [vp.rel]
  | .absolute => writeTs cap out vp.abs
  | .enhanced => put cap out vp.enh.toList

def Deliver.firstOctet (m : Deliver) : UInt8 :=
  flag m.mms 0x04 ||| flag m.lp 0x08 ||| flag m.sri 0x20 ||| flag m.udhi 0x40 ||| flag m.rp 0x80

def Submit.firstOctet (m : Submit) : UInt8 :=
  (0x01 : UInt8) ||| flag m.rd 0x04 ||| m.vp.fmt.bits <<< 3 ||| flag m.srr 0x20 |||
    flag m.udhi 0x40 ||| flag m.rp 0x80

def StatusReport.firstOctet (m : StatusReport) : UInt8 :=
  0x02 ||| flag m.mms 0x04 ||| flag m.lp 0x08 ||| flag m.srq 0x20 ||| flag m.udhi 0x40

def Command.firstOctet (m : Command) : UInt8 := 0x02 ||| flag m.srr 0x20 ||| flag m.udhi 0x40

def Report.firstOctet (submit : Bool) (m : Report) : UInt8 :=
  (if submit then 0x01 else 0x00) ||| flag m.udhi 0x40

def writeDeliver (cap : Nat) (m : Deliver) : Except SmsErr Bytes := do
  let out ← writeAddr cap [m.firstOctet] m.oa
  let out ← put cap out [m.pid, m.dcs]
  let out ← writeTs cap out m.scts
  writeUd cap out m.ud

def writeSubmit (cap : Nat) (m : Submit) : Except SmsErr Bytes := do
  let out ← put cap [m.firstOctet] [m.mr]
  let out ← writeAddr cap out m.da
  let out ← put cap out [m.pid, m.dcs]
  let out ← writeVp cap out m.vp
  writeUd cap out m.ud

/-- TP-PI is written when the caller asked for it or filled something it gates. -/
def StatusReport.writesPi (m : StatusReport) : Bool :=
  m.hasPi || m.tail.hasPid || m.tail.hasDcs || m.tail.hasUd

def writeStatusTail (cap : Nat) (out : Bytes) (m : StatusReport) : Except SmsErr Bytes :=
  if m.writesPi then do
    let out ← put cap out [piOf m.tail m.pi]
    writePiTail cap out m.tail
  else .ok out

def writeStatusReport (cap : Nat) (m : StatusReport) : Except SmsErr Bytes := do
  let out ← put cap [m.firstOctet] [m.mr]
  let out ← writeAddr cap out m.ra
  let out ← writeTs cap out m.scts
  let out ← writeTs cap out m.dt
  let out ← put cap out [m.st]
  writeStatusTail cap out m

def writeCd (cap : Nat) (out : Bytes) (cd : Octets) : Except SmsErr Bytes :=
  if smsCdMax < cd.bytes.length then .error .length
  else put cap out (cd.len :: cd.bytes)

def writeCommand (cap : Nat) (m : Command) : Except SmsErr Bytes := do
  let out ← put cap [m.firstOctet] [m.mr, m.pid, m.ct, m.mn]
  let out ← writeAddr cap out m.da
  writeCd cap out m.cd

def writeStamp (has : Bool) (cap : Nat) (out : Bytes) (t : Ts) : Except SmsErr Bytes :=
  if has then writeTs cap out t else .ok out

def writeReport (submit : Bool) (cap : Nat) (m : Report) : Except SmsErr Bytes := do
  let out ← putFlagged m.hasFcs cap [m.firstOctet submit] m.fcs
  let out ← put cap out [piOf m.tail m.pi]
  let out ← writeStamp submit cap out m.scts
  writePiTail cap out m.tail

def smsTpduEncode (cap : Nat) (t : Tpdu) : Except SmsErr Bytes :=
  if cap < 1 then .error .overflow
  else
    match t.u with
    | .deliver m => writeDeliver cap m
    | .submit m => writeSubmit cap m
    | .statusReport m => writeStatusReport cap m
    | .command m => writeCommand cap m
    | .deliverReport m => writeReport false cap m
    | .submitReport m => writeReport true cap m

end Pro2Call.Sms

import Pro2Call.Sms.Address
import Pro2Call.Sms.Cursor

namespace Pro2Call.Sms

open Pro2Call.Data

inductive RpType where
  | data
  | ack
  | error
  | smma
  deriving DecidableEq, Repr

structure RpAddr where
  present : Bool := false
  ton : UInt8 := 0
  npi : UInt8 := 0
  digits : Bytes := []
  deriving DecidableEq, Repr

structure RpPdu where
  mti : UInt8 := 0
  type : RpType := .data
  fromMs : Bool := false
  mr : UInt8 := 0
  oa : RpAddr := {}
  da : RpAddr := {}
  cause : UInt8 := 0
  hasCauseDiag : Bool := false
  causeDiag : UInt8 := 0
  hasUd : Bool := false
  ud : Octets := ⟨[], Octets.bound_nil⟩
  deriving DecidableEq, Repr

/-- `mti_of`: only the MS reports memory available. -/
def mtiOf (type : RpType) (fromMs : Bool) : Except SmsErr UInt8 :=
  match type with
  | .data => .ok (if fromMs then 0 else 1)
  | .ack => .ok (if fromMs then 2 else 3)
  | .error => .ok (if fromMs then 4 else 5)
  | .smma => if fromMs then .ok 6 else .error .mti

def rpTypeOf (mti : UInt8) : Option (RpType × Bool) :=
  match mti.toNat with
  | 0 => some (.data, true)
  | 1 => some (.data, false)
  | 2 => some (.ack, true)
  | 3 => some (.ack, false)
  | 4 => some (.error, true)
  | 5 => some (.error, false)
  | 6 => some (.smma, true)
  | _ => none

def smsRpIeiUserData : UInt8 := 0x41

def smsRpAddrMax : Nat := 12

/-- The loop of `sms_rp_addr_decode`, with `k` symbols read: the filler ends the
number. -/
def rpDigits : Bytes → Nat → Except SmsErr Bytes
  | [], _ => .ok []
  | o :: rest, k =>
    if smsBcdChar (o &&& 0x0F) = 0 then .ok []
    else if smsAddrMaxDigits ≤ k then .error .length
    else if smsBcdChar (o >>> 4) = 0 then .ok [smsBcdChar (o &&& 0x0F)]
    else if smsAddrMaxDigits ≤ k + 1 then .error .length
    else do
      let digits ← rpDigits rest (k + 2)
      .ok (smsBcdChar (o &&& 0x0F) :: smsBcdChar (o >>> 4) :: digits)

def smsRpAddrDecode (b : Bytes) : Except SmsErr (RpAddr × Nat) :=
  if b.length < 1 then .error .short
  else
    let len := (b.getD 0 0).toNat
    if len = 0 then .ok ({}, 1)
    else if smsRpAddrMax - 1 < len then .error .length
    else if b.length < 1 + len then .error .short
    else do
      let digits ← rpDigits (slice b 2 (len - 1)) 0
      .ok (⟨true, b.getD 1 0 >>> 4 &&& 0x07, b.getD 1 0 &&& 0x0F, digits⟩, 1 + len)

def smsRpAddrEncode (cap : Nat) (a : RpAddr) : Except SmsErr Bytes :=
  if a.present = false then
    if cap < 1 then .error .overflow else .ok [0]
  else if 7 < a.ton ∨ 15 < a.npi then .error .inval
  else if smsAddrMaxDigits < a.digits.length then .error .length
  else
    let vlen := (a.digits.length + 1) / 2
    if cap < 2 + vlen then .error .overflow
    else do
      let value ← packDigits a.digits
      .ok (UInt8.ofNat (1 + vlen) :: toaOctet a.ton a.npi :: value)

def rpUd (out : RpPdu) (r : Bytes) : Except SmsErr (RpPdu × Bytes) := do
  let (ulen, r) ← u8 r
  let (ud, r) ← viewOf ulen r
  .ok ({ out with hasUd := true, ud := ud }, r)

def rpOptionalUd (out : RpPdu) (r : Bytes) : Except SmsErr (RpPdu × Bytes) :=
  match r with
  | [] => .ok (out, [])
  | iei :: r => if iei ≠ smsRpIeiUserData then .error .length else rpUd out r

def readRpAddr (r : Bytes) : Except SmsErr (RpAddr × Bytes) := do
  let (a, k) ← smsRpAddrDecode r
  .ok (a, r.drop k)

def rpData (out : RpPdu) (r : Bytes) : Except SmsErr (RpPdu × Bytes) := do
  let (oa, r) ← readRpAddr r
  let (da, r) ← readRpAddr r
  rpUd { out with oa := oa, da := da } r

def rpError (out : RpPdu) (r : Bytes) : Except SmsErr (RpPdu × Bytes) := do
  let (clen, r) ← u8 r
  if clen < 1 then .error .length
  else if r.length < clen.toNat then .error .short
  else
    let out := { out with cause := r.getD 0 0 &&& 0x7F }
    let out :=
      if 2 ≤ clen then { out with hasCauseDiag := true, causeDiag := r.getD 1 0 } else out
    rpOptionalUd out (r.drop clen.toNat)

def rpBody (out : RpPdu) (r : Bytes) : Except SmsErr (RpPdu × Bytes) :=
  match out.type with
  | .data => rpData out r
  | .error => rpError out r
  | .ack => rpOptionalUd out r
  | .smma => .ok (out, r)

/-- The message decoded and the octets consumed; `dir` is even from the MS. -/
def smsRpDecode (b : Bytes) (dir : Int) : Except SmsErr (RpPdu × Nat) :=
  match b with
  | b0 :: mr :: r =>
    match rpTypeOf (b0 &&& 0x07) with
    | none => .error .mti
    | some (type, fromMs) =>
      if fromMs ≠ decide (dir % 2 = 0) then .error .mti
      else do
        let (out, rest) ← rpBody { mti := b0 &&& 0x07, type := type, fromMs := fromMs, mr := mr } r
        .ok (out, b.length - rest.length)
  | _ => .error .short

def putOptionalUd (cap : Nat) (out : Bytes) (p : RpPdu) : Except SmsErr Bytes :=
  if p.hasUd then put cap out (smsRpIeiUserData :: p.ud.len :: p.ud.bytes) else .ok out

def causeOctets (p : RpPdu) : Bytes :=
  if p.hasCauseDiag then [2, p.cause &&& 0x7F, p.causeDiag] else [1, p.cause &&& 0x7F]

def smsRpEncode (cap : Nat) (p : RpPdu) : Except SmsErr Bytes := do
  let mti ← mtiOf p.type p.fromMs
  let out ← put cap [] [mti, p.mr]
  match p.type with
  | .data =>
    let oa ← smsRpAddrEncode (cap - out.length) p.oa
    let da ← smsRpAddrEncode (cap - (out ++ oa).length) p.da
    put cap (out ++ oa ++ da) (p.ud.len :: p.ud.bytes)
  | .error =>
    let out ← put cap out (causeOctets p)
    putOptionalUd cap out p
  | .ack => putOptionalUd cap out p
  | .smma => .ok out

theorem rpDigits_packDigits {digits value : Bytes} (symbols : ∀ c ∈ digits, c ∈ bcdSymbols)
    (few : k + digits.length ≤ smsAddrMaxDigits)
    (packed : packDigits digits = .ok value) : rpDigits value k = .ok digits := by
  induction digits using packDigits.induct generalizing value k with
  | case1 =>
    cases packed
    rfl
  | case2 c bad =>
    rw [packDigits, if_pos bad] at packed
    contradiction
  | case3 c good =>
    rw [packDigits, if_neg good] at packed
    cases packed
    have symbol := symbols c List.mem_cons_self
    obtain ⟨low, high⟩ := smsBcdChar_filled _ symbol
    rw [List.length_singleton] at few
    rw [rpDigits, low, high, if_neg (smsBcdNibble_symbol _ symbol).2, if_neg (by omega), if_pos rfl]
  | case4 c d rest bad =>
    rw [packDigits, if_pos bad] at packed
    contradiction
  | case5 c d rest good bad =>
    rw [packDigits, if_neg good, if_pos bad] at packed
    contradiction
  | case6 c d rest first second ih =>
    rw [packDigits, if_neg first, if_neg second] at packed
    obtain ⟨octets, inner, packed⟩ := exists_of_bind_ok packed
    cases packed
    have low := symbols c List.mem_cons_self
    have high := symbols d (List.mem_cons_of_mem c List.mem_cons_self)
    obtain ⟨lowRead, highRead⟩ := smsBcdChar_pair _ low _ high
    rw [List.length_cons, List.length_cons] at few
    have tail : rpDigits octets (k + 2) = .ok rest :=
      ih (fun x member => symbols x (List.mem_cons_of_mem c (List.mem_cons_of_mem d member)))
        (by omega) inner
    rw [rpDigits, lowRead, highRead, if_neg (smsBcdNibble_symbol _ low).2, if_neg (by omega),
      if_neg (smsBcdNibble_symbol _ high).2, if_neg (by omega), tail]
    rfl

/-- At most twenty lowercase symbols; nothing in an absent address. -/
structure RpAddr.Valid (a : RpAddr) : Prop where
  absent : a.present = false → a = {}
  count : a.digits.length ≤ smsAddrMaxDigits
  symbols : ∀ c ∈ a.digits, c ∈ bcdSymbols

theorem smsRpAddrDecode_encode {a : RpAddr} (valid : a.Valid)
    (encoded : smsRpAddrEncode cap a = .ok out) (rest : Bytes) :
    smsRpAddrDecode (out ++ rest) = .ok (a, out.length) := by
  have count : a.digits.length ≤ 20 := valid.count
  unfold smsRpAddrEncode at encoded
  split at encoded
  next absent =>
    split at encoded
    · contradiction
    · cases encoded
      rw [valid.absent absent]
      rfl
  next present =>
  split at encoded
  · contradiction
  next bounds =>
  split at encoded
  · contradiction
  dsimp only at encoded
  split at encoded
  · contradiction
  obtain ⟨value, packed, encoded⟩ := exists_of_bind_ok encoded
  cases encoded
  obtain ⟨_, again, length, _⟩ := packDigits_ok valid.symbols
  rw [packed] at again
  cases again
  rw [not_or, UInt8.not_lt, UInt8.not_lt] at bounds
  obtain ⟨ton, npi⟩ := toaOctet_read bounds.1 bounds.2
  have len : (UInt8.ofNat (1 + (a.digits.length + 1) / 2)).toNat = 1 + value.length := by
    rw [toNat_ofNat_small (by omega), length]
  have digits : slice (UInt8.ofNat (1 + (a.digits.length + 1) / 2) ::
      toaOctet a.ton a.npi :: value ++ rest) 2 value.length = value :=
    slice_append_length [_, _] value rest
  have read : rpDigits value 0 = .ok a.digits :=
    rpDigits_packDigits valid.symbols (by rw [Nat.zero_add]; exact valid.count) packed
  rw [smsRpAddrDecode, if_neg (by simp)]
  simp only [List.cons_append, List.getD_cons_zero, List.getD_cons_succ]
  have most : smsRpAddrMax = 12 := rfl
  rw [len, ton, npi, if_neg (by omega), if_neg (by omega),
    if_neg (by simp only [List.length_cons, List.length_append]; omega),
    Nat.add_sub_cancel_left]
  rw [List.cons_append, List.cons_append] at digits
  rw [Bool.not_eq_false] at present
  rw [digits, read, ← present]
  show Except.ok _ = Except.ok _
  rw [List.length_cons, List.length_cons, Nat.add_comm value.length, Nat.add_comm]

/-- The fields a message of its type and direction carries; the others are zero. -/
structure RpPdu.Valid (p : RpPdu) : Prop where
  mti : mtiOf p.type p.fromMs = .ok p.mti
  oa : p.oa.Valid
  da : p.da.Valid
  parties : p.type ≠ .data → p.oa = {} ∧ p.da = {}
  cause : p.cause < 128
  causes : p.type ≠ .error → p.cause = 0 ∧ p.hasCauseDiag = false
  diag : p.hasCauseDiag = false → p.causeDiag = 0
  carries : p.type = .data → p.hasUd = true
  bare : p.type = .smma → p.hasUd = false
  ud : p.hasUd = false → p.ud = {}

theorem rpTypeOf_mtiOf {type : RpType} {mti : UInt8} (found : mtiOf type fromMs = .ok mti) :
    mti &&& 0x07 = mti ∧ rpTypeOf mti = some (type, fromMs) := by
  cases type <;> cases fromMs <;> cases found <;> exact ⟨rfl, rfl⟩

theorem smsRpDecode_header {type : RpType} {mti : UInt8}
    (found : mtiOf type fromMs = .ok mti) (mr : UInt8) (r : Bytes) (dir : Int) :
    smsRpDecode (mti :: mr :: r) dir =
      if fromMs ≠ decide (dir % 2 = 0) then .error .mti
      else (do
        let (out, rest) ← rpBody { mti := mti, type := type, fromMs := fromMs, mr := mr } r
        .ok (out, (mti :: mr :: r).length - rest.length)) := by
  obtain ⟨masked, named⟩ := rpTypeOf_mtiOf found
  simp only [smsRpDecode, masked, named]

theorem readRpAddr_encode {a : RpAddr} (valid : a.Valid)
    (encoded : smsRpAddrEncode cap a = .ok out) (rest : Bytes) :
    readRpAddr (out ++ rest) = .ok (a, rest) := by
  rw [readRpAddr, smsRpAddrDecode_encode valid encoded]
  show Except.ok _ = Except.ok _
  rw [List.drop_left]

theorem rpUd_octets (out : RpPdu) (ud : Octets) :
    rpUd out (ud.len :: ud.bytes) = .ok ({ out with hasUd := true, ud := ud }, []) := by
  have read := viewOf_append ud []
  rw [List.append_nil] at read
  simp only [rpUd, u8, bind, Except.bind, read]

theorem rpOptionalUd_put {p : RpPdu} {before written : Bytes} (out : RpPdu)
    (absent : p.hasUd = false → p.ud = {})
    (done : putOptionalUd cap before p = .ok written) (plain : out.hasUd = false)
    (empty : out.ud = {}) :
    ∃ tail, written = before ++ tail ∧
      rpOptionalUd out tail = .ok ({ out with hasUd := p.hasUd, ud := p.ud }, []) := by
  unfold putOptionalUd at done
  split at done
  next has =>
    refine ⟨_, put_ok done, ?_⟩
    rw [rpOptionalUd, if_neg (by simp), rpUd_octets, has]
  next hasNot =>
    cases done
    refine ⟨[], (List.append_nil _).symm, ?_⟩
    rw [Bool.not_eq_true] at hasNot
    rw [hasNot, absent hasNot, ← plain, ← empty]
    rfl

theorem causeOctets_read {p : RpPdu} (valid : p.Valid) (out : RpPdu) (tail : Bytes)
    (plain : out.hasCauseDiag = false) (zero : out.causeDiag = 0) :
    rpError out (causeOctets p ++ tail) = rpOptionalUd
        { out with
          cause := p.cause
          hasCauseDiag := p.hasCauseDiag
          causeDiag := p.causeDiag } tail := by
  have every : ∀ cause : UInt8, cause < 128 → cause &&& 0x7F = cause :=
    forall_octet (by decide +kernel)
  have masked := every p.cause valid.cause
  unfold causeOctets
  cases has : p.hasCauseDiag with
  | true => simp [rpError, u8, bind, Except.bind, masked]
  | false => simp [rpError, u8, bind, Except.bind, masked, valid.diag has, plain, zero]

theorem rpBody_encode {p : RpPdu} (valid : p.Valid) (encoded : smsRpEncode cap p = .ok out) :
    ∃ r, out = p.mti :: p.mr :: r ∧
      rpBody { mti := p.mti, type := p.type, fromMs := p.fromMs, mr := p.mr } r = .ok (p, []) := by
  unfold smsRpEncode at encoded
  obtain ⟨mti, found, encoded⟩ := exists_of_bind_ok encoded
  rw [valid.mti] at found
  cases found
  obtain ⟨header, headed, encoded⟩ := exists_of_bind_ok encoded
  cases put_ok headed
  cases p with
  | mk mti type fromMs mr oa da cause hasCauseDiag causeDiag hasUd ud =>
  cases type with
  | data =>
    obtain ⟨oaOctets, oaEncoded, encoded⟩ := exists_of_bind_ok encoded
    obtain ⟨daOctets, daEncoded, encoded⟩ := exists_of_bind_ok encoded
    have readOa := readRpAddr_encode valid.oa oaEncoded (daOctets ++ ud.len :: ud.bytes)
    have readDa := readRpAddr_encode valid.da daEncoded (ud.len :: ud.bytes)
    refine ⟨oaOctets ++ (daOctets ++ ud.len :: ud.bytes), ?_, ?_⟩
    · rw [put_ok encoded]
      simp
    · obtain ⟨rfl, rfl⟩ := valid.causes (by simp)
      obtain rfl := valid.diag rfl
      obtain rfl := valid.carries rfl
      simp only [rpBody, rpData, readOa, readDa, bind, Except.bind, rpUd_octets]
  | ack =>
    obtain ⟨rfl, rfl⟩ := valid.parties (by simp)
    obtain ⟨rfl, rfl⟩ := valid.causes (by simp)
    obtain rfl := valid.diag rfl
    obtain ⟨tail, rfl, read⟩ := rpOptionalUd_put
      { mti := mti, type := .ack, fromMs := fromMs, mr := mr } valid.ud encoded rfl rfl
    exact ⟨tail, rfl, read⟩
  | error =>
    obtain ⟨rfl, rfl⟩ := valid.parties (by simp)
    obtain ⟨written, caused, encoded⟩ := exists_of_bind_ok encoded
    cases put_ok caused
    obtain ⟨tail, rfl, read⟩ := rpOptionalUd_put
      { mti := mti, type := .error, fromMs := fromMs, mr := mr, cause := cause,
        hasCauseDiag := hasCauseDiag, causeDiag := causeDiag } valid.ud encoded rfl rfl
    refine ⟨_, rfl, ?_⟩
    exact (causeOctets_read valid _ tail rfl rfl).trans read
  | smma =>
    cases encoded
    obtain ⟨rfl, rfl⟩ := valid.parties (by simp)
    obtain ⟨rfl, rfl⟩ := valid.causes (by simp)
    obtain rfl := valid.diag rfl
    obtain rfl := valid.bare rfl
    obtain rfl := valid.ud rfl
    exact ⟨[], rfl, rfl⟩

/-- The type and the plan of the number fit their halves of the octet. -/
def RpAddr.Typed (a : RpAddr) : Prop := a.ton ≤ 7 ∧ a.npi ≤ 15

theorem smsRpAddrEncode_ok {cap : Nat} {a : RpAddr} (valid : a.Valid) (typed : a.Typed)
    (room : smsRpAddrMax ≤ cap) :
    ∃ out, smsRpAddrEncode cap a = .ok out ∧ out.length ≤ smsRpAddrMax := by
  have most : smsRpAddrMax = 12 := rfl
  have count : a.digits.length ≤ 20 := valid.count
  obtain ⟨value, packed, length, _⟩ := packDigits_ok valid.symbols
  unfold smsRpAddrEncode
  split_ifs with absent full types digits
  · omega
  · exact ⟨[0], rfl, by decide⟩
  · exact absurd types (not_or.mpr ⟨UInt8.not_lt.mpr typed.1, UInt8.not_lt.mpr typed.2⟩)
  · exact absurd digits (Nat.not_lt.mpr valid.count)
  · dsimp only
    rw [if_neg (by omega), packed]
    refine ⟨_, rfl, ?_⟩
    rw [List.length_cons, List.length_cons]
    omega

theorem put_of_room {out octets : Bytes} (room : out.length + octets.length ≤ cap) :
    put cap out octets = .ok (out ++ octets) :=
  if_neg (by omega)

theorem putOptionalUd_ok {out : Bytes} (p : RpPdu) (room : out.length + 257 ≤ cap) :
    ∃ written, putOptionalUd cap out p = .ok written := by
  have short := p.ud.bound
  unfold putOptionalUd
  split
  · exact ⟨_, put_of_room (by simp only [List.length_cons]; omega)⟩
  · exact ⟨_, rfl⟩

/-- Two addresses and 255 octets of user data are the longest message. -/
theorem smsRpEncode_ok {p : RpPdu} (valid : p.Valid) (oa : p.oa.Typed)
    (da : p.da.Typed) (room : 282 ≤ cap) : ∃ out, smsRpEncode cap p = .ok out := by
  have most : smsRpAddrMax = 12 := rfl
  have header : put cap [] [p.mti, p.mr] = .ok [p.mti, p.mr] :=
    put_of_room (by simp only [List.length_nil, List.length_cons]; omega)
  simp only [smsRpEncode, valid.mti, header, bind, Except.bind]
  split
  · obtain ⟨first, encoded, firstShort⟩ := @smsRpAddrEncode_ok (cap - 2) _ valid.oa oa (by omega)
    obtain ⟨second, encoded', secondShort⟩ := @smsRpAddrEncode_ok
      (cap - ([p.mti, p.mr] ++ first).length) _ valid.da da
      (by simp only [List.length_append, List.length_cons, List.length_nil]; omega)
    have short := p.ud.bound
    simp only [List.length_cons, List.length_nil, Nat.reduceAdd, encoded, encoded']
    exact ⟨_, put_of_room (by
      simp only [List.length_append, List.length_cons, List.length_nil]
      omega)⟩
  · have short : (causeOctets p).length ≤ 3 := by
      unfold causeOctets
      split <;> simp
    rw [put_of_room (by simp only [List.length_cons, List.length_nil]; omega)]
    exact putOptionalUd_ok p (by
      simp only [List.length_append, List.length_cons, List.length_nil]
      omega)
  · exact putOptionalUd_ok p (by simp only [List.length_cons, List.length_nil]; omega)
  · exact ⟨_, rfl⟩

/-- What `sms_rp_encode` writes, `sms_rp_decode` reads back in the direction of the
message, and refuses in the other one; and with room it writes every message whose
addresses are of a type and plan there is. -/
theorem smsRpDecode_encode {p : RpPdu} (valid : p.Valid) (cap : Nat) :
    (∀ out, smsRpEncode cap p = .ok out → ∀ dir : Int, smsRpDecode out dir =
        if p.fromMs = decide (dir % 2 = 0) then .ok (p, out.length) else .error .mti) ∧
      (p.oa.Typed → p.da.Typed → 282 ≤ cap → ∃ out, smsRpEncode cap p = .ok out) := by
  refine ⟨fun out encoded dir => ?_, smsRpEncode_ok valid⟩
  obtain ⟨r, rfl, read⟩ := rpBody_encode valid encoded
  rw [smsRpDecode_header valid.mti, read]
  by_cases right : p.fromMs = decide (dir % 2 = 0)
  · rw [if_neg (not_not.mpr right), if_pos right]
    rfl
  · rw [if_pos right, if_neg right]

def submittedPdu : RpPdu where
  fromMs := true
  mr := 9
  da := ⟨true, 1, 1, [0x34, 0x39, 0x31, 0x37, 0x30]⟩
  hasUd := true
  ud := { bytes := [1, 2, 3] }

theorem smsRpDecode_encode_submitted :
    ∃ out, smsRpEncode 300 submittedPdu = .ok out ∧
      smsRpDecode out 0 = .ok (submittedPdu, out.length) ∧
      smsRpDecode out 1 = .error .mti := by
  have absent : RpAddr.Valid {} := ⟨fun _ => rfl, by decide, by simp⟩
  have valid : submittedPdu.Valid := by
    refine ⟨rfl, absent, ⟨by decide, by decide, by decide +kernel⟩, ?_,
      by decide, ?_, ?_, ?_, ?_, ?_⟩ <;>
      decide
  obtain ⟨reads, writes⟩ := smsRpDecode_encode valid 300
  obtain ⟨out, encoded⟩ := writes ⟨by decide, by decide⟩ ⟨by decide, by decide⟩ (by decide)
  exact ⟨out, encoded, reads out encoded 0, reads out encoded 1⟩

end Pro2Call.Sms

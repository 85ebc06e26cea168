import Pro2Call.Sms.Gsm7
import Pro2Call.Data.Run

namespace Pro2Call.Sms

open Pro2Call.Data

def bcdSymbols : Bytes :=
  [0x30, 0x31, 0x32, 0x33, 0x34, 0x35, 0x36, 0x37, 0x38, 0x39, 0x2A, 0x23, 0x61, 0x62, 0x63]

def smsBcdChar (nib : UInt8) : UInt8 := bcdSymbols.getD (nib &&& 0x0F).toNat 0

def smsBcdNibble (c : UInt8) : UInt8 :=
  if 0x30 ≤ c ∧ c ≤ 0x39 then c - 0x30
  else if c = 0x2A then 0x0A
  else if c = 0x23 then 0x0B
  else if c = 0x61 ∨ c = 0x41 then 0x0C
  else if c = 0x62 ∨ c = 0x42 then 0x0D
  else if c = 0x63 ∨ c = 0x43 then 0x0E
  else 0xFF

def bcdOctet (low high : UInt8) : UInt8 := high <<< 4 ||| low

def packDigits : Bytes → Except SmsErr Bytes
  | [] => .ok []
  | [c] =>
    if smsBcdNibble c = 0xFF then .error .inval
    else .ok [bcdOctet (smsBcdNibble c) 0x0F]
  | c :: d :: rest =>
    if smsBcdNibble c = 0xFF then .error .inval
    else if smsBcdNibble d = 0xFF then .error .inval
    else do
      let octets ← packDigits rest
      .ok (bcdOctet (smsBcdNibble c) (smsBcdNibble d) :: octets)

def unpackDigits : Nat → Bytes → Except SmsErr Bytes
  | 0, _ => .ok []
  | _ + 1, [] => .ok []
  | 1, o :: _ =>
    if smsBcdChar (o &&& 0x0F) = 0 then .error .length
    else .ok [smsBcdChar (o &&& 0x0F)]
  | left + 2, o :: rest =>
    if smsBcdChar (o &&& 0x0F) = 0 then .error .length
    else if smsBcdChar (o >>> 4) = 0 then .error .length
    else do
      let digits ← unpackDigits left rest
      .ok (smsBcdChar (o &&& 0x0F) :: smsBcdChar (o >>> 4) :: digits)

def smsAddrMaxDigits : Nat := 20
def smsAddrMaxOctets : Nat := 12
def smsAddrMaxText : Nat := 35

def tonAlphanum : UInt8 := 5

structure Addr where
  ton : UInt8 := 0
  npi : UInt8 := 0
  digits : Bytes := []
  deriving DecidableEq, Repr

def addrText (value : Bytes) : Except SmsErr Bytes := do
  let septets := if 16 < value.length * 8 / 7 then 16 else value.length * 8 / 7
  let sep ← smsGsm7Unpack value 0 septets 16
  smsGsm7ToUtf8 sep (smsAddrMaxText + 1)

def addrDigits (ton : UInt8) (alen : Nat) (value : Bytes) : Except SmsErr Bytes :=
  if ton = tonAlphanum then addrText value else unpackDigits alen value

def smsAddrDecode (b : Bytes) : Except SmsErr (Addr × Nat) :=
  if b.length < 2 then .error .short
  else
    let alen := (b.getD 0 0).toNat
    let ton := b.getD 1 0 >>> 4 &&& 0x07
    let npi := b.getD 1 0 &&& 0x0F
    if smsAddrMaxDigits < alen then .error .length
    else
      let vlen := (alen + 1) / 2
      if b.length < 2 + vlen then .error .short
      else do
        let digits ← addrDigits ton alen (slice b 2 vlen)
        .ok (⟨ton, npi, digits⟩, 2 + vlen)

def toaOctet (ton npi : UInt8) : UInt8 := (0x80 : UInt8) ||| ton <<< 4 ||| npi

def smsAddrEncode (cap : Nat) (a : Addr) : Except SmsErr Bytes :=
  if 7 < a.ton ∨ 15 < a.npi then .error .inval
  else if a.ton = tonAlphanum then do
    let sep ← smsGsm7FromUtf8 a.digits smsAddrMaxDigits
    let vlen := (sep.length * 7 + 7) / 8
    if smsAddrMaxOctets - 2 < vlen then .error .length
    else if cap < 2 + vlen then .error .overflow
    else do
      let (_, value) ← smsGsm7Pack sep 0 (List.replicate vlen 0)
      .ok (UInt8.ofNat (vlen * 2) :: toaOctet a.ton a.npi :: value)
  else
    let alen := a.digits.length
    if smsAddrMaxDigits < alen then .error .length
    else
      let vlen := (alen + 1) / 2
      if cap < 2 + vlen then .error .overflow
      else do
        let value ← packDigits a.digits
        .ok (UInt8.ofNat alen :: toaOctet a.ton a.npi :: value)

theorem smsBcdNibble_symbol : ∀ c ∈ bcdSymbols, smsBcdNibble c ≠ 0xFF ∧ c ≠ 0 := by
  decide +kernel

theorem smsBcdChar_pair : ∀ c ∈ bcdSymbols, ∀ d ∈ bcdSymbols,
    smsBcdChar (bcdOctet (smsBcdNibble c) (smsBcdNibble d) &&& 0x0F) = c ∧
      smsBcdChar (bcdOctet (smsBcdNibble c) (smsBcdNibble d) >>> 4) = d := by
  decide +kernel

theorem smsBcdChar_filled : ∀ c ∈ bcdSymbols,
    smsBcdChar (bcdOctet (smsBcdNibble c) 0x0F &&& 0x0F) = c ∧
      smsBcdChar (bcdOctet (smsBcdNibble c) 0x0F >>> 4) = 0 := by
  decide +kernel

theorem smsBcdChar_mem : ∀ nib : UInt8, smsBcdChar nib ≠ 0 → smsBcdChar nib ∈ bcdSymbols :=
  forall_octet (by decide +kernel)

theorem packDigits_ok (symbols : ∀ c ∈ digits, c ∈ bcdSymbols) :
    ∃ value, packDigits digits = .ok value ∧ value.length = (digits.length + 1) / 2 ∧
      unpackDigits digits.length value = .ok digits := by
  induction digits using packDigits.induct with
  | case1 => exact ⟨[], rfl, rfl, rfl⟩
  | case2 c bad =>
    exact absurd bad (smsBcdNibble_symbol _ (symbols c List.mem_cons_self)).1
  | case3 c good =>
    have symbol := symbols c List.mem_cons_self
    have low := (smsBcdChar_filled _ symbol).1
    refine ⟨[bcdOctet (smsBcdNibble c) 0x0F], by rw [packDigits, if_neg good], by simp, ?_⟩
    rw [List.length_singleton, unpackDigits, low, if_neg (smsBcdNibble_symbol _ symbol).2]
  | case4 c d rest bad =>
    exact absurd bad (smsBcdNibble_symbol _ (symbols c List.mem_cons_self)).1
  | case5 c d rest good bad =>
    have member : d ∈ c :: d :: rest := List.mem_cons_of_mem c List.mem_cons_self
    exact absurd bad (smsBcdNibble_symbol _ (symbols d member)).1
  | case6 c d rest first second ih =>
    have low := symbols c List.mem_cons_self
    have high := symbols d (List.mem_cons_of_mem c List.mem_cons_self)
    obtain ⟨value, packed, length, unpacked⟩ := ih fun x member =>
      symbols x (List.mem_cons_of_mem c (List.mem_cons_of_mem d member))
    obtain ⟨lowRead, highRead⟩ := smsBcdChar_pair _ low _ high
    refine ⟨bcdOctet (smsBcdNibble c) (smsBcdNibble d) :: value, ?_, ?_, ?_⟩
    · rw [packDigits, if_neg first, if_neg second, packed]
      rfl
    · simp only [List.length_cons, length]
      omega
    · rw [List.length_cons, List.length_cons, unpackDigits, lowRead, highRead,
        if_neg (smsBcdNibble_symbol _ low).2, if_neg (smsBcdNibble_symbol _ high).2, unpacked]
      rfl

theorem unpackDigits_ok {value digits : Bytes} (unpacked : unpackDigits left value = .ok digits)
    (length : value.length = (left + 1) / 2) :
    digits.length = left ∧ ∀ c ∈ digits, c ∈ bcdSymbols := by
  induction left, value using unpackDigits.induct generalizing digits with
  | case1 value =>
    cases unpacked
    simp
  | case2 left =>
    simp only [List.length_nil] at length
    omega
  | case3 o rest bad =>
    rw [unpackDigits, if_pos bad] at unpacked
    contradiction
  | case4 o rest good =>
    rw [unpackDigits, if_neg good] at unpacked
    cases unpacked
    simpa using smsBcdChar_mem _ good
  | case5 left o rest bad =>
    rw [unpackDigits, if_pos bad] at unpacked
    contradiction
  | case6 left o rest good bad =>
    rw [unpackDigits, if_neg good, if_pos bad] at unpacked
    contradiction
  | case7 left o rest low high ih =>
    rw [unpackDigits, if_neg low, if_neg high] at unpacked
    obtain ⟨more, inner, unpacked⟩ := exists_of_bind_ok unpacked
    cases unpacked
    simp only [List.length_cons] at length
    obtain ⟨count, symbols⟩ := ih inner (by omega)
    refine ⟨by simp [count], ?_⟩
    intro c member
    rw [List.mem_cons, List.mem_cons] at member
    obtain rfl | rfl | member := member
    · exact smsBcdChar_mem _ low
    · exact smsBcdChar_mem _ high
    · exact symbols c member

theorem toaOctet_read (tonBound : ton ≤ 7) (npiBound : npi ≤ 15) :
    toaOctet ton npi >>> 4 &&& 0x07 = ton ∧ toaOctet ton npi &&& 0x0F = npi := by
  have every : ∀ ton : UInt8, ton ≤ 7 → ∀ npi : Fin 256, UInt8.ofFin npi ≤ 15 →
      toaOctet ton (.ofFin npi) >>> 4 &&& 0x07 = ton ∧
        toaOctet ton (.ofFin npi) &&& 0x0F = .ofFin npi :=
    forall_octet (by decide +kernel)
  exact every ton tonBound npi.toFin npiBound

theorem toa_bounds : ∀ toa : UInt8, toa >>> 4 &&& 0x07 ≤ 7 ∧ toa &&& 0x0F ≤ 15 :=
  forall_octet (by decide +kernel)

structure Addr.Numeric (a : Addr) : Prop where
  ton : a.ton ≤ 7
  number : a.ton ≠ tonAlphanum
  npi : a.npi ≤ 15
  count : a.digits.length ≤ smsAddrMaxDigits
  symbols : ∀ c ∈ a.digits, c ∈ bcdSymbols

theorem toNat_ofNat_small (small : n ≤ 20) : (UInt8.ofNat n).toNat = n := by
  rw [UInt8.toNat_ofNat']
  omega

theorem smsAddrEncode_numeric {a : Addr} (numeric : a.Numeric) :
    ∃ octets, octets.length ≤ smsAddrMaxOctets ∧
      (∀ cap, octets.length ≤ cap → smsAddrEncode cap a = .ok octets) ∧
      ∀ rest, smsAddrDecode (octets ++ rest) = .ok (a, octets.length) := by
  have count : a.digits.length ≤ 20 := numeric.count
  obtain ⟨value, packed, length, unpacked⟩ := packDigits_ok numeric.symbols
  obtain ⟨ton, npi⟩ := toaOctet_read numeric.ton numeric.npi
  refine ⟨UInt8.ofNat a.digits.length :: toaOctet a.ton a.npi :: value, ?_, ?_, ?_⟩
  · show value.length + 1 + 1 ≤ 12
    omega
  · intro cap room
    have small : ¬(7 < a.ton ∨ 15 < a.npi) :=
      not_or.mpr ⟨UInt8.not_lt.mpr numeric.ton, UInt8.not_lt.mpr numeric.npi⟩
    rw [List.length_cons, List.length_cons] at room
    rw [smsAddrEncode, if_neg small, if_neg numeric.number]
    dsimp only
    rw [if_neg (Nat.not_lt.mpr numeric.count), if_neg (by omega), packed]
    rfl
  · intro rest
    have digits : slice (UInt8.ofNat a.digits.length :: toaOctet a.ton a.npi :: value ++ rest)
        2 ((a.digits.length + 1) / 2) = value := by
      rw [← length]
      exact slice_append_length [_, _] value rest
    have whole : (UInt8.ofNat a.digits.length :: toaOctet a.ton a.npi :: value ++ rest).length =
        2 + value.length + rest.length := by
      simp only [List.cons_append, List.length_cons, List.length_append]
      omega
    have first : (UInt8.ofNat a.digits.length :: toaOctet a.ton a.npi :: value ++ rest).getD 0 0 =
        UInt8.ofNat a.digits.length := rfl
    have second : (UInt8.ofNat a.digits.length :: toaOctet a.ton a.npi :: value ++ rest).getD 1 0 =
        toaOctet a.ton a.npi := rfl
    rw [smsAddrDecode, if_neg (by omega)]
    dsimp only
    rw [first, second, ton, npi, toNat_ofNat_small count,
      if_neg (Nat.not_lt.mpr numeric.count), if_neg (by omega), addrDigits,
      if_neg numeric.number, digits, unpacked]
    show Except.ok _ = Except.ok _
    rw [List.length_cons, List.length_cons, length, Nat.add_comm 2]

theorem smsAddrDecode_ok (decoded : smsAddrDecode b = .ok (a, k)) :
    k ≤ b.length ∧ k = 2 + ((b.getD 0 0).toNat + 1) / 2 ∧ (a.ton ≠ tonAlphanum → a.Numeric) := by
  unfold smsAddrDecode at decoded
  split at decoded
  · contradiction
  dsimp only at decoded
  split at decoded
  · contradiction
  next few =>
  split at decoded
  · contradiction
  next room =>
  obtain ⟨digits, read, decoded⟩ := exists_of_bind_ok decoded
  cases decoded
  obtain ⟨ton, npi⟩ := toa_bounds (b.getD 1 0)
  refine ⟨Nat.not_lt.mp room, rfl, ?_⟩
  intro number
  dsimp only at number
  rw [addrDigits, if_neg number] at read
  obtain ⟨count, symbols⟩ := unpackDigits_ok read (length_slice (Nat.not_lt.mp room))
  exact ⟨ton, number, npi, by rw [count]; exact Nat.not_lt.mp few, symbols⟩

end Pro2Call.Sms

import Pro2Call.Data.Bytes
import Pro2Call.Data.Run

namespace Pro2Call.Rtp

open Pro2Call.Data

abbrev Bytes := List UInt8

inductive RtpErr where
  | short
  | version
  | format
  | overflow
  | inval
  deriving DecidableEq, Repr

def RtpErr.code : RtpErr → Int
  | .short => -1
  | .version => -2
  | .format => -3
  | .overflow => -4
  | .inval => -5

def rtpRd16 (b : Bytes) (off : Nat) : UInt16 := .ofNat (beNat (slice b off 2))

def rtpRd32 (b : Bytes) (off : Nat) : UInt32 := .ofNat (beNat (slice b off 4))

def rtpWr16 (v : UInt16) : Bytes := beBytes 2 v.toNat

def rtpWr32 (v : UInt32) : Bytes := beBytes 4 v.toNat

@[simp] theorem length_rtpWr16 (v : UInt16) : (rtpWr16 v).length = 2 := length_beBytes 2 _

@[simp] theorem length_rtpWr32 (v : UInt32) : (rtpWr32 v).length = 4 := length_beBytes 4 _

theorem rtpRd16_written (front : Bytes) (v : UInt16) (tail : Bytes) :
    rtpRd16 (front ++ rtpWr16 v ++ tail) front.length = v := by
  have field : slice (front ++ rtpWr16 v ++ tail) front.length 2 = rtpWr16 v :=
    slice_append_length front (rtpWr16 v) tail
  rw [rtpRd16, field, rtpWr16, beNat_beBytes v.toNat_lt, UInt16.ofNat_toNat]

theorem rtpRd32_written (front : Bytes) (v : UInt32) (tail : Bytes) :
    rtpRd32 (front ++ rtpWr32 v ++ tail) front.length = v := by
  have field : slice (front ++ rtpWr32 v ++ tail) front.length 4 = rtpWr32 v :=
    slice_append_length front (rtpWr32 v) tail
  rw [rtpRd32, field, rtpWr32, beNat_beBytes v.toNat_lt, UInt32.ofNat_toNat]

structure View where
  bytes : Bytes
  bound : bytes.length < 0x100000000
  deriving DecidableEq, Repr

def View.of (bytes : Bytes) : View where
  bytes := bytes.take (bytes.length % 0x100000000)
  bound := by
    rw [List.length_take]
    omega

def View.empty : View := ⟨[], by decide⟩

theorem View.of_bytes (view : View) : View.of view.bytes = view := by
  cases view with
  | mk bytes bound => simp [View.of, Nat.mod_eq_of_lt bound]

theorem View.bytes_of {bytes : Bytes} (bound : bytes.length < 0x100000000) :
    (View.of bytes).bytes = bytes := by
  simp [View.of, Nat.mod_eq_of_lt bound]

def rtpMaxCsrc : Nat := 15
def rtpHdrLen : Nat := 12

structure RtpPkt where
  marker : Bool := false
  pt : UInt8 := 0
  seq : UInt16 := 0
  ts : UInt32 := 0
  ssrc : UInt32 := 0
  cc : UInt8 := 0
  csrc : Vector UInt32 rtpMaxCsrc := Vector.replicate rtpMaxCsrc 0
  hasExt : Bool := false
  extProfile : UInt16 := 0
  ext : View := .empty
  payload : View := .empty
  deriving DecidableEq, Repr

/-- The header extension of a packet whose X bit is `hasExt`: profile, data and
the offset behind it. -/
def parseExt (hasExt : Bool) (b : Bytes) (off : Nat) : Except RtpErr (UInt16 × View × Nat) :=
  if hasExt then
    if b.length < off + 4 then .error .short
    else
      let extLen := (rtpRd16 b (off + 2)).toNat * 4
      if b.length < off + 4 + extLen then .error .short
      else .ok (rtpRd16 b off, .of (slice b (off + 4) extLen), off + 4 + extLen)
  else .ok (0, .empty, off)

/-- The octets from `off` on that are payload: padding is cut off. -/
def payloadLen (pad : Bool) (b : Bytes) (off : Nat) : Except RtpErr Nat :=
  let plen := b.length - off
  if pad then
    if plen = 0 then .error .format
    else
      let npad := (b.getD (b.length - 1) 0).toNat
      if npad = 0 ∨ plen < npad then .error .format else .ok (plen - npad)
  else .ok plen

def rtpPktParse (b : Bytes) : Except RtpErr RtpPkt :=
  if b.length < rtpHdrLen then .error .short
  else
    let b0 := b.getD 0 0
    let b1 := b.getD 1 0
    if b0 >>> 6 ≠ 2 then .error .version
    else
      let pad := decide (b0 >>> 5 &&& 1 ≠ 0)
      let hasExt := decide (b0 >>> 4 &&& 1 ≠ 0)
      let cc := b0 &&& 0x0F
      let off := rtpHdrLen + cc.toNat * 4
      if b.length < off then .error .short
      else do
        let (extProfile, ext, off) ← parseExt hasExt b off
        let plen ← payloadLen pad b off
        .ok
          { marker := decide (b1 >>> 7 &&& 1 ≠ 0)
            pt := b1 &&& 0x7F
            seq := rtpRd16 b 2
            ts := rtpRd32 b 4
            ssrc := rtpRd32 b 8
            cc := cc
            csrc := .ofFn fun i =>
              if i.val < cc.toNat then rtpRd32 b (rtpHdrLen + i.val * 4) else 0
            hasExt := hasExt
            extProfile := extProfile
            ext := ext
            payload := .of (slice b off plen) }

/-- The octets `rtp_pkt_encode` takes the packet to need; `4 + p->ext_len` is a
sum of 32 bits. -/
def RtpPkt.need (p : RtpPkt) : Nat :=
  rtpHdrLen + p.cc.toNat * 4 + (if p.hasExt then (4 + p.ext.bytes.length) % 0x100000000 else 0) +
    p.payload.bytes.length

def RtpPkt.fixedOctets (p : RtpPkt) : Bytes :=
  [0x80 ||| (if p.hasExt then 0x10 else 0) ||| p.cc, (if p.marker then 0x80 else 0) ||| p.pt] ++
    rtpWr16 p.seq ++ rtpWr32 p.ts ++ rtpWr32 p.ssrc

def RtpPkt.csrcOctets (p : RtpPkt) : Bytes := (p.csrc.toList.take p.cc.toNat).flatMap rtpWr32

def RtpPkt.extOctets (p : RtpPkt) : Bytes :=
  if p.hasExt then
    rtpWr16 p.extProfile ++ rtpWr16 (.ofNat (p.ext.bytes.length / 4)) ++ p.ext.bytes
  else []

def rtpPktEncode (p : RtpPkt) (cap : Nat) : Int × Bytes :=
  if rtpMaxCsrc < p.cc.toNat ∨ 127 < p.pt then (RtpErr.inval.code, [])
  else if p.hasExt = true ∧ p.ext.bytes.length % 4 ≠ 0 then (RtpErr.inval.code, [])
  else if cap < p.need then (RtpErr.overflow.code, [])
  else (Int.bmod p.need 0x100000000,
    p.fixedOctets ++ p.csrcOctets ++ p.extOctets ++ p.payload.bytes)

def RtpPkt.size (p : RtpPkt) : Nat :=
  rtpHdrLen + p.cc.toNat * 4 + (if p.hasExt then 4 + p.ext.bytes.length else 0) +
    p.payload.bytes.length

/-- The wire has room for the packet, and the packet says nothing that the wire
has no place for. -/
structure RtpPkt.Carried (p : RtpPkt) : Prop where
  words : p.hasExt = true → p.ext.bytes.length < 0x40000
  size : p.size ≤ 0x7FFFFFFF
  plain : p.hasExt = false → p.extProfile = 0 ∧ p.ext = .empty
  slots : ∀ i : Fin rtpMaxCsrc, p.cc.toNat ≤ i.val → p.csrc[i] = 0

theorem parseExt_ok {b : Bytes} {off next : Nat} (inside : off ≤ b.length)
    (parsed : parseExt hasExt b off = .ok (profile, ext, next)) :
    next ≤ b.length ∧ next = off + (if hasExt then 4 + ext.bytes.length else 0) ∧
      (hasExt = true → ext.bytes.length < 0x40000) ∧
      (hasExt = false → profile = 0 ∧ ext = .empty) := by
  cases hasExt with
  | false =>
    cases parsed
    simpa using inside
  | true =>
    rw [parseExt, if_pos rfl] at parsed
    split at parsed
    · contradiction
    dsimp only at parsed
    split at parsed
    · contradiction
    next room =>
    have words := (rtpRd16 b (off + 2)).toNat_lt
    have length : (slice b (off + 4) ((rtpRd16 b (off + 2)).toNat * 4)).length =
        (rtpRd16 b (off + 2)).toNat * 4 := length_slice (Nat.not_lt.mp room)
    cases parsed
    rw [View.bytes_of (by omega), length]
    refine ⟨Nat.not_lt.mp room, ?_, ?_, ?_⟩
    · rw [if_pos rfl, Nat.add_assoc]
    · omega
    · simp

theorem payloadLen_ok {pad : Bool} (measured : payloadLen pad b off = .ok plen) :
    plen ≤ b.length - off := by
  unfold payloadLen at measured
  dsimp only at measured
  split at measured
  · split at measured
    · contradiction
    split at measured
    · contradiction
    · cases measured
      omega
  · cases measured
    exact Nat.le_refl _

theorem rtpPktParse_ok {b : Bytes} (short : b.length ≤ 0x7FFFFFFF)
    (parsed : rtpPktParse b = .ok p) : p.Carried := by
  unfold rtpPktParse at parsed
  dsimp only at parsed
  split at parsed
  · contradiction
  split at parsed
  · contradiction
  split at parsed
  · contradiction
  next inside =>
  obtain ⟨⟨profile, ext, next⟩, extended, parsed⟩ := exists_of_bind_ok parsed
  obtain ⟨plen, measured, parsed⟩ := exists_of_bind_ok parsed
  obtain ⟨within, behind, words, plain⟩ := parseExt_ok (Nat.not_lt.mp inside) extended
  have most : plen ≤ b.length - next := payloadLen_ok measured
  cases parsed
  constructor
  case words => exact words
  case plain => exact plain
  case size =>
    have length : (slice b next plen).length = plen := length_slice (by omega)
    simp only [RtpPkt.size]
    rw [← behind, View.bytes_of (by omega), length]
    omega
  case slots =>
    intro i past
    simp only [Fin.getElem_fin, Vector.getElem_ofFn]
    rw [if_neg (Nat.not_lt.mpr past)]

theorem first_octet : ∀ cc : UInt8, ∀ hasExt : Bool, cc.toNat ≤ rtpMaxCsrc →
    (0x80 ||| (if hasExt then 0x10 else 0) ||| cc) >>> 6 = 2 ∧
    (0x80 ||| (if hasExt then 0x10 else 0) ||| cc) >>> 5 &&& 1 = 0 ∧
    decide ((0x80 ||| (if hasExt then 0x10 else 0) ||| cc) >>> 4 &&& 1 ≠ 0) = hasExt ∧
    (0x80 ||| (if hasExt then 0x10 else 0) ||| cc) &&& 0x0F = cc :=
  forall_octet (by decide +kernel)

theorem second_octet : ∀ pt : UInt8, ∀ marker : Bool, pt ≤ 127 →
    decide (((if marker then 0x80 else 0) ||| pt) >>> 7 &&& 1 ≠ 0) = marker ∧
      ((if marker then 0x80 else 0) ||| pt) &&& 0x7F = pt :=
  forall_octet (by decide +kernel)

@[simp] theorem RtpPkt.length_fixedOctets (p : RtpPkt) : p.fixedOctets.length = rtpHdrLen := by
  simp [RtpPkt.fixedOctets, rtpHdrLen]

theorem length_flatMap_rtpWr32 (csrc : List UInt32) :
    (csrc.flatMap rtpWr32).length = csrc.length * 4 := by
  induction csrc with
  | nil => rfl
  | cons first rest ih =>
    rw [List.flatMap_cons, List.length_append, ih, length_rtpWr32, List.length_cons]
    omega

theorem RtpPkt.length_csrcOctets {p : RtpPkt} (few : p.cc.toNat ≤ rtpMaxCsrc) :
    p.csrcOctets.length = p.cc.toNat * 4 := by
  rw [RtpPkt.csrcOctets, length_flatMap_rtpWr32, List.length_take, Vector.length_toList,
    Nat.min_eq_left few]

theorem RtpPkt.length_extOctets (p : RtpPkt) :
    p.extOctets.length = if p.hasExt then 4 + p.ext.bytes.length else 0 := by
  unfold RtpPkt.extOctets
  split
  · simp only [List.length_append, length_rtpWr16]
  · rfl

theorem flatMap_rtpWr32_split (csrc : List UInt32) (inside : i < csrc.length) :
    csrc.flatMap rtpWr32 = (csrc.take i).flatMap rtpWr32 ++ rtpWr32 csrc[i] ++
        (csrc.drop (i + 1)).flatMap rtpWr32 := by
  conv => lhs; rw [← List.take_append_drop i csrc, List.drop_eq_getElem_cons inside]
  rw [List.flatMap_append, List.flatMap_cons, List.append_assoc]

theorem RtpPkt.rtpRd32_csrc {p : RtpPkt} {i : Fin rtpMaxCsrc} (listed : i.val < p.cc.toNat)
    (tail : Bytes) :
    rtpRd32 (p.fixedOctets ++ p.csrcOctets ++ tail) (rtpHdrLen + i.val * 4) = p.csrc[i] := by
  have slot : i.val < (p.csrc.toList.take p.cc.toNat).length := by
    rw [List.length_take, Vector.length_toList]
    have bound := i.isLt
    omega
  have split := flatMap_rtpWr32_split _ slot
  have value : (p.csrc.toList.take p.cc.toNat)[i.val] = p.csrc[i] := by
    simp [List.getElem_take]
  rw [value] at split
  have before : (((p.csrc.toList.take p.cc.toNat).take i.val).flatMap rtpWr32).length =
      i.val * 4 := by
    rw [length_flatMap_rtpWr32, List.length_take, Nat.min_eq_left (Nat.le_of_lt slot)]
  have read := rtpRd32_written
    (p.fixedOctets ++ ((p.csrc.toList.take p.cc.toNat).take i.val).flatMap rtpWr32) p.csrc[i]
    (((p.csrc.toList.take p.cc.toNat).drop (i.val + 1)).flatMap rtpWr32 ++ tail)
  rw [List.length_append, before, p.length_fixedOctets] at read
  rw [RtpPkt.csrcOctets, split]
  simpa only [List.append_assoc] using read

theorem RtpPkt.fixedOctets_read (p : RtpPkt) (tail : Bytes) :
    let b := p.fixedOctets ++ tail
    b.getD 0 0 = 0x80 ||| (if p.hasExt then 0x10 else 0) ||| p.cc ∧
      b.getD 1 0 = (if p.marker then 0x80 else 0) ||| p.pt ∧
      rtpRd16 b 2 = p.seq ∧ rtpRd32 b 4 = p.ts ∧ rtpRd32 b 8 = p.ssrc := by
  intro b
  have read16 := fun b0 b1 => rtpRd16_written [b0, b1] p.seq
    (rtpWr32 p.ts ++ rtpWr32 p.ssrc ++ tail)
  have read32 := fun b0 b1 => rtpRd32_written ([b0, b1] ++ rtpWr16 p.seq) p.ts
    (rtpWr32 p.ssrc ++ tail)
  have last32 := fun b0 b1 =>
    rtpRd32_written ([b0, b1] ++ rtpWr16 p.seq ++ rtpWr32 p.ts) p.ssrc tail
  simp only [List.append_assoc] at read16 read32 last32
  simp only [b, RtpPkt.fixedOctets, List.append_assoc]
  exact ⟨rfl, rfl, read16 _ _, read32 _ _, last32 _ _⟩

theorem RtpPkt.parseExt_octets {p : RtpPkt} (carried : p.Carried)
    (whole : p.hasExt = true → p.ext.bytes.length % 4 = 0) (front tail : Bytes) :
    parseExt p.hasExt (front ++ p.extOctets ++ tail) front.length =
      .ok (p.extProfile, p.ext, front.length + p.extOctets.length) := by
  cases extended : p.hasExt with
  | false =>
    obtain ⟨profile, ext⟩ := carried.plain extended
    rw [parseExt, if_neg (by decide), profile, ext, p.length_extOctets, extended]
    rfl
  | true =>
    have words := carried.words extended
    have multiple := whole extended
    have length := p.length_extOctets
    rw [extended, if_pos rfl] at length
    have profile := rtpRd16_written front p.extProfile
      (rtpWr16 (.ofNat (p.ext.bytes.length / 4)) ++ p.ext.bytes ++ tail)
    have count := rtpRd16_written (front ++ rtpWr16 p.extProfile)
      (.ofNat (p.ext.bytes.length / 4)) (p.ext.bytes ++ tail)
    rw [List.length_append, length_rtpWr16] at count
    have data := slice_append_length
      (front ++ rtpWr16 p.extProfile ++ rtpWr16 (.ofNat (p.ext.bytes.length / 4)))
      p.ext.bytes tail
    have layout : p.extOctets = rtpWr16 p.extProfile ++
        rtpWr16 (.ofNat (p.ext.bytes.length / 4)) ++ p.ext.bytes := by
      rw [RtpPkt.extOctets, if_pos extended]
    have size : (UInt16.ofNat (p.ext.bytes.length / 4)).toNat * 4 = p.ext.bytes.length := by
      rw [UInt16.toNat_ofNat']
      omega
    simp only [List.length_append, length_rtpWr16, List.append_assoc] at profile count data
    rw [parseExt, if_pos rfl, if_neg (by simp only [List.length_append]; omega)]
    dsimp only
    simp only [layout, List.append_assoc]
    rw [profile, count, size, if_neg (by simp only [List.length_append, length_rtpWr16]; omega)]
    rw [data, View.of_bytes]
    simp only [List.length_append, length_rtpWr16]
    rw [show front.length + (2 + (2 + p.ext.bytes.length)) =
      front.length + 4 + p.ext.bytes.length by omega]

theorem rtpPktParse_octets {p : RtpPkt} (carried : p.Carried)
    (few : p.cc.toNat ≤ rtpMaxCsrc) (small : p.pt ≤ 127)
    (whole : p.hasExt = true → p.ext.bytes.length % 4 = 0) :
    rtpPktParse (p.fixedOctets ++ p.csrcOctets ++ p.extOctets ++ p.payload.bytes) = .ok p := by
  have lists : p.csrcOctets.length = p.cc.toNat * 4 := RtpPkt.length_csrcOctets few
  have extended := RtpPkt.parseExt_octets carried whole (p.fixedOctets ++ p.csrcOctets)
    p.payload.bytes
  have front : (p.fixedOctets ++ p.csrcOctets).length = rtpHdrLen + p.cc.toNat * 4 := by
    rw [List.length_append, p.length_fixedOctets, lists]
  have fixed := p.fixedOctets_read (p.csrcOctets ++ p.extOctets ++ p.payload.bytes)
  have slot := fun (i : Fin rtpMaxCsrc) (listed : i.val < p.cc.toNat) =>
    RtpPkt.rtpRd32_csrc listed (p.extOctets ++ p.payload.bytes)
  have payload := slice_append_length (p.fixedOctets ++ p.csrcOctets ++ p.extOctets)
    p.payload.bytes []
  have length : (p.fixedOctets ++ p.csrcOctets ++ p.extOctets ++ p.payload.bytes).length =
      rtpHdrLen + p.cc.toNat * 4 + p.extOctets.length + p.payload.bytes.length := by
    rw [List.length_append, List.length_append, front]
  obtain ⟨version, pad, hasExt, cc⟩ := first_octet _ p.hasExt few
  obtain ⟨marker, pt⟩ := second_octet _ p.marker small
  rw [← List.append_assoc, ← List.append_assoc] at fixed
  rw [← List.append_assoc] at slot
  rw [List.append_nil, List.length_append] at payload
  generalize p.fixedOctets ++ p.csrcOctets ++ p.extOctets ++ p.payload.bytes = b at *
  obtain ⟨b0, b1, seq, ts, ssrc⟩ := fixed
  unfold rtpPktParse
  rw [if_neg (by omega)]
  dsimp only
  rw [b0, b1, version, pad, hasExt, cc, marker, pt, seq, ts, ssrc, ← front, extended,
    if_neg (by decide), if_neg (by omega)]
  have csrc : (Vector.ofFn fun i : Fin rtpMaxCsrc =>
      if i.val < p.cc.toNat then rtpRd32 b (rtpHdrLen + i.val * 4) else 0) = p.csrc := by
    apply Vector.ext
    intro i inside
    rw [Vector.getElem_ofFn]
    split
    next listed => exact slot ⟨i, inside⟩ listed
    next past => exact (carried.slots ⟨i, inside⟩ (Nat.not_lt.mp past)).symm
  have plen : payloadLen (decide ((0 : UInt8) ≠ 0)) b
      ((p.fixedOctets ++ p.csrcOctets).length + p.extOctets.length) =
        .ok p.payload.bytes.length := by
    rw [payloadLen, if_neg (by decide), length, front, Nat.add_sub_cancel_left]
  simp only [bind, Except.bind, plen, csrc, payload, View.of_bytes]

theorem RtpPkt.need_eq_size {p : RtpPkt} (carried : p.Carried) : p.need = p.size := by
  unfold RtpPkt.need RtpPkt.size
  split
  next extended =>
    have words := carried.words extended
    rw [Nat.mod_eq_of_lt (by omega)]
  next => rfl

/-- A packet the encoder accepts is read back as it was exactly when its
extension counts at most 65535 words, its size is one the encoder can return
and the fields that are not sent are zero. -/
theorem rtpPktParse_encode_iff (p : RtpPkt) (cap : Nat) (accepted : 0 ≤ (rtpPktEncode p cap).1) :
    rtpPktParse ((rtpPktEncode p cap).2.take (rtpPktEncode p cap).1.toNat) = .ok p ↔ p.Carried := by
  unfold rtpPktEncode at *
  split at accepted
  · contradiction
  split at accepted
  · contradiction
  split at accepted
  · contradiction
  next header extension room =>
  rw [if_neg header, if_neg extension, if_neg room]
  dsimp only at *
  constructor
  · intro parsed
    apply rtpPktParse_ok _ parsed
    have most : Int.bmod p.need 0x100000000 < (0x100000000 + 1) / 2 := Int.bmod_lt (by decide)
    have shorter := List.length_take_le (Int.bmod p.need 0x100000000).toNat
      (p.fixedOctets ++ p.csrcOctets ++ p.extOctets ++ p.payload.bytes)
    omega
  · intro carried
    have few : p.cc.toNat ≤ rtpMaxCsrc := by omega
    have small : p.pt ≤ 127 := by
      rw [not_or, UInt8.not_lt] at header
      exact header.2
    have whole : p.hasExt = true → p.ext.bytes.length % 4 = 0 := by
      intro extended
      by_contra odd
      exact extension ⟨extended, odd⟩
    have value : Int.bmod p.need 0x100000000 = p.size := by
      have size := carried.size
      rw [RtpPkt.need_eq_size carried]
      apply Int.bmod_eq_of_le <;> omega
    have length : (p.fixedOctets ++ p.csrcOctets ++ p.extOctets ++ p.payload.bytes).length =
        p.size := by
      simp only [List.length_append, p.length_fixedOctets, RtpPkt.length_csrcOctets few,
        p.length_extOctets]
      rfl
    rw [value, Int.toNat_natCast, ← length, List.take_length]
    exact rtpPktParse_octets carried few small whole

def wordPkt : RtpPkt where
  pt := 96
  seq := 513
  cc := 1
  csrc := (Vector.replicate rtpMaxCsrc 0).set 0 7 (by decide)
  hasExt := true
  extProfile := 0xBEDE
  ext := ⟨[1, 2, 3, 4], by decide⟩
  payload := ⟨[5], by decide⟩

theorem rtpPktParse_encode_word :
    0 ≤ (rtpPktEncode wordPkt 25).1 ∧ wordPkt.Carried ∧
      rtpPktParse ((rtpPktEncode wordPkt 25).2.take (rtpPktEncode wordPkt 25).1.toNat) =
        .ok wordPkt := by
  have accepted : 0 ≤ (rtpPktEncode wordPkt 25).1 := by decide
  have carried : wordPkt.Carried := ⟨by decide, by decide, by decide, by decide⟩
  exact ⟨accepted, carried, (rtpPktParse_encode_iff wordPkt 25 accepted).mpr carried⟩

def longPkt : RtpPkt where
  hasExt := true
  ext := ⟨List.replicate 0x40000 0, by rw [List.length_replicate]; decide⟩

theorem rtpPktParse_encode_long :
    0 ≤ (rtpPktEncode longPkt 0x40010).1 ∧ rtpPktParse ((rtpPktEncode longPkt 0x40010).2.take
        (rtpPktEncode longPkt 0x40010).1.toNat) ≠ .ok longPkt := by
  have length : longPkt.ext.bytes.length = 0x40000 := List.length_replicate
  have need : longPkt.need = 0x40010 := by
    rw [RtpPkt.need, length]
    rfl
  have value : (rtpPktEncode longPkt 0x40010).1 = 0x40010 := by
    rw [rtpPktEncode, if_neg (by decide), if_neg (by rw [length]; decide), need, if_neg (by decide)]
    decide
  refine ⟨by rw [value]; decide, ?_⟩
  intro parsed
  have short := List.length_take_le (rtpPktEncode longPkt 0x40010).1.toNat
    (rtpPktEncode longPkt 0x40010).2
  rw [value] at parsed short
  have words := (rtpPktParse_ok (by omega) parsed).words rfl
  omega

end Pro2Call.Rtp

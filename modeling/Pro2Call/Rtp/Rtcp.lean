import Pro2Call.Data.OutBuf
import Pro2Call.Rtp.Packet

namespace Pro2Call.Rtp

open Pro2Call.Data

def rtcpSr : UInt8 := 200
def rtcpRr : UInt8 := 201
def rtcpSdes : UInt8 := 202
def rtcpBye : UInt8 := 203
def rtcpSdesEnd : UInt8 := 0
def rtcpSdesCname : UInt8 := 1
def rtcpMaxReports : Nat := 31
def rtcpHdrLen : Nat := 4
def reportLen : Nat := 24

structure RtcpReport where
  ssrc : UInt32
  fraction : UInt8
  lost : Int
  lastSeq : UInt32
  jitter : UInt32
  lsr : UInt32 := 0
  dlsr : UInt32 := 0
  deriving DecidableEq, Repr

structure RtcpRep where
  ssrc : UInt32
  ntpSec : UInt32 := 0
  ntpFrac : UInt32 := 0
  rtpTs : UInt32 := 0
  pktCount : UInt32 := 0
  octetCount : UInt32 := 0
  reports : List RtcpReport
  deriving DecidableEq, Repr

structure RtcpView where
  type : UInt8
  count : UInt8
  body : Bytes
  deriving DecidableEq, Repr

def rtcpIterNext (b : Bytes) : Option (Except RtpErr (RtcpView × Bytes)) :=
  if b.length = 0 then none
  else if b.length < rtcpHdrLen then some (.error .short)
  else
    let b0 := b.getD 0 0
    let plen := ((rtpRd16 b 2).toNat + 1) * 4
    if b0 >>> 6 ≠ 2 then some (.error .version)
    else if b.length < plen then some (.error .short)
    else
      let bodyLen := plen - rtcpHdrLen
      let view := fun len => (⟨b.getD 1 0, b0 &&& 0x1F, slice b rtcpHdrLen len⟩, b.drop plen)
      if b0 >>> 5 &&& 1 ≠ 0 then
        let npad := (b.getD (plen - 1) 0).toNat
        if bodyLen = 0 ∨ npad = 0 ∨ bodyLen < npad then some (.error .format)
        else some (.ok (view (bodyLen - npad)))
      else some (.ok (view bodyLen))

def reportParse (b : Bytes) : RtcpReport :=
  let lost : Int := beNat (slice b 5 3)
  { ssrc := rtpRd32 b 0
    fraction := b.getD 4 0
    lost := if lost < 0x800000 then lost else lost - 0x1000000
    lastSeq := rtpRd32 b 8
    jitter := rtpRd32 b 12
    lsr := rtpRd32 b 16
    dlsr := rtpRd32 b 20 }

def repParse (v : RtcpView) (sr : Bool) : Except RtpErr RtcpRep :=
  let fixed := if sr then 24 else 4
  if v.body.length < fixed + v.count.toNat * reportLen then .error .short
  else
    let info := fun off => if sr then rtpRd32 v.body off else 0
    .ok { ssrc := rtpRd32 v.body 0, ntpSec := info 4, ntpFrac := info 8, rtpTs := info 12
          pktCount := info 16, octetCount := info 20
          reports := (List.range v.count.toNat).map fun i =>
            reportParse (v.body.drop (fixed + i * reportLen)) }

def rtcpSrParse (v : RtcpView) : Except RtpErr RtcpRep :=
  if v.type ≠ rtcpSr then .error .format else repParse v true

def rtcpRrParse (v : RtcpView) : Except RtpErr RtcpRep :=
  if v.type ≠ rtcpRr then .error .format else repParse v false

def rtcpByeParse (v : RtcpView) : Except RtpErr (List UInt32 × Bytes) :=
  let off := v.count.toNat * 4
  if v.type ≠ rtcpBye then .error .format
  else if v.body.length < off then .error .short
  else
    let ssrc := (List.range v.count.toNat).map fun i => rtpRd32 (v.body.drop (i * 4)) 0
    let rlen := (v.body.getD off 0).toNat
    if off < v.body.length then
      if v.body.length < off + 1 + rlen then .error .format
      else .ok (ssrc, slice v.body (off + 1) rlen)
    else .ok (ssrc, [])

structure RtcpSdesIter where
  p : Bytes
  ssrc : UInt32
  chunksLeft : Nat
  inChunk : Bool
  deriving DecidableEq, Repr

inductive SdesNext where
  | ended
  | failed (err : RtpErr)
  | item (it : RtcpSdesIter) (ssrc : UInt32) (item : UInt8) (value : Bytes)
  deriving DecidableEq, Repr

def rtcpSdesInit (v : RtcpView) : Except RtpErr RtcpSdesIter :=
  if v.type ≠ rtcpSdes then .error .format else .ok ⟨v.body, 0, v.count.toNat, false⟩

def sdesItem (it : RtcpSdesIter) : SdesNext :=
  let len := (it.p.getD 1 0).toNat
  if it.p.length < 2 ∨ it.p.length < 2 + len then .failed .short
  else .item { it with p := it.p.drop (2 + len) } it.ssrc (it.p.getD 0 0) (slice it.p 2 len)

/-- Every turn of the loop but the last consumes an END octet, so there are no
more turns than octets. -/
def sdesLoop : Nat → RtcpSdesIter → SdesNext
  | 0, _ => .failed .short
  | turns + 1, it =>
    if it.inChunk = false ∧ it.chunksLeft = 0 then .ended
    else if it.inChunk = false ∧ it.p.length < 4 then .failed .short
    else
      let it := if it.inChunk then it else ⟨it.p.drop 4, rtpRd32 it.p 0, it.chunksLeft - 1, true⟩
      if it.p.length < 1 then .failed .short
      else if it.p.getD 0 0 = rtcpSdesEnd then
        let skip := (it.p.length - 1) % 4 + 1
        sdesLoop turns { it with p := it.p.drop skip, inChunk := false }
      else sdesItem it

def rtcpSdesNext (it : RtcpSdesIter) : SdesNext := sdesLoop (it.p.length + 1) it

def rtcpHdr (count : Nat) (type : UInt8) (pktLen : Nat) : Bytes :=
  [0x80 ||| (.ofNat count &&& 0x1F), type] ++ rtpWr16 (.ofNat (pktLen / 4 - 1))

def reportWrite (r : RtcpReport) : Bytes :=
  rtpWr32 r.ssrc ++ (r.fraction :: beBytes 3 (r.lost % 0x1000000).toNat ++
    (rtpWr32 r.lastSeq ++ (rtpWr32 r.jitter ++ (rtpWr32 r.lsr ++ rtpWr32 r.dlsr))))

/-- The part of `put` the writers share: the packet's octets go in whole, or the
buffer has overflowed. -/
def rtcpPut (w : OutBuf UInt8) (octets : Bytes) : OutBuf UInt8 × Except RtpErr Unit :=
  (w.put octets, if (w.put octets).overflow then .error .overflow else .ok ())

inductive RtcpPacket where
  | sr (rep : RtcpRep)
  | rr (ssrc : UInt32) (reports : List RtcpReport)
  | sdesCname (ssrc : UInt32) (cname : Bytes)
  | bye (ssrc : List UInt32) (reason : Bytes)
  deriving DecidableEq, Repr

def padded (len : Nat) : Nat := (len + 3) / 4 * 4

def RtcpPacket.body : RtcpPacket → Bytes
  | .sr rep =>
    rtpWr32 rep.ssrc ++ (rtpWr32 rep.ntpSec ++ (rtpWr32 rep.ntpFrac ++ (rtpWr32 rep.rtpTs ++
      (rtpWr32 rep.pktCount ++ (rtpWr32 rep.octetCount ++ rep.reports.flatMap reportWrite)))))
  | .rr ssrc reports => rtpWr32 ssrc ++ reports.flatMap reportWrite
  | .sdesCname ssrc cname =>
    rtpWr32 ssrc ++ ([rtcpSdesCname, .ofNat cname.length] ++ (cname ++
      List.replicate (padded (3 + cname.length) - (2 + cname.length)) 0))
  | .bye ssrc reason =>
    ssrc.flatMap rtpWr32 ++ if reason.length = 0 then [] else
      [.ofNat reason.length] ++ (reason ++
        List.replicate (padded (1 + reason.length) - (1 + reason.length)) 0)

def RtcpPacket.type : RtcpPacket → UInt8
  | .sr _ => rtcpSr
  | .rr _ _ => rtcpRr
  | .sdesCname _ _ => rtcpSdes
  | .bye _ _ => rtcpBye

def RtcpPacket.count : RtcpPacket → Nat
  | .sr rep => rep.reports.length
  | .rr _ reports => reports.length
  | .sdesCname _ _ => 1
  | .bye ssrc _ => ssrc.length

def RtcpPacket.bodyLen : RtcpPacket → Nat
  | .sr rep => 24 + rep.reports.length * reportLen
  | .rr _ reports => 4 + reports.length * reportLen
  | .sdesCname _ cname => 4 + padded (3 + cname.length)
  | .bye ssrc reason =>
    ssrc.length * 4 + if reason.length = 0 then 0 else padded (1 + reason.length)

def RtcpPacket.octets (packet : RtcpPacket) : Bytes :=
  rtcpHdr packet.count packet.type (rtcpHdrLen + packet.bodyLen) ++ packet.body

def rtcpPutSr (w : OutBuf UInt8) (rep : RtcpRep) : OutBuf UInt8 × Except RtpErr Unit :=
  if rtcpMaxReports < rep.reports.length then (w, .error .inval)
  else rtcpPut w (RtcpPacket.sr rep).octets

def rtcpPutRr (w : OutBuf UInt8) (ssrc : UInt32) (reports : List RtcpReport) :
    OutBuf UInt8 × Except RtpErr Unit :=
  if rtcpMaxReports < reports.length then (w, .error .inval)
  else rtcpPut w (RtcpPacket.rr ssrc reports).octets

def rtcpPutSdesCname (w : OutBuf UInt8) (ssrc : UInt32) (cname : Bytes) :
    OutBuf UInt8 × Except RtpErr Unit :=
  if 255 < cname.length then (w, .error .inval)
  else rtcpPut w (RtcpPacket.sdesCname ssrc cname).octets

def rtcpPutBye (w : OutBuf UInt8) (ssrc : List UInt32) (reason : Bytes) :
    OutBuf UInt8 × Except RtpErr Unit :=
  if ssrc.length = 0 ∨ rtcpMaxReports < ssrc.length ∨ 255 < reason.length then (w, .error .inval)
  else rtcpPut w (RtcpPacket.bye ssrc reason).octets

/-- The offset is cut to an `int`, and no capacity is refused before. -/
def rtcpEnd (w : OutBuf UInt8) : Except RtpErr Int :=
  if w.overflow then .error .overflow else .ok ((w.out.length : Int).bmod (2 ^ 32))

def putPacket (w : OutBuf UInt8) : RtcpPacket → OutBuf UInt8 × Except RtpErr Unit
  | .sr rep => rtcpPutSr w rep
  | .rr ssrc reports => rtcpPutRr w ssrc reports
  | .sdesCname ssrc cname => rtcpPutSdesCname w ssrc cname
  | .bye ssrc reason => rtcpPutBye w ssrc reason

/-- The parser that matches the packet's type gives its fields back; of an SDES
packet, the walk over its items. -/
def RtcpView.Parses (v : RtcpView) : RtcpPacket → Prop
  | .sr rep => rtcpSrParse v = .ok rep
  | .rr ssrc reports => rtcpRrParse v = .ok { ssrc := ssrc, reports := reports }
  | .sdesCname ssrc cname => ∃ it it', rtcpSdesInit v = .ok it ∧
      rtcpSdesNext it = .item it' ssrc rtcpSdesCname cname ∧ rtcpSdesNext it' = .ended
  | .bye ssrc reason => rtcpByeParse v = .ok (ssrc, reason)

inductive RtcpReadBy : Bytes → List RtcpPacket → Prop
  | ended {b} : rtcpIterNext b = none → RtcpReadBy b []
  | packet {b v rest packet packets} : rtcpIterNext b = some (.ok (v, rest)) →
      v.Parses packet → RtcpReadBy rest packets → RtcpReadBy b (packet :: packets)

def RtcpPacket.text : RtcpPacket → Bytes
  | .sr _ => []
  | .rr _ _ => []
  | .sdesCname _ cname => cname
  | .bye _ reason => reason

def RtcpPacket.reports : RtcpPacket → List RtcpReport
  | .sr rep => rep.reports
  | .rr _ reports => reports
  | .sdesCname _ _ => []
  | .bye _ _ => []

structure RtcpPacket.Limited (packet : RtcpPacket) : Prop where
  count : packet.count ≤ rtcpMaxReports
  text : packet.text.length ≤ 255

theorem length_flatMap_reportWrite (reports : List RtcpReport) :
    (reports.flatMap reportWrite).length = reports.length * reportLen := by
  induction reports with
  | nil => rfl
  | cons first rest ih =>
    rw [List.flatMap_cons, List.length_append, ih, List.length_cons]
    simp [reportWrite, reportLen]
    omega

theorem RtcpPacket.length_body (packet : RtcpPacket) : packet.body.length = packet.bodyLen := by
  cases packet with
  | sr rep =>
    simp only [RtcpPacket.body, List.length_append, length_rtpWr32, length_flatMap_reportWrite,
      RtcpPacket.bodyLen]
    omega
  | rr ssrc reports =>
    simp only [RtcpPacket.body, List.length_append, length_rtpWr32, length_flatMap_reportWrite,
      RtcpPacket.bodyLen]
  | sdesCname ssrc cname => simp [RtcpPacket.body, RtcpPacket.bodyLen, padded]; omega
  | bye ssrc reason =>
    simp only [RtcpPacket.body, RtcpPacket.bodyLen, List.length_append, length_flatMap_rtpWr32]
    split
    · rfl
    · simp [padded]; omega

theorem rtcpPut_ok {octets : Bytes} [Decidable refused]
    (put : (if refused then (w, .error .inval) else rtcpPut w octets) = (w', .ok ())) :
    ¬ refused ∧ OutBuf.Extends w w' octets := by
  unfold rtcpPut at put
  split at put
  · cases put
  next accepted =>
    split at put
    · cases put
    · cases put
      exact ⟨accepted, OutBuf.extends_put w octets⟩

theorem putPacket_ok {w w' : OutBuf UInt8} {packet : RtcpPacket}
    (put : putPacket w packet = (w', .ok ())) :
    packet.Limited ∧ OutBuf.Extends w w' packet.octets := by
  cases packet with
  | sr rep | rr ssrc reports =>
    obtain ⟨few, wrote⟩ := rtcpPut_ok put
    exact ⟨⟨Nat.not_lt.mp few, Nat.zero_le _⟩, wrote⟩
  | sdesCname ssrc cname =>
    obtain ⟨short, wrote⟩ := rtcpPut_ok put
    exact ⟨⟨by simp [RtcpPacket.count, rtcpMaxReports], Nat.not_lt.mp short⟩, wrote⟩
  | bye ssrc reason =>
    obtain ⟨limits, wrote⟩ := rtcpPut_ok put
    rw [not_or, not_or] at limits
    exact ⟨⟨Nat.not_lt.mp limits.2.1, Nat.not_lt.mp limits.2.2⟩, wrote⟩

theorem RtcpPacket.Limited.words {packet : RtcpPacket} (limited : packet.Limited) :
    packet.bodyLen % 4 = 0 ∧ packet.bodyLen < 0x40000 := by
  have count := limited.count
  have text := limited.text
  cases packet <;>
    simp only [RtcpPacket.count, RtcpPacket.text, RtcpPacket.bodyLen, rtcpMaxReports, reportLen,
      padded] at * <;>
    grind

theorem rtcp_first_octet {count : Nat} (few : count ≤ rtcpMaxReports) :
    let b0 := 0x80 ||| (UInt8.ofNat count &&& 0x1F)
    b0 >>> 6 = 2 ∧ b0 >>> 5 &&& 1 = 0 ∧ (b0 &&& 0x1F).toNat = count := by
  have every : ∀ count : Fin 32, (0x80 ||| (UInt8.ofNat count &&& 0x1F)) >>> 6 = 2 ∧
      (0x80 ||| (UInt8.ofNat count &&& 0x1F)) >>> 5 &&& 1 = 0 ∧
      ((0x80 ||| (UInt8.ofNat count &&& 0x1F)) &&& 0x1F).toNat = count.val := by
    decide
  exact every ⟨count, Nat.lt_succ_of_le few⟩

theorem rtcpIterNext_octets {packet : RtcpPacket} (limited : packet.Limited) (rest : Bytes) :
    ∃ v, rtcpIterNext (packet.octets ++ rest) = some (.ok (v, rest)) ∧
      v.type = packet.type ∧ v.count.toNat = packet.count ∧ v.body = packet.body := by
  obtain ⟨version, plain, counted⟩ := rtcp_first_octet limited.count
  obtain ⟨words, short⟩ := limited.words
  have plen : ((UInt16.ofNat ((rtcpHdrLen + packet.bodyLen) / 4 - 1)).toNat + 1) * 4 =
      4 + packet.bodyLen := by
    rw [UInt16.toNat_ofNat']
    simp only [rtcpHdrLen]
    omega
  rw [RtcpPacket.octets, rtcpHdr]
  generalize UInt16.ofNat ((rtcpHdrLen + packet.bodyLen) / 4 - 1) = size at plen
  generalize (0x80 ||| (UInt8.ofNat packet.count &&& 0x1F)) = b0 at version plain counted
  have read := rtpRd16_written [b0, packet.type] size (packet.body ++ rest)
  have four : ([b0, packet.type] ++ rtpWr16 size).length = 4 := by simp
  have body := slice_append_length ([b0, packet.type] ++ rtpWr16 size) packet.body rest
  have behind : ([b0, packet.type] ++ rtpWr16 size ++ packet.body ++ rest).drop
      (4 + packet.bodyLen) = rest := by
    rw [← four, ← packet.length_body, ← List.length_append]
    exact List.drop_left
  have whole : ([b0, packet.type] ++ rtpWr16 size ++ packet.body ++ rest).length =
      4 + packet.bodyLen + rest.length := by
    rw [List.length_append, List.length_append, four, packet.length_body]
  rw [four, packet.length_body] at body
  rw [← List.append_assoc] at read
  have first : ([b0, packet.type] ++ rtpWr16 size ++ packet.body ++ rest).getD 0 0 = b0 := rfl
  have second : ([b0, packet.type] ++ rtpWr16 size ++ packet.body ++ rest).getD 1 0 =
      packet.type := rfl
  generalize [b0, packet.type] ++ rtpWr16 size ++ packet.body ++ rest = b at *
  refine ⟨⟨packet.type, b0 &&& 0x1F, packet.body⟩, ?_, rfl, counted, rfl⟩
  have size : ((rtpRd16 b 2).toNat + 1) * 4 = 4 + packet.bodyLen := by rw [← plen, ← read]; rfl
  rw [rtcpIterNext, if_neg (by omega), if_neg (by rw [rtcpHdrLen]; omega)]
  simp only [first, second, size, version, plain, ne_eq, not_true_eq_false, if_false, behind]
  rw [if_neg (by omega), rtcpHdrLen, Nat.add_sub_cancel_left, body]

theorem map_range_read {α : Type} {encode : α → Bytes} {decode : Bytes → α} {size : Nat}
    (sized : ∀ x, (encode x).length = size) {xs : List α}
    (reads : ∀ x ∈ xs, ∀ tail, decode (encode x ++ tail) = x) (front tail : Bytes) :
    (List.range xs.length).map (fun i =>
      decode ((front ++ (xs.flatMap encode ++ tail)).drop (front.length + i * size))) = xs := by
  induction xs generalizing front with
  | nil => rfl
  | cons x xs ih =>
    have later := ih (fun y member => reads y (List.mem_cons_of_mem x member)) (front ++ encode x)
    rw [List.length_append, sized] at later
    rw [List.length_cons, List.range_succ_eq_map, List.map_cons, List.map_map, List.flatMap_cons]
    congr 1
    · rw [Nat.zero_mul, Nat.add_zero, List.drop_left, List.append_assoc]
      exact reads x List.mem_cons_self _
    · conv_rhs => rw [← later]
      refine List.map_congr_left fun i _ => ?_
      simp only [Function.comp, List.append_assoc, Nat.succ_eq_add_one, Nat.add_mul, Nat.one_mul]
      congr 2
      omega

theorem rtpRd32_here (v : UInt32) (tail : Bytes) : rtpRd32 (rtpWr32 v ++ tail) 0 = v :=
  rtpRd32_written [] v tail

theorem rtpRd32_past {front : Bytes} (word : front.length = 4) (tail : Bytes) (off : Nat) :
    rtpRd32 (front ++ tail) (off + 4) = rtpRd32 tail off := by
  rw [rtpRd32, rtpRd32, Nat.add_comm, ← word, slice_append_right]

theorem reportParse_reportWrite {r : RtcpReport} (low : -0x800000 ≤ r.lost)
    (high : r.lost < 0x800000) (tail : Bytes) : reportParse (reportWrite r ++ tail) = r := by
  obtain ⟨ssrc, fraction, lost, lastSeq, jitter, lsr, dlsr⟩ := r
  have skip := fun v rest off => rtpRd32_past (length_rtpWr32 v) rest off
  have middle : ∀ value, (fraction :: beBytes 3 value).length = 4 := by simp
  have narrow : beNat (beBytes 3 (lost % 0x1000000).toNat) = (lost % 0x1000000).toNat :=
    beNat_beBytes (by omega)
  have wide := slice_append_length (rtpWr32 ssrc ++ [fraction]) (beBytes 3 (lost % 0x1000000).toNat)
    (rtpWr32 lastSeq ++ (rtpWr32 jitter ++ (rtpWr32 lsr ++ (rtpWr32 dlsr ++ tail))))
  simp only [List.append_assoc, List.length_append, length_rtpWr32, length_beBytes] at wide
  simp only [reportWrite, List.append_assoc, reportParse, RtcpReport.mk.injEq]
  refine ⟨rtpRd32_here .., rfl, ?_, ?_, ?_, ?_, ?_⟩
  · have read : beNat (slice (rtpWr32 ssrc ++ (fraction :: beBytes 3 (lost % 0x1000000).toNat ++
        (rtpWr32 lastSeq ++ (rtpWr32 jitter ++ (rtpWr32 lsr ++ (rtpWr32 dlsr ++ tail)))))) 5 3) =
        (lost % 0x1000000).toNat := (congrArg beNat wide).trans narrow
    rw [read]
    dsimp only at low high
    split <;> omega
  all_goals simp only [skip, rtpRd32_past (middle _), rtpRd32_here]

theorem repParse_ok {v : RtcpView} {sr : Bool} {front : Bytes} {reports : List RtcpReport}
    (fixed : front.length = if sr then 24 else 4) (count : v.count.toNat = reports.length)
    (body : v.body = front ++ reports.flatMap reportWrite)
    (losses : ∀ r ∈ reports, -0x800000 ≤ r.lost ∧ r.lost < 0x800000) :
    let info := fun off => if sr then rtpRd32 v.body off else 0
    repParse v sr = .ok
      { ssrc := rtpRd32 v.body 0, ntpSec := info 4, ntpFrac := info 8, rtpTs := info 12
        pktCount := info 16, octetCount := info 20, reports := reports } := by
  have sized : ∀ r, (reportWrite r).length = reportLen := fun r => by simp [reportWrite, reportLen]
  have listed := map_range_read sized
    (fun r member => reportParse_reportWrite (losses r member).1 (losses r member).2) front []
  rw [List.append_nil, ← body, ← count, fixed] at listed
  rw [repParse, if_neg, listed]
  rw [body, List.length_append, length_flatMap_reportWrite, fixed, count]
  omega

theorem sdesItem_written (item : UInt8) {value : Bytes} (short : value.length ≤ 255)
    (ssrc : UInt32) (left : Nat) (tail : Bytes) :
    sdesItem ⟨[item, .ofNat value.length] ++ (value ++ tail), ssrc, left, true⟩ =
      .item ⟨tail, ssrc, left, true⟩ ssrc item value := by
  have len : (UInt8.ofNat value.length).toNat = value.length := by
    rw [UInt8.toNat_ofNat']
    omega
  have inside := slice_append_length [item, .ofNat value.length] value tail
  have behind : ([item, .ofNat value.length] ++ (value ++ tail)).drop (2 + value.length) =
      tail := by
    simp [Nat.add_comm 2]
  rw [List.append_assoc] at inside
  have second : ([item, .ofNat value.length] ++ (value ++ tail)).getD 1 0 =
      .ofNat value.length := rfl
  simp only [sdesItem, second, len, behind]
  rw [if_neg (by simp; omega), show slice _ 2 value.length = value from inside]
  rfl

theorem rtcpSdesNext_padding {pad : Nat} (positive : 1 ≤ pad) (few : pad ≤ 4) (ssrc : UInt32) :
    rtcpSdesNext ⟨List.replicate pad 0, ssrc, 0, true⟩ = .ended := by
  match pad with
  | 1 | 2 | 3 | 4 => rfl

theorem rtcpSdesNext_cname {cname : Bytes} (short : cname.length ≤ 255) (ssrc : UInt32)
    (tail : Bytes) :
    rtcpSdesNext ⟨rtpWr32 ssrc ++ ([rtcpSdesCname, .ofNat cname.length] ++ (cname ++ tail)), 0, 1,
      false⟩ = .item ⟨tail, ssrc, 0, true⟩ ssrc rtcpSdesCname cname := by
  have item := sdesItem_written rtcpSdesCname short ssrc 0 tail
  have behind : (rtpWr32 ssrc ++ ([rtcpSdesCname, .ofNat cname.length] ++ (cname ++ tail))).drop 4 =
      [rtcpSdesCname, .ofNat cname.length] ++ (cname ++ tail) := by
    rw [← length_rtpWr32 ssrc, List.drop_left]
  rw [rtcpSdesNext, sdesLoop, if_neg (by simp), if_neg (by simp)]
  simp only [Bool.false_eq_true, if_false, behind, rtpRd32_here, Nat.sub_self, item]
  rfl

theorem rtcpByeParse_body {v : RtcpView} {ssrc : List UInt32} (type : v.type = rtcpBye)
    (count : v.count.toNat = ssrc.length)
    (body : v.body = (RtcpPacket.bye ssrc reason).body) (short : reason.length ≤ 255) :
    rtcpByeParse v = .ok (ssrc, reason) := by
  rw [RtcpPacket.body] at body
  generalize tail : (if reason.length = 0 then [] else _ : Bytes) = text at body
  have front : (ssrc.flatMap rtpWr32).length = ssrc.length * 4 := length_flatMap_rtpWr32 ssrc
  have long : v.body.length = ssrc.length * 4 + text.length := by
    rw [body, List.length_append, front]
  have listed : (List.range ssrc.length).map (fun i => rtpRd32 (v.body.drop (i * 4)) 0) = ssrc := by
    have read := @map_range_read UInt32 rtpWr32 (fun b => rtpRd32 b 0) 4 length_rtpWr32 ssrc
      (fun x _ rest => rtpRd32_here x rest) [] text
    simpa [← body] using read
  simp only [rtcpByeParse, type, count, ne_eq, not_true_eq_false, if_false, listed]
  rw [if_neg (by omega)]
  split at tail
  next none =>
    subst tail
    rw [if_neg (by simp [long]), List.eq_nil_of_length_eq_zero none]
  next some =>
    have len : (UInt8.ofNat reason.length).toNat = reason.length := by
      rw [UInt8.toNat_ofNat']
      omega
    have first : v.body.getD (ssrc.length * 4) 0 = .ofNat reason.length := by
      rw [body, ← tail, ← front]
      simp
    have value := slice_append_length (ssrc.flatMap rtpWr32 ++ [.ofNat reason.length]) reason
      (List.replicate (padded (1 + reason.length) - (1 + reason.length)) 0)
    rw [List.append_assoc, List.append_assoc, tail, ← body, List.length_append, front] at value
    have more : reason.length < text.length := by
      rw [← tail, List.length_append, List.length_append, List.length_singleton]
      omega
    rw [if_pos (by omega), first, len, if_neg (by omega)]
    exact congrArg (fun read => Except.ok (ssrc, read)) value

theorem RtcpPacket.Limited.parses {v : RtcpView} {packet : RtcpPacket} (limited : packet.Limited)
    (type : v.type = packet.type) (count : v.count.toNat = packet.count)
    (body : v.body = packet.body)
    (losses : ∀ r ∈ packet.reports, -0x800000 ≤ r.lost ∧ r.lost < 0x800000) :
    v.Parses packet := by
  have skip := fun v rest off => rtpRd32_past (length_rtpWr32 v) rest off
  cases packet with
  | sr rep =>
    have parsed := @repParse_ok v true (rtpWr32 rep.ssrc ++ (rtpWr32 rep.ntpSec ++
      (rtpWr32 rep.ntpFrac ++ (rtpWr32 rep.rtpTs ++ (rtpWr32 rep.pktCount ++
        rtpWr32 rep.octetCount))))) rep.reports (by simp) count
      (by simp only [List.append_assoc]; exact body) losses
    rw [RtcpView.Parses, rtcpSrParse, if_neg (by simp [type, RtcpPacket.type]), parsed, body]
    simp only [RtcpPacket.body, skip, rtpRd32_here, if_true]
  | rr ssrc reports =>
    have parsed := @repParse_ok v false (rtpWr32 ssrc) reports (by simp) count body losses
    rw [RtcpView.Parses, rtcpRrParse, if_neg (by simp [type, RtcpPacket.type]), parsed, body]
    simp only [RtcpPacket.body, rtpRd32_here, Bool.false_eq_true, if_false]
  | sdesCname ssrc cname =>
    have item := rtcpSdesNext_cname limited.text ssrc
      (List.replicate (padded (3 + cname.length) - (2 + cname.length)) 0)
    have pad : 1 ≤ padded (3 + cname.length) - (2 + cname.length) ∧
        padded (3 + cname.length) - (2 + cname.length) ≤ 4 := by
      simp only [padded]
      omega
    refine ⟨⟨v.body, 0, 1, false⟩, _, ?_, ?_, rtcpSdesNext_padding pad.1 pad.2 ssrc⟩
    · rw [rtcpSdesInit, if_neg (by simp [type, RtcpPacket.type]), count]
      rfl
    · rw [body]
      exact item
  | bye ssrc reason => exact rtcpByeParse_body type count body limited.text

theorem rtcpReadBy_flatMap (limited : ∀ packet ∈ packets, packet.Limited)
    (losses : ∀ packet ∈ packets, ∀ r ∈ packet.reports, -0x800000 ≤ r.lost ∧ r.lost < 0x800000) :
    RtcpReadBy (packets.flatMap RtcpPacket.octets) packets := by
  induction packets with
  | nil => exact .ended rfl
  | cons packet rest ih =>
    rw [List.forall_mem_cons] at limited losses
    obtain ⟨v, next, type, count, body⟩ :=
      rtcpIterNext_octets limited.1 (rest.flatMap RtcpPacket.octets)
    rw [List.flatMap_cons]
    exact .packet next (limited.1.parses type count body losses.1) (ih limited.2 losses.2)

/-- What the writers put into a buffer that held it all, the walk and the parsers
give back packet by packet, up to the end. -/
theorem rtcpReadBy_of_put {cap : Nat} {len : Int} {w : OutBuf UInt8} {packets : List RtcpPacket}
    (put : OutBuf.putAll putPacket { cap := cap } packets = .ok w) (ended : rtcpEnd w = .ok len)
    (losses : ∀ packet ∈ packets, ∀ r ∈ packet.reports, -0x800000 ≤ r.lost ∧ r.lost < 0x800000) :
    (w.out.length < 2 ^ 31 → len = w.out.length) ∧ RtcpReadBy w.out packets := by
  obtain ⟨limited, wrote⟩ := OutBuf.putAll_ok (fun _ _ packet => @putPacket_ok _ _ packet) put
  rw [rtcpEnd] at ended
  split at ended
  · cases ended
  next fits =>
    obtain rfl := Except.ok.inj ended
    obtain ⟨_, out⟩ := wrote.2 (by simpa using fits)
    refine ⟨fun short => Int.bmod_eq_of_le (by omega) (by omega), ?_⟩
    rw [out]
    exact rtcpReadBy_flatMap limited losses

def leavingCompound : List RtcpPacket :=
  [.rr 7 [{ ssrc := 9, fraction := 1, lost := -2, lastSeq := 70000, jitter := 3 }],
    .sdesCname 7 [0x61, 0x40, 0x62], .bye [7] [0x6F, 0x6B]]

theorem rtcpReadBy_of_put_leaving : ∃ w, OutBuf.putAll putPacket { cap := 100 } leavingCompound =
    .ok w ∧ w.out.length = 60 ∧ RtcpReadBy w.out leavingCompound := by
  refine ⟨_, rfl, ?_, ?_⟩
  · decide
  · exact (@rtcpReadBy_of_put 100 _ _ _ rfl rfl (by decide)).2

end Pro2Call.Rtp

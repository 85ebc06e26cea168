import Pro2Call.Gtp1.Wire
import Pro2Call.Task.TlvSticky

namespace Pro2Call.Gtp1

open Pro2Call.Data
open Pro2Call.Task

@[simp] theorem length_gtp1HdrBytes (hdr : Gtp1Hdr) : (gtp1HdrBytes hdr).length = 12 := by
  simp [gtp1HdrBytes]

variable {w : TlvWbuf} {tvlen : Nat → UInt16}

theorem written_gtp1HdrEncode (written : gtp1HdrEncode (tlvWbufInit buf) hdr = .ok w) :
    Written w (gtp1HdrBytes hdr) := by
  unfold gtp1HdrEncode at written
  split at written
  · cases written
  · rename_i room
    cases written
    have size : 12 ≤ buf.length := by
      simpa [tlvWbufInit, gtp1HdrCtrl] using room
    refine ⟨rfl, ?_, ?_, buf.drop 12, ?_⟩
    · simp [tlvWbufInit, splice]
      omega
    · simp [gtp1HdrCtrl]
    · simp [tlvWbufInit, splice]

theorem splice_length_field (hdr : Gtp1Hdr) (rest : Bytes) (small : length < 2 ^ 16) :
    splice (gtp1HdrBytes hdr ++ rest) 2 (beBytes 2 length) =
      gtp1HdrBytes { hdr with length := .ofNat length } ++ rest := by
  have field : (UInt16.ofNat length).toNat = length := by
    rw [UInt16.toNat_ofNat', Nat.mod_eq_of_lt small]
  simp only [gtp1HdrBytes, List.append_assoc, List.cons_append, List.nil_append, field]
  exact splice_field [_, _] _ ((length_beBytes 2 _).trans (length_beBytes 2 _).symm)

theorem gtp1HdrFinalize_ok (closed : gtp1HdrFinalize w 0 = (w', gtp1Ok)) :
    w.overflow = false ∧ w.off - 8 < 2 ^ 16 ∧
      w' = { w with buf := splice w.buf 2 (beBytes 2 (w.off - 8)) } := by
  unfold gtp1HdrFinalize at closed
  cases flag : w.overflow with
  | true => simp [flag, gtp1EOverflow, gtp1Ok] at closed
  | false =>
    simp only [flag, Bool.false_eq_true, if_false, Nat.zero_add, Nat.sub_zero, gtp1HdrMin] at closed
    split at closed
    · simp [gtp1EInval, gtp1Ok] at closed
    · split at closed
      · simp [gtp1EOverflow, gtp1Ok] at closed
      · cases closed
        exact ⟨rfl, by omega, rfl⟩

theorem take_finalized {body : Bytes} (holds : Holds w (gtp1HdrBytes hdr ++ body))
    (closed : gtp1HdrFinalize w 0 = (w', gtp1Ok)) :
    4 + body.length < 2 ^ 16 ∧ w'.buf.take w'.off =
      gtp1HdrBytes { hdr with length := .ofNat (4 + body.length) } ++ body := by
  obtain ⟨clear, small, rfl⟩ := gtp1HdrFinalize_ok closed
  have written := holds.written clear
  obtain ⟨tail, held⟩ := written.held
  have off := written.off
  rw [List.length_append, length_gtp1HdrBytes] at off
  have payload : w.off - 8 = 4 + body.length := by omega
  rw [payload] at small
  refine ⟨small, ?_⟩
  simp only [payload, held, List.append_assoc]
  rw [splice_length_field _ _ small, ← List.append_assoc]
  apply List.take_left'
  rw [off, List.length_append, length_gtp1HdrBytes]

theorem gtp1HdrDecode_bytes (hdr : Gtp1Hdr) {body : Bytes}
    (length : hdr.length.toNat = 4 + body.length) :
    gtp1HdrDecode (gtp1HdrBytes hdr ++ body) =
      .ok ({ hdr with
        version := gtp1Version
        pt := true
        e := false
        s := true
        pn := false
        npdu := 0
        nextExt := 0 }, 12) := by
  have size : (gtp1HdrBytes hdr ++ body).length = 12 + body.length := by simp
  have lengthField : be16Load (gtp1HdrBytes hdr ++ body) 2 = hdr.length := by
    have field : slice (gtp1HdrBytes hdr ++ body) 2 2 = beBytes 2 hdr.length.toNat := by
      have part := slice_append_length [(gtp1Version <<< 5) ||| flagPt ||| flagS, hdr.messageType]
        (beBytes 2 hdr.length.toNat) (beBytes 4 hdr.teid.toNat ++
          (beBytes 2 hdr.sequence.toNat ++ ([0, 0] ++ body)))
      simpa [gtp1HdrBytes] using part
    rw [be16Load_of_slice field hdr.length.toNat_lt, UInt16.ofNat_toNat]
  have teidField : be32Load (gtp1HdrBytes hdr ++ body) 4 = hdr.teid := by
    apply be32Load_of_slice
    have part := slice_append_length ([(gtp1Version <<< 5) ||| flagPt ||| flagS, hdr.messageType] ++
        beBytes 2 hdr.length.toNat)
      (beBytes 4 hdr.teid.toNat)
      (beBytes 2 hdr.sequence.toNat ++ ([0, 0] ++ body))
    simpa [gtp1HdrBytes] using part
  have sequenceField : be16Load (gtp1HdrBytes hdr ++ body) 8 = hdr.sequence := by
    have field : slice (gtp1HdrBytes hdr ++ body) 8 2 = beBytes 2 hdr.sequence.toNat := by
      have part := slice_append_length
        ([(gtp1Version <<< 5) ||| flagPt ||| flagS, hdr.messageType] ++
          beBytes 2 hdr.length.toNat ++ beBytes 4 hdr.teid.toNat)
        (beBytes 2 hdr.sequence.toNat) ([0, 0] ++ body)
      simpa [gtp1HdrBytes] using part
    rw [be16Load_of_slice field hdr.sequence.toNat_lt, UInt16.ofNat_toNat]
  have flags : (gtp1HdrBytes hdr ++ body).getD 0 0 = 0x32 := rfl
  have type : (gtp1HdrBytes hdr ++ body).getD 1 0 = hdr.messageType := rfl
  have version : (0x32 : UInt8) >>> 5 = gtp1Version := by decide
  have pt : ((0x32 : UInt8) &&& flagPt != 0) = true := by decide
  have e : ((0x32 : UInt8) &&& flagE != 0) = false := by decide
  have s : ((0x32 : UInt8) &&& flagS != 0) = true := by decide
  have pn : ((0x32 : UInt8) &&& flagPn != 0) = false := by decide
  have notShort : ¬ 12 + body.length < gtp1HdrMin := by
    simp only [gtp1HdrMin]
    omega
  have inside : ¬ gtp1HdrMin + hdr.length.toNat > 12 + body.length := by
    simp only [gtp1HdrMin]
    omega
  have long : ¬ gtp1HdrMin + hdr.length.toNat < gtp1HdrCtrl := by
    simp only [gtp1HdrMin, gtp1HdrCtrl]
    omega
  rw [gtp1HdrDecode]
  simp only [size, flags, type, version, pt, e, s, pn, lengthField, teidField,
    sequenceField, if_neg notShort, if_neg inside, if_neg long, ne_eq,
    not_true_eq_false, if_false, Bool.not_true, Bool.false_eq_true,
    Bool.or_true, Bool.or_false, if_true]
  rw [skipExtensions]
  simp only [if_true]
  rfl

theorem Holds.put {done : Bytes} (holds : Holds w done)
    (bytes : Bytes) : Holds (gtp1IePut w bytes).1 (done ++ bytes) := by
  unfold gtp1IePut
  rcases holds.reserve bytes with ⟨w', rc, refused, flagged⟩ | ⟨room, written⟩
  · rw [refused]
    exact .inl flagged
  · rw [room]
    exact .inr written

structure Gtp1Ie where
  type : UInt8
  value : Bytes
  deriving DecidableEq

/-- The value has the length that the table has for its type, if it is TV. -/
def Gtp1Ie.Fits (tvlen : Nat → UInt16) (ie : Gtp1Ie) : Prop :=
  if ie.type < 0x80 then
    tvlen ie.type.toNat ≠ 0 ∧ ie.value.length = (tvlen ie.type.toNat).toNat
  else ie.value.length ≤ 65535

def Gtp1Ie.put (w : TlvWbuf) (ie : Gtp1Ie) : TlvWbuf × Int :=
  if ie.type < 0x80 then gtp1IePutTv w ie.type ie.value else gtp1IePutTlv w ie.type ie.value

def Gtp1Ie.tag (ie : Gtp1Ie) : Bytes :=
  if ie.type < 0x80 then [ie.type] else ie.type :: beBytes 2 ie.value.length

def Gtp1Ie.bytes (ie : Gtp1Ie) : Bytes := ie.tag ++ ie.value

theorem Gtp1Ie.Fits.toNat_ofNat {ie : Gtp1Ie} (fits : ie.Fits tvlen) :
    (UInt16.ofNat ie.value.length).toNat = ie.value.length := by
  rw [UInt16.toNat_ofNat']
  unfold Fits at fits
  split at fits
  · rw [fits.2]
    exact Nat.mod_eq_of_lt (tvlen ie.type.toNat).toNat_lt
  · exact Nat.mod_eq_of_lt (by omega)

def walkBehind (tvlen : Nat → UInt16) (front rest : Bytes) : Gtp1IeIter :=
  ⟨front ++ rest, front.length, front.length + rest.length, tvlen⟩

theorem gtp1IeIterNext_bytes {ie : Gtp1Ie} (fits : ie.Fits tvlen) (front rest : Bytes) :
    gtp1IeIterNext (walkBehind tvlen front (ie.bytes ++ rest)) =
      some (⟨ie.type, .ofNat ie.value.length, front.length + ie.tag.length⟩,
        walkBehind tvlen (front ++ ie.bytes) rest) := by
  have length := fits.toNat_ofNat
  have size : front.length + (ie.bytes ++ rest).length - front.length =
      ie.tag.length + ie.value.length + rest.length := by
    simp only [Gtp1Ie.bytes, List.length_append]
    omega
  have behind : walkBehind tvlen (front ++ ie.bytes) rest =
      { walkBehind tvlen front (ie.bytes ++ rest) with
        cur := front.length + (ie.tag.length + ie.value.length) } := by
    simp [walkBehind, Gtp1Ie.bytes, Nat.add_assoc]
  have type : (front ++ (ie.bytes ++ rest)).getD front.length 0 = ie.type := by
    simp only [Gtp1Ie.bytes, Gtp1Ie.tag]
    split <;> simp
  rw [behind]
  simp only [gtp1IeIterNext, walkBehind, size, type]
  by_cases small : ie.type < 0x80
  · have tag : ie.tag.length = 1 := by simp [Gtp1Ie.tag, small]
    simp only [Gtp1Ie.Fits, if_pos small] at fits
    have table : tvlen ie.type.toNat = .ofNat ie.value.length := by
      rw [fits.2, UInt16.ofNat_toNat]
    rw [tag, if_neg (by omega), if_pos small, table, length, if_neg]
    rintro (zero | short)
    · exact fits.1 (table.trans zero)
    · omega
  · have tag : ie.tag.length = 3 := by simp [Gtp1Ie.tag, small]
    have field : be16Load (front ++ (ie.bytes ++ rest)) (front.length + 1) =
        .ofNat ie.value.length := by
      simp only [Gtp1Ie.Fits, if_neg small] at fits
      apply be16Load_of_slice _ (by omega)
      have part := slice_append_length (front ++ [ie.type]) (beBytes 2 ie.value.length)
        (ie.value ++ rest)
      simpa [Gtp1Ie.bytes, Gtp1Ie.tag, small] using part
    have header : gtp1TlvHdrLen = 3 := rfl
    rw [tag, if_neg (by omega), if_neg small, if_neg (by omega), field, length, if_neg (by omega),
      header]

def IesReadBy (it : Gtp1IeIter) : List Gtp1Ie → Prop
  | [] => it.cur = it.stop ∧ gtp1IeIterNext it = none
  | ie :: ies => ∃ v next, gtp1IeIterNext it = some (v, next) ∧ v.type = ie.type ∧
      slice it.mem v.value v.len.toNat = ie.value ∧ IesReadBy next ies

theorem iesReadBy_walkBehind (fits : ∀ ie ∈ ies, ie.Fits tvlen) (front : Bytes) :
    IesReadBy (walkBehind tvlen front (ies.flatMap Gtp1Ie.bytes)) ies := by
  induction ies generalizing front with
  | nil => exact ⟨rfl, by simp [walkBehind, gtp1IeIterNext]⟩
  | cons ie ies ih =>
    obtain ⟨here, others⟩ := List.forall_mem_cons.mp fits
    refine ⟨_, _, gtp1IeIterNext_bytes here front _, rfl, ?_, ih others (front ++ ie.bytes)⟩
    have part := slice_append_length (front ++ ie.tag) ie.value (ies.flatMap Gtp1Ie.bytes)
    simpa [walkBehind, here.toNat_ofNat, Gtp1Ie.bytes] using part

theorem holds_foldl_put {done : Bytes} (holds : Holds w done) (ies : List Gtp1Ie) :
    Holds (ies.foldl (fun w ie => (ie.put w).1) w) (done ++ ies.flatMap Gtp1Ie.bytes) := by
  induction ies generalizing w done with
  | nil => simpa using holds
  | cons ie ies ih =>
    have next : Holds (ie.put w).1 (done ++ ie.bytes) := by
      unfold Gtp1Ie.put Gtp1Ie.bytes Gtp1Ie.tag
      split
      · exact Holds.put holds _
      · exact Holds.put holds (ie.type :: (beBytes 2 ie.value.length ++ ie.value))
    simpa using ih next

/-- What was written behind a header is read from the finished message. -/
theorem iesReadBy_of_write (tvlen : Nat → UInt16) (hdr : Gtp1Hdr) {ies : List Gtp1Ie} {buf : Bytes}
    {w w' : TlvWbuf} (fits : ∀ ie ∈ ies, ie.Fits tvlen)
    (header : gtp1HdrEncode (tlvWbufInit buf) hdr = .ok w)
    (closed : gtp1HdrFinalize (ies.foldl (fun w ie => (ie.put w).1) w) 0 = (w', gtp1Ok)) :
    ∃ h, gtp1HdrDecode (w'.buf.take w'.off) = .ok (h, gtp1HdrCtrl) ∧
      (w'.buf.take w'.off).length = gtp1HdrMin + h.length.toNat ∧
      h.messageType = hdr.messageType ∧ h.teid = hdr.teid ∧ h.sequence = hdr.sequence ∧
      IesReadBy (gtp1IeIterInit (w'.buf.take w'.off) gtp1HdrCtrl
        (gtp1HdrMin + h.length.toNat - gtp1HdrCtrl) tvlen) ies := by
  obtain ⟨small, bytes⟩ :=
    take_finalized (holds_foldl_put (.inr (written_gtp1HdrEncode header)) ies) closed
  have length : (UInt16.ofNat (4 + (ies.flatMap Gtp1Ie.bytes).length)).toNat =
      4 + (ies.flatMap Gtp1Ie.bytes).length := by
    rw [UInt16.toNat_ofNat', Nat.mod_eq_of_lt small]
  rw [bytes]
  refine ⟨_, gtp1HdrDecode_bytes _ length, ?_, rfl, rfl, rfl, ?_⟩
  · simp only [List.length_append, length_gtp1HdrBytes, length, gtp1HdrMin]
    omega
  · have walk := iesReadBy_walkBehind fits
      (gtp1HdrBytes { hdr with length := .ofNat (4 + (ies.flatMap Gtp1Ie.bytes).length) })
    convert walk using 1
    simp only [gtp1IeIterInit, walkBehind, length_gtp1HdrBytes, length, gtp1HdrMin, gtp1HdrCtrl]
    congr 1
    omega

def causeLen (type : Nat) : UInt16 := if type = 1 then 1 else 0

def responseHdr : Gtp1Hdr := ⟨1, true, false, true, false, 17, 0, 5, 9, 0, 0⟩

def responseIes : List Gtp1Ie := [⟨1, [128]⟩, ⟨133, [10, 0, 0, 1]⟩, ⟨132, []⟩]

def responseWire : Bytes :=
  [0x32, 17, 0, 16, 0, 0, 0, 5, 0, 9, 0, 0, 1, 128, 133, 0, 4, 10, 0, 0, 1, 132, 0, 0]

theorem iesReadBy_of_write_response :
    ∃ h, gtp1HdrDecode responseWire = .ok (h, gtp1HdrCtrl) ∧
      responseWire.length = gtp1HdrMin + h.length.toNat ∧
      h.messageType = 17 ∧ h.teid = 5 ∧ h.sequence = 9 ∧
      IesReadBy (gtp1IeIterInit responseWire gtp1HdrCtrl
        (gtp1HdrMin + h.length.toNat - gtp1HdrCtrl) causeLen) responseIes := by
  have fits : ∀ ie ∈ responseIes, ie.Fits causeLen := by
    simp only [responseIes, List.forall_mem_cons, List.not_mem_nil, false_implies, implies_true,
      Gtp1Ie.Fits]
    decide
  let w : TlvWbuf := ⟨gtp1HdrBytes responseHdr ++ List.replicate 12 0, 24, 12, false⟩
  have header : gtp1HdrEncode (tlvWbufInit (List.replicate 24 0)) responseHdr = .ok w := rfl
  have closed : gtp1HdrFinalize (responseIes.foldl (fun w ie => (ie.put w).1) w) 0 =
      (⟨responseWire, 24, 24, false⟩, gtp1Ok) := by
    decide
  exact iesReadBy_of_write causeLen responseHdr fits header closed

end Pro2Call.Gtp1

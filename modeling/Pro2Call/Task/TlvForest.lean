import Pro2Call.Task.Tlv

namespace Pro2Call.Task

open Pro2Call.Data

/-! Forests of entries: how a caller writes one, the bytes it stands for, and
how a reader that descends into exactly the groups gets it back. -/

inductive TlvFormat where
  | gtp2c
  | diameter
  | netlink
  deriving DecidableEq, Repr

def TlvFormat.prof : TlvFormat → TlvProf
  | .gtp2c => tlvProfGtp2c
  | .diameter => tlvProfDiameter
  | .netlink => tlvProfNetlink

mutual
inductive TlvEntry where
  | leaf (type : Nat) (metaOctet : UInt8) (value : List UInt8)
  | group (type : Nat) (metaOctet : UInt8) (children : TlvForest)

inductive TlvForest where
  | nil
  | cons (head : TlvEntry) (tail : TlvForest)
end

mutual
/-- A group is begun, its children are written, and it is ended with the
handle; the first error stops the caller. -/
def TlvEntry.write (p : TlvProf) (w : TlvWbuf) : TlvEntry → TlvWbuf × Int
  | .leaf type metaOctet value => tlvPut w p type metaOctet value
  | .group type metaOctet children =>
    match tlvBegin w p type metaOctet with
    | (w, handle) =>
      if handle < 0 then (w, handle)
      else
        match children.write p w with
        | (w, rc) => if rc = tlvOk then tlvEnd w p handle else (w, rc)

def TlvForest.write (p : TlvProf) (w : TlvWbuf) : TlvForest → TlvWbuf × Int
  | .nil => (w, tlvOk)
  | .cons head tail =>
    match head.write p w with
    | (w, rc) => if rc = tlvOk then tail.write p w else (w, rc)
end

mutual
/-- Every type fits its field, and a format without a meta octet is given
none. -/
def TlvEntry.FieldsFit (p : TlvProf) : TlvEntry → Prop
  | .leaf type metaOctet _ =>
    type < 256 ^ p.typeSize ∧ (p.metaOff = tlvNoMeta → metaOctet = 0)
  | .group type metaOctet children =>
    type < 256 ^ p.typeSize ∧ (p.metaOff = tlvNoMeta → metaOctet = 0) ∧ children.FieldsFit p

def TlvForest.FieldsFit (p : TlvProf) : TlvForest → Prop
  | .nil => True
  | .cons head tail => head.FieldsFit p ∧ tail.FieldsFit p
end

mutual
/-- The iterator's view of an entry: a leaf shows its value, a group is
walked by a second iterator over its value range. -/
def TlvEntry.ReadAs (it : TlvIter) (view : TlvView) : TlvEntry → Prop
  | .leaf type metaOctet value =>
    view.type = type ∧ view.metaOctet = metaOctet ∧
      view.len = value.length ∧ slice it.mem view.value view.len = value
  | .group type metaOctet children =>
    view.type = type ∧ view.metaOctet = metaOctet ∧ children.ReadBy (tlvIterGrouped it it.prof view)

def TlvForest.ReadBy (it : TlvIter) : TlvForest → Prop
  | .nil => tlvIterNext it = none
  | .cons head tail =>
    ∃ view next, tlvIterNext it = some (view, next) ∧ head.ReadAs it view ∧ tail.ReadBy next
end

def tlvFrameLength (p : TlvProf) (size : Nat) : Nat :=
  if p.lenInclHdr then p.hdrLen + size else size

def tlvHeaderBytes (p : TlvProf) (type : Nat) (lfield : Option Nat)
    (metaOctet : UInt8) : List UInt8 :=
  tlvHeader p (List.replicate p.hdrLen 0) 0 type lfield metaOctet

def tlvPadding (p : TlvProf) (size : Nat) : List UInt8 :=
  List.replicate (tlvAlign p.align (p.hdrLen + size) - (p.hdrLen + size)) 0

def tlvFrame (p : TlvProf) (type : Nat) (metaOctet : UInt8) (body : List UInt8) : List UInt8 :=
  tlvHeaderBytes p type (some (tlvFrameLength p body.length)) metaOctet ++
    body ++ tlvPadding p body.length

mutual
def TlvEntry.bytes (p : TlvProf) : TlvEntry → List UInt8
  | .leaf type metaOctet value => tlvFrame p type metaOctet value
  | .group type metaOctet children =>
    tlvFrame p type metaOctet (children.bytes p)

def TlvForest.bytes (p : TlvProf) : TlvForest → List UInt8
  | .nil => []
  | .cons head tail => head.bytes p ++ tail.bytes p
end

mutual
def TlvEntry.LengthsFit (p : TlvProf) : TlvEntry → Prop
  | .leaf _ _ value => tlvFrameLength p value.length ≤ tlvLenMax p.lenSize
  | .group _ _ children =>
    tlvFrameLength p (children.bytes p).length ≤ tlvLenMax p.lenSize ∧ children.LengthsFit p

def TlvForest.LengthsFit (p : TlvProf) : TlvForest → Prop
  | .nil => True
  | .cons head tail => head.LengthsFit p ∧ tail.LengthsFit p
end

theorem tlvAlign_ge (align size : Nat) : size ≤ tlvAlign align size := by
  unfold tlvAlign
  split
  · split <;> omega
  · exact Nat.le_refl size

theorem TlvFormat.length_headerBytes (format : TlvFormat) (type : Nat)
    (lfield : Option Nat) (metaOctet : UInt8) :
    (tlvHeaderBytes format.prof type lfield metaOctet).length = format.prof.hdrLen := by
  cases format <;> cases lfield <;>
    simp [TlvFormat.prof, tlvProfGtp2c, tlvProfDiameter, tlvProfNetlink,
      tlvHeaderBytes, tlvHeader, memset, tlvStore, splice, tlvNoMeta]

theorem TlvFormat.header_append (format : TlvFormat) (front tail : List UInt8)
    (type : Nat) (lfield : Option Nat) (metaOctet : UInt8) :
    tlvHeader format.prof (front ++ tail) front.length type lfield metaOctet =
      front ++ tlvHeaderBytes format.prof type lfield metaOctet ++
        tail.drop format.prof.hdrLen := by
  cases format <;> cases lfield <;>
    simp [TlvFormat.prof, tlvProfGtp2c, tlvProfDiameter, tlvProfNetlink,
      tlvHeaderBytes, tlvHeader, memset, tlvStore, tlvNoMeta, splice, beBytes,
      leBytes, List.take_length_add_append, Nat.add_assoc]

theorem TlvFormat.patch_append (format : TlvFormat) (front tail : List UInt8)
    (type lfield : Nat) (metaOctet : UInt8) :
    tlvStore (front ++ tlvHeaderBytes format.prof type none metaOctet ++ tail)
        (front.length + format.prof.lenOff) format.prof.lenSize
        format.prof.bigEndian lfield =
      front ++ tlvHeaderBytes format.prof type (some lfield) metaOctet ++ tail := by
  cases format <;> simp [TlvFormat.prof, tlvProfGtp2c, tlvProfDiameter, tlvProfNetlink,
      tlvHeaderBytes, tlvHeader, memset, tlvStore, tlvNoMeta, splice, beBytes,
      leBytes, List.take_length_add_append, Nat.add_assoc]

theorem TlvFormat.lenMax_lt (format : TlvFormat) : tlvLenMax format.prof.lenSize < 2 ^ 24 := by
  cases format <;> decide

theorem TlvFormat.hdrLen_le (format : TlvFormat) : format.prof.hdrLen ≤ 8 := by
  cases format <;> decide

theorem TlvFormat.putLength_eq (format : TlvFormat) {size : Nat}
    (inside : ¬ (tlvPutLength format.prof size < size ∨
      tlvPutLength format.prof size > tlvLenMax format.prof.lenSize)) :
    tlvPutLength format.prof size = tlvFrameLength format.prof size := by
  obtain ⟨notWrapped, _⟩ := not_or.mp inside
  have header := format.hdrLen_le
  unfold tlvPutLength at notWrapped ⊢
  unfold tlvFrameLength
  cases counted : format.prof.lenInclHdr with
  | true =>
    simp only [counted, if_true] at notWrapped ⊢
    omega
  | false => simp

structure Written (w : TlvWbuf) (done : List UInt8) : Prop where
  clear : w.overflow = false
  capacity : w.cap = w.buf.length
  off : w.off = done.length
  held : ∃ tail, w.buf = done ++ tail

theorem written_init (buf : List UInt8) : Written (tlvWbufInit buf) [] where
  clear := rfl
  capacity := rfl
  off := rfl
  held := ⟨buf, rfl⟩

variable {format : TlvFormat} {w w' : TlvWbuf} {done : List UInt8} {type : Nat} {metaOctet : UInt8}

theorem Written.take_eq (written : Written w done) : w.buf.take w.off = done := by
  obtain ⟨tail, buf⟩ := written.held
  rw [buf, written.off, List.take_left]

theorem Written.extend {more tail : List UInt8}
    (written : Written w done) (room : more.length ≤ w.cap - w.off)
    (buf : w.buf = done ++ tail) :
    Written
      { w with
        buf := done ++ more ++ tail.drop more.length
        off := w.off + more.length } (done ++ more) where
  clear := written.clear
  capacity := by
    have size := written.capacity
    have off := written.off
    rw [buf] at size
    simp only [List.length_append, List.length_drop] at size ⊢
    omega
  off := by simp [written.off]
  held := ⟨tail.drop more.length, rfl⟩

theorem TlvFormat.length_frame (format : TlvFormat) (type : Nat)
    (metaOctet : UInt8) (body : List UInt8) :
    (tlvFrame format.prof type metaOctet body).length =
      tlvAlign format.prof.align (format.prof.hdrLen + body.length) := by
  have aligned := tlvAlign_ge format.prof.align (format.prof.hdrLen + body.length)
  simp only [tlvFrame, tlvPadding, List.length_append,
    format.length_headerBytes, List.length_replicate]
  omega

theorem TlvFormat.put_append (format : TlvFormat) (front tail : List UInt8)
    (type : Nat) (metaOctet : UInt8) (val : List UInt8) :
    memset (splice (tlvHeader format.prof (front ++ tail) front.length type
            (some (tlvFrameLength format.prof val.length)) metaOctet)
          (front.length + format.prof.hdrLen) val)
        (front.length + format.prof.hdrLen + val.length)
        (tlvAlign format.prof.align (format.prof.hdrLen + val.length) -
          format.prof.hdrLen - val.length) =
      front ++ tlvFrame format.prof type metaOctet val ++
        tail.drop (tlvFrame format.prof type metaOctet val).length := by
  have header := format.length_headerBytes type
    (some (tlvFrameLength format.prof val.length)) metaOctet
  have afterHeader : front.length + format.prof.hdrLen = (front ++ tlvHeaderBytes format.prof type
        (some (tlvFrameLength format.prof val.length)) metaOctet).length := by
    simp [header]
  have afterValue : front.length + format.prof.hdrLen + val.length =
      (front ++ tlvHeaderBytes format.prof type
        (some (tlvFrameLength format.prof val.length)) metaOctet ++ val).length := by
    simp [header, Nat.add_assoc]
  rw [afterValue, format.header_append, afterHeader, splice_append_length,
    memset, splice_append_length, tlvFrame, tlvPadding]
  simp only [List.append_assoc, List.drop_drop, List.length_append, List.length_replicate, header]
  congr 4
  · congr 1
    omega
  · congr 1
    omega

theorem Written.put (written : Written w done) {val : List UInt8}
    (accepted : tlvPut w format.prof type metaOctet val = (w', tlvOk)) :
    Written w' (done ++ tlvFrame format.prof type metaOctet val) ∧
      tlvFrameLength format.prof val.length ≤ tlvLenMax format.prof.lenSize := by
  by_cases outside : tlvPutLength format.prof val.length < val.length ∨
      tlvPutLength format.prof val.length > tlvLenMax format.prof.lenSize
  · rw [tlvPut_of_length_range type metaOctet outside] at accepted
    simp [tlvEInval, tlvOk] at accepted
  · have length := format.putLength_eq outside
    refine ⟨?_, by have := (not_or.mp outside).2; omega⟩
    rcases tlvWbufReserve_cases w (tlvAlign format.prof.align
        (format.prof.hdrLen + val.length)) with
      ⟨_, refused⟩ | ⟨_, _, refused⟩ | ⟨_, room, reserved⟩
    · rw [tlvPut_of_refused type metaOctet outside refused] at accepted
      simp [tlvEOverflow, tlvOk] at accepted
    · rw [tlvPut_of_refused type metaOctet outside refused] at accepted
      simp [tlvEOverflow, tlvOk] at accepted
    · obtain ⟨tail, buf⟩ := written.held
      rw [tlvPut_of_reserved type metaOctet outside reserved, length, buf,
        written.off, format.put_append, ← format.length_frame type metaOctet,
        ← written.off] at accepted
      rw [← format.length_frame type metaOctet] at room
      rw [← (Prod.mk.inj accepted).1]
      exact written.extend room buf

theorem Written.begin (written : Written w done) {handle : Int}
    (opened : tlvBegin w format.prof type metaOctet = (w', handle))
    (accepted : ¬ handle < 0) :
    Written w' (done ++ tlvHeaderBytes format.prof type none metaOctet) ∧
      handle = toInt done.length := by
  rcases tlvWbufReserve_cases w format.prof.hdrLen with
    ⟨_, refused⟩ | ⟨_, _, refused⟩ | ⟨_, room, reserved⟩
  · rw [tlvBegin_of_refused type metaOctet refused] at opened
    rw [← (Prod.mk.inj opened).2] at accepted
    exact absurd (by decide : tlvEOverflow < 0) accepted
  · rw [tlvBegin_of_refused type metaOctet refused] at opened
    rw [← (Prod.mk.inj opened).2] at accepted
    exact absurd (by decide : tlvEOverflow < 0) accepted
  · obtain ⟨tail, buf⟩ := written.held
    have header := format.length_headerBytes type none metaOctet
    rw [tlvBegin_of_reserved type metaOctet reserved] at opened
    obtain ⟨result, returned⟩ := Prod.mk.inj opened
    refine ⟨?_, by rw [← returned, written.off]⟩
    rw [buf, written.off, format.header_append, ← header, ← written.off] at result
    rw [← header] at room
    rw [← result]
    exact written.extend room buf

theorem toInt_of_small {value : Nat} (small : value < 2 ^ 31) : toInt value = value := by
  unfold toInt
  omega

theorem toInt_wrapped {value : Nat} (large : ¬ value < 2 ^ 31) :
    (toInt value).toNat + 2 ^ 32 ≤ value ∨ toInt value < 0 := by
  unfold toInt
  omega

theorem tlvEnd_ok_inv (clear : w.overflow = false) (accepted : tlvEnd w p handle = (w', tlvOk)) :
    EntryOpen w p handle ∧ tlvEndLength w p handle.toNat ≤ tlvLenMax p.lenSize := by
  by_cases opened : EntryOpen w p handle
  · refine ⟨opened, ?_⟩
    by_contra outside
    rw [tlvEnd_of_length_range opened outside] at accepted
    simp [tlvEOverflow, tlvOk] at accepted
  · rw [tlvEnd_of_not_open clear opened] at accepted
    simp [tlvEInval, tlvOk] at accepted

/-- An end that succeeds was given the handle of an offset that an `int`
represents, because no length field covers the distance otherwise. -/
theorem TlvFormat.handle_eq (format : TlvFormat) {start : Nat}
    (opened : EntryOpen w format.prof (toInt start)) (behind : start ≤ w.off)
    (inRange : tlvEndLength w format.prof (toInt start).toNat ≤ tlvLenMax format.prof.lenSize) :
    (toInt start).toNat = start := by
  by_cases small : start < 2 ^ 31
  · rw [toInt_of_small small, Int.toNat_natCast]
  · have nonneg := opened.nonneg
    have lenMax := format.lenMax_lt
    have header := format.hdrLen_le
    have distance : w.off - (toInt start).toNat - format.prof.hdrLen ≤
        tlvEndLength w format.prof (toInt start).toNat := by
      unfold tlvEndLength
      split <;> omega
    have wrapped := toInt_wrapped small
    omega

theorem Written.patch {body : List UInt8}
    (written : Written w (done ++ tlvHeaderBytes format.prof type none metaOctet ++ body)) :
    Written (tlvPatched w format.prof done.length) (done ++ tlvHeaderBytes format.prof type
        (some (tlvEndLength w format.prof done.length)) metaOctet ++ body) := by
  obtain ⟨tail, buf⟩ := written.held
  have patched : (tlvPatched w format.prof done.length).buf =
      done ++ tlvHeaderBytes format.prof type
        (some (tlvEndLength w format.prof done.length)) metaOctet ++ (body ++ tail) := by
    have appended := format.patch_append done (body ++ tail) type
      (tlvEndLength w format.prof done.length) metaOctet
    rw [← appended]
    simp only [tlvPatched, buf, List.append_assoc]
  constructor
  · exact written.clear
  · rw [patched]
    simpa [tlvPatched, buf, format.length_headerBytes] using written.capacity
  · simpa [tlvPatched, format.length_headerBytes] using written.off
  · exact ⟨tail, by rw [patched, List.append_assoc, List.append_assoc]; simp⟩

theorem Written.pad {pad : Nat} (written : Written w done) (accepted :
      (if pad = 0 then (w, tlvOk) else
         match tlvWbufReserve w pad with
         | (w, some rc) => (w, rc)
         | (w, none) =>
           ({ w with buf := memset w.buf w.off pad, off := w.off + pad }, tlvOk)) = (w', tlvOk)) :
    Written w' (done ++ List.replicate pad 0) := by
  by_cases aligned : pad = 0
  · rw [if_pos aligned] at accepted
    rw [← (Prod.mk.inj accepted).1, aligned]
    simpa using written
  · rw [if_neg aligned] at accepted
    rcases tlvWbufReserve_cases w pad with
      ⟨_, refused⟩ | ⟨_, _, refused⟩ | ⟨_, room, reserved⟩
    · rw [refused] at accepted
      simp [tlvEOverflow, tlvOk] at accepted
    · rw [refused] at accepted
      simp [tlvEOverflow, tlvOk] at accepted
    · obtain ⟨tail, buf⟩ := written.held
      have zeros : (List.replicate pad (0 : UInt8)).length = pad := List.length_replicate
      rw [← zeros] at room
      have extended := written.extend room buf
      rw [reserved] at accepted
      have result := (Prod.mk.inj accepted).1
      simp only [memset] at result
      rw [buf, written.off, splice_append_length, ← written.off] at result
      rw [zeros] at extended result
      rw [← result]
      exact extended

theorem Written.finish {body : List UInt8}
    (written : Written w (done ++ tlvHeaderBytes format.prof type none metaOctet ++ body))
    (accepted : tlvEnd w format.prof (toInt done.length) = (w', tlvOk)) :
    Written w' (done ++ tlvFrame format.prof type metaOctet body) ∧
      tlvFrameLength format.prof body.length ≤ tlvLenMax format.prof.lenSize := by
  have header := format.length_headerBytes type none metaOctet
  have off : w.off = done.length + format.prof.hdrLen + body.length := by
    rw [written.off]
    simp [header]
    omega
  obtain ⟨opened, inRange⟩ := tlvEnd_ok_inv written.clear accepted
  have start := format.handle_eq opened (by omega) inRange
  rw [tlvEnd_of_in_range opened inRange] at accepted
  rw [start] at accepted inRange
  have length : tlvEndLength w format.prof done.length =
      tlvFrameLength format.prof body.length := by
    unfold tlvEndLength tlvFrameLength
    split <;> omega
  have content : w.off - done.length = format.prof.hdrLen + body.length := by
    omega
  have padded := written.patch.pad accepted
  rw [length, content] at padded
  refine ⟨?_, by omega⟩
  simpa only [tlvFrame, tlvPadding, List.append_assoc] using padded

mutual
theorem TlvEntry.written_of_write {format : TlvFormat} {w w' : TlvWbuf}
    {done : List UInt8} (written : Written w done) (entry : TlvEntry)
    (accepted : entry.write format.prof w = (w', tlvOk)) :
    Written w' (done ++ entry.bytes format.prof) ∧ entry.LengthsFit format.prof := by
  cases entry with
  | leaf type metaOctet value => exact written.put accepted
  | group type metaOctet children =>
    rw [TlvEntry.write] at accepted
    cases opened : tlvBegin w format.prof type metaOctet with
    | mk begun handle =>
      rw [opened] at accepted
      by_cases refused : handle < 0
      · simp only [if_pos refused] at accepted
        rw [(Prod.mk.inj accepted).2] at refused
        exact absurd refused (by decide)
      · simp only [if_neg refused] at accepted
        obtain ⟨header, start⟩ := written.begin opened refused
        cases inner : children.write format.prof begun with
        | mk filled rc =>
          rw [inner] at accepted
          by_cases complete : rc = tlvOk
          · simp only [if_pos complete, start] at accepted
            obtain ⟨body, fit⟩ := TlvForest.written_of_write header
              children (inner.trans (by rw [complete]))
            obtain ⟨frame, length⟩ := body.finish accepted
            exact ⟨frame, length, fit⟩
          · simp only [if_neg complete] at accepted
            exact absurd (Prod.mk.inj accepted).2 complete

theorem TlvForest.written_of_write {format : TlvFormat} {w w' : TlvWbuf}
    {done : List UInt8} (written : Written w done) (forest : TlvForest)
    (accepted : forest.write format.prof w = (w', tlvOk)) :
    Written w' (done ++ forest.bytes format.prof) ∧ forest.LengthsFit format.prof := by
  cases forest with
  | nil =>
    rw [TlvForest.write] at accepted
    rw [← (Prod.mk.inj accepted).1]
    simpa [TlvForest.bytes, TlvForest.LengthsFit] using written
  | cons head tail =>
    rw [TlvForest.write] at accepted
    cases first : head.write format.prof w with
    | mk next rc =>
      rw [first] at accepted
      by_cases complete : rc = tlvOk
      · simp only [if_pos complete] at accepted
        obtain ⟨headWritten, headFit⟩ := TlvEntry.written_of_write written
          head (first.trans (by rw [complete]))
        obtain ⟨tailWritten, tailFit⟩ := TlvForest.written_of_write headWritten tail accepted
        rw [List.append_assoc] at tailWritten
        exact ⟨tailWritten, headFit, tailFit⟩
      · simp only [if_neg complete] at accepted
        exact absurd (Prod.mk.inj accepted).2 complete
end

def tlvField (bigEndian : Bool) (size value : Nat) : List UInt8 :=
  if bigEndian then beBytes size value else leBytes size value

theorem tlvLoad_field {pos size value : Nat} (sized : size ≤ 4)
    (width : bigEndian = false → size = 2) (fits : value < 256 ^ size)
    (field : slice mem pos size = tlvField bigEndian size value) :
    tlvLoad mem pos size bigEndian = value := by
  cases bigEndian with
  | true =>
    have narrow : value < 2 ^ 32 :=
      calc
        value < 256 ^ size := fits
        _ ≤ 256 ^ 4 := Nat.pow_le_pow_right (by decide) sized
        _ = 2 ^ 32 := by decide
    simp only [tlvField, if_true] at field
    simp only [tlvLoad, if_true, field]
    rw [beNat_beBytes fits, Nat.mod_eq_of_lt narrow]
  | false =>
    have two := width rfl
    subst two
    simp only [tlvField, Bool.false_eq_true, if_false] at field
    simp only [tlvLoad, Bool.false_eq_true, if_false, if_true, field]
    exact leNat_leBytes fits

theorem TlvFormat.slice_header (format : TlvFormat) (front tail : List UInt8)
    (type lfield : Nat) (metaOctet : UInt8) {off size : Nat}
    (inside : off + size ≤ format.prof.hdrLen) :
    slice (front ++ tlvHeaderBytes format.prof type (some lfield) metaOctet ++
          tail) (front.length + off) size =
      slice (tlvHeaderBytes format.prof type (some lfield) metaOctet) off size := by
  rw [List.append_assoc, slice_append_right, slice_append_left]
  rw [format.length_headerBytes]
  exact inside

theorem TlvFormat.load_length (format : TlvFormat) (front tail : List UInt8)
    (fits : lfield ≤ tlvLenMax format.prof.lenSize) :
    tlvLoad (front ++ tlvHeaderBytes format.prof type (some lfield) metaOctet ++ tail)
        (front.length + format.prof.lenOff) format.prof.lenSize
        format.prof.bigEndian = lfield := by
  apply tlvLoad_field
  · cases format <;> decide
  · cases format <;> decide
  · cases format <;> simp [TlvFormat.prof, tlvProfGtp2c, tlvProfDiameter,
      tlvProfNetlink, tlvLenMax] at fits ⊢ <;> omega
  · rw [format.slice_header _ _ _ _ _ (by cases format <;> decide)]
    cases format <;> simp [TlvFormat.prof, tlvProfGtp2c, tlvProfDiameter, tlvProfNetlink,
        tlvHeaderBytes, tlvHeader, memset, tlvStore, tlvNoMeta, splice, slice,
        tlvField, beBytes, leBytes]

theorem TlvFormat.load_type (format : TlvFormat) (front tail : List UInt8)
    (fits : type < 256 ^ format.prof.typeSize) :
    tlvLoad (front ++ tlvHeaderBytes format.prof type (some lfield) metaOctet ++ tail)
        (front.length + format.prof.typeOff) format.prof.typeSize
        format.prof.bigEndian = type := by
  apply tlvLoad_field
  · cases format <;> decide
  · cases format <;> decide
  · exact fits
  · rw [format.slice_header _ _ _ _ _ (by cases format <;> decide)]
    cases format <;> simp [TlvFormat.prof, tlvProfGtp2c, tlvProfDiameter, tlvProfNetlink,
        tlvHeaderBytes, tlvHeader, memset, tlvStore, tlvNoMeta, splice, slice,
        tlvField, beBytes, leBytes]

theorem TlvFormat.load_meta (format : TlvFormat) (front tail : List UInt8)
    (absent : format.prof.metaOff = tlvNoMeta → metaOctet = 0) :
    (if format.prof.metaOff = tlvNoMeta then 0 else
        (front ++ tlvHeaderBytes format.prof type (some lfield) metaOctet ++
          tail).getD (front.length + format.prof.metaOff) 0) = metaOctet := by
  by_cases without : format.prof.metaOff = tlvNoMeta
  · rw [if_pos without, absent without]
  · rw [if_neg without]
    cases format <;> simp [TlvFormat.prof, tlvProfGtp2c, tlvProfDiameter, tlvProfNetlink,
        tlvHeaderBytes, tlvHeader, memset, tlvStore, tlvNoMeta, splice,
        beBytes] at without ⊢

theorem TlvFormat.iterNext_frame (format : TlvFormat) (front body after : List UInt8)
    (typeFits : type < 256 ^ format.prof.typeSize)
    (absent : format.prof.metaOff = tlvNoMeta → metaOctet = 0)
    (lengthFits : tlvFrameLength format.prof body.length ≤ tlvLenMax format.prof.lenSize)
    (within : front.length + (tlvFrame format.prof type metaOctet body).length ≤ stop) :
    tlvIterNext
        { mem := front ++ tlvFrame format.prof type metaOctet body ++ after
          cur := front.length
          stop := stop
          prof := format.prof } =
      some
        ({ type := type
           len := body.length
           metaOctet := metaOctet
           value := front.length + format.prof.hdrLen },
         { mem := front ++ tlvFrame format.prof type metaOctet body ++ after
           cur := front.length + (tlvFrame format.prof type metaOctet body).length
           stop := stop
           prof := format.prof }) := by
  have mem : front ++ tlvFrame format.prof type metaOctet body ++ after =
      front ++ tlvHeaderBytes format.prof type
        (some (tlvFrameLength format.prof body.length)) metaOctet ++
        (body ++ tlvPadding format.prof body.length ++ after) := by
    simp only [tlvFrame, List.append_assoc]
  have aligned := tlvAlign_ge format.prof.align (format.prof.hdrLen + body.length)
  rw [format.length_frame] at within ⊢
  have room : ¬ stop - front.length < format.prof.hdrLen := by omega
  have counted : ¬ (format.prof.lenInclHdr = true ∧
      tlvFrameLength format.prof body.length < format.prof.hdrLen) := by
    rintro ⟨inclusive, short⟩
    simp only [tlvFrameLength, if_pos inclusive] at short
    omega
  have valueLength :
      (if format.prof.lenInclHdr = true then
        tlvFrameLength format.prof body.length - format.prof.hdrLen
      else tlvFrameLength format.prof body.length) = body.length := by
    unfold tlvFrameLength
    split <;> omega
  have valueRoom : ¬ body.length > stop - front.length - format.prof.hdrLen := by omega
  have advance : min (tlvAlign format.prof.align
      (format.prof.hdrLen + body.length)) (stop - front.length) =
        tlvAlign format.prof.align (format.prof.hdrLen + body.length) := by
    omega
  simp only [tlvIterNext]
  rw [mem, format.load_length _ _ lengthFits, format.load_type _ _ typeFits,
    format.load_meta _ _ absent, if_neg room, if_neg counted, valueLength,
    if_neg valueRoom, advance]

theorem TlvFormat.frame_split (format : TlvFormat)
    (front body after : List UInt8) (type : Nat) (metaOctet : UInt8) :
    ∃ header, (front ++ header).length = front.length + format.prof.hdrLen ∧
      front ++ tlvFrame format.prof type metaOctet body ++ after = front ++ header ++ body ++
          (tlvPadding format.prof body.length ++ after) := by
  refine ⟨tlvHeaderBytes format.prof type
    (some (tlvFrameLength format.prof body.length)) metaOctet, ?_, ?_⟩
  · rw [List.length_append, format.length_headerBytes]
  · simp only [tlvFrame, List.append_assoc]

mutual
theorem TlvEntry.readAs_bytes {format : TlvFormat} (front after : List UInt8)
    (entry : TlvEntry) (fields : entry.FieldsFit format.prof)
    (lengths : entry.LengthsFit format.prof)
    (within : front.length + (entry.bytes format.prof).length ≤ stop) :
    ∃ view, tlvIterNext
          { mem := front ++ entry.bytes format.prof ++ after
            cur := front.length
            stop := stop
            prof := format.prof } =
        some (view,
          { mem := front ++ entry.bytes format.prof ++ after
            cur := front.length + (entry.bytes format.prof).length
            stop := stop
            prof := format.prof }) ∧
      entry.ReadAs
        { mem := front ++ entry.bytes format.prof ++ after
          cur := front.length
          stop := stop
          prof := format.prof } view := by
  cases entry with
  | leaf type metaOctet value =>
    refine ⟨_, format.iterNext_frame front value after fields.1 fields.2
      lengths within, rfl, rfl, rfl, ?_⟩
    obtain ⟨header, start, mem⟩ := format.frame_split front value after type metaOctet
    simp only [TlvEntry.bytes]
    rw [mem, ← start, slice_append_length]
  | group type metaOctet children =>
    refine ⟨_, format.iterNext_frame front (children.bytes format.prof) after
      fields.1 fields.2.1 lengths.1 within, rfl, rfl, ?_⟩
    obtain ⟨header, start, mem⟩ := format.frame_split front
      (children.bytes format.prof) after type metaOctet
    simp only [TlvEntry.bytes, tlvIterGrouped]
    rw [mem, ← start]
    exact TlvForest.readBy_bytes _ _ children fields.2.2 lengths.2

theorem TlvForest.readBy_bytes {format : TlvFormat} (front after : List UInt8)
    (forest : TlvForest) (fields : forest.FieldsFit format.prof)
    (lengths : forest.LengthsFit format.prof) :
    forest.ReadBy
      { mem := front ++ forest.bytes format.prof ++ after
        cur := front.length
        stop := front.length + (forest.bytes format.prof).length
        prof := format.prof } := by
  cases forest with
  | nil =>
    have header : 0 < format.prof.hdrLen := by cases format <;> decide
    simp [TlvForest.ReadBy, TlvForest.bytes, tlvIterNext, header]
  | cons head tail =>
    have mem : front ++ TlvForest.bytes format.prof (.cons head tail) ++ after =
        front ++ head.bytes format.prof ++ (tail.bytes format.prof ++ after) := by
      simp only [TlvForest.bytes, List.append_assoc]
    have stop : front.length + (TlvForest.bytes format.prof (.cons head tail)).length =
        (front ++ head.bytes format.prof).length + (tail.bytes format.prof).length := by
      simp only [TlvForest.bytes, List.length_append, Nat.add_assoc]
    rw [mem, stop]
    obtain ⟨view, next, read⟩ := TlvEntry.readAs_bytes front
      (tail.bytes format.prof ++ after) head fields.1 lengths.1
      (show _ ≤ (front ++ head.bytes format.prof).length + (tail.bytes format.prof).length by
          rw [List.length_append]
          exact Nat.le_add_right _ _)
    refine ⟨view, _, next, read, ?_⟩
    have rest := TlvForest.readBy_bytes (front ++ head.bytes format.prof)
      after tail fields.2 lengths.2
    rw [← List.length_append]
    rw [List.append_assoc (front ++ _)] at rest
    exact rest
end

/-- A forest that was written without an error is read back: the iterator over
the written bytes yields its entries with their types, meta octets and values
in order, the groups by descending into them, and nothing after it. -/
theorem forest_readBy_of_write {format : TlvFormat} {buf : List UInt8}
    {forest : TlvForest} {w : TlvWbuf}
    (fields : forest.FieldsFit format.prof)
    (accepted : forest.write format.prof (tlvWbufInit buf) = (w, tlvOk)) :
    forest.ReadBy (tlvIterInit format.prof (w.buf.take w.off)) := by
  obtain ⟨written, lengths⟩ := forest.written_of_write (written_init buf) accepted
  have read := forest.readBy_bytes [] [] fields lengths
  rw [written.take_eq]
  simpa [tlvIterInit] using read

def groupedAvp : TlvForest :=
  .cons (.group 260 0x40 (.cons (.leaf 266 0x40 [0, 0, 0x28, 0xAF]) .nil))
    (.cons (.leaf 293 0x40 [0x61]) .nil)

theorem groupedAvp_readBy :
    groupedAvp.FieldsFit TlvFormat.diameter.prof ∧ ∃ w, groupedAvp.write TlvFormat.diameter.prof
          (tlvWbufInit (List.replicate 40 0)) = (w, tlvOk) ∧ w.off = 32 ∧
        groupedAvp.ReadBy (tlvIterInit TlvFormat.diameter.prof (w.buf.take w.off)) := by
  have fields : groupedAvp.FieldsFit TlvFormat.diameter.prof := by
    simp [groupedAvp, TlvForest.FieldsFit, TlvEntry.FieldsFit, TlvFormat.prof,
      tlvProfDiameter, tlvNoMeta]
  have accepted : groupedAvp.write TlvFormat.diameter.prof (tlvWbufInit (List.replicate 40 0)) =
        ((groupedAvp.write TlvFormat.diameter.prof
          (tlvWbufInit (List.replicate 40 0))).1, tlvOk) := by
    decide
  exact ⟨fields, _, accepted, by decide, forest_readBy_of_write fields accepted⟩

end Pro2Call.Task

import Pro2Call.Data.Bytes

namespace Pro2Call.Task

open Pro2Call.Data

/-! The generic type-length-value codec. A profile describes the fixed header
of one wire format; the iterator and the writer work from the profile alone. -/

def tlvOk : Int := 0
def tlvEOverflow : Int := -1
def tlvEInval : Int := -2

def tlvNoMeta : Nat := 0xFF

structure TlvProf where
  hdrLen : Nat
  typeOff : Nat
  typeSize : Nat
  lenOff : Nat
  lenSize : Nat
  metaOff : Nat
  align : Nat
  lenInclHdr : Bool
  bigEndian : Bool
  deriving DecidableEq, Repr

def tlvProfGtp2c : TlvProf where
  hdrLen := 4
  typeOff := 0
  typeSize := 1
  lenOff := 1
  lenSize := 2
  metaOff := 3
  align := 1
  lenInclHdr := false
  bigEndian := true

def tlvProfDiameter : TlvProf where
  hdrLen := 8
  typeOff := 0
  typeSize := 4
  lenOff := 5
  lenSize := 3
  metaOff := 4
  align := 4
  lenInclHdr := true
  bigEndian := true

def tlvProfNetlink : TlvProf where
  hdrLen := 4
  typeOff := 2
  typeSize := 2
  lenOff := 0
  lenSize := 2
  metaOff := tlvNoMeta
  align := 4
  lenInclHdr := true
  bigEndian := false

structure TlvView where
  type : Nat
  len : Nat
  metaOctet : UInt8
  value : Nat
  deriving DecidableEq, Repr

structure TlvIter where
  mem : List UInt8
  cur : Nat
  stop : Nat
  prof : TlvProf

structure TlvWbuf where
  buf : List UInt8
  cap : Nat
  off : Nat
  overflow : Bool
  deriving DecidableEq, Repr

def tlvLoad (mem : List UInt8) (pos size : Nat) (bigEndian : Bool) : Nat :=
  if bigEndian then beNat (slice mem pos size) % 2 ^ 32
  else if size = 2 then leNat (slice mem pos 2)
  else if size = 4 then leNat (slice mem pos 4)
  else leNat (slice mem pos 1)

def tlvStore (mem : List UInt8) (pos size : Nat) (bigEndian : Bool) (value : Nat) : List UInt8 :=
  if bigEndian then splice mem pos (beBytes size value)
  else if size = 2 then splice mem pos (leBytes 2 value)
  else if size = 4 then splice mem pos (leBytes 4 value)
  else splice mem pos (leBytes 1 value)

def tlvLenMax (lenSize : Nat) : Nat :=
  if 4 ≤ lenSize then 2 ^ 32 - 1 else 2 ^ (8 * lenSize) - 1

def memset (mem : List UInt8) (pos len : Nat) : List UInt8 := splice mem pos (List.replicate len 0)

def tlvAlign (align size : Nat) : Nat :=
  if 1 < align then
    if size % align ≠ 0 then size + (align - size % align) else size
  else size

def tlvIterInit (prof : TlvProf) (payload : List UInt8) : TlvIter where
  mem := payload
  cur := 0
  stop := payload.length
  prof := prof

def tlvIterGrouped (it : TlvIter) (prof : TlvProf) (grouped : TlvView) :
    TlvIter where
  mem := it.mem
  cur := grouped.value
  stop := grouped.value + grouped.len
  prof := prof

def tlvIterNext (it : TlvIter) : Option (TlvView × TlvIter) :=
  let p := it.prof
  let avail := it.stop - it.cur
  if avail < p.hdrLen then none
  else
    let lfield := tlvLoad it.mem (it.cur + p.lenOff) p.lenSize p.bigEndian
    if p.lenInclHdr ∧ lfield < p.hdrLen then none
    else
      let vlen := if p.lenInclHdr then lfield - p.hdrLen else lfield
      if vlen > avail - p.hdrLen then none
      else
        let out : TlvView := {
          type := tlvLoad it.mem (it.cur + p.typeOff) p.typeSize p.bigEndian
          len := vlen
          metaOctet :=
            if p.metaOff = tlvNoMeta then 0
            else it.mem.getD (it.cur + p.metaOff) 0
          value := it.cur + p.hdrLen }
        let adv := tlvAlign p.align (p.hdrLen + vlen)
        some (out, { it with cur := it.cur + min adv avail })

def tlvWbufInit (buf : List UInt8) : TlvWbuf where
  buf := buf
  cap := buf.length
  off := 0
  overflow := false

def tlvWbufReserve (w : TlvWbuf) (n : Nat) : TlvWbuf × Option Int :=
  if w.overflow then (w, some tlvEOverflow)
  else if n > w.cap - w.off then
    ({ w with overflow := true }, some tlvEOverflow)
  else (w, none)

/-- The fixed header: zeroed, then the fields a call knows are stored. The
length is left out by a nested entry until its end. -/
def tlvHeader (p : TlvProf) (mem : List UInt8) (pos type : Nat)
    (lfield : Option Nat) (metaOctet : UInt8) : List UInt8 :=
  let mem := memset mem pos p.hdrLen
  let mem := tlvStore mem (pos + p.typeOff) p.typeSize p.bigEndian type
  let mem :=
    match lfield with
    | some lfield => tlvStore mem (pos + p.lenOff) p.lenSize p.bigEndian lfield
    | none => mem
  if p.metaOff ≠ tlvNoMeta then splice mem (pos + p.metaOff) [metaOctet] else mem

/-- The length field of a complete entry. The caller's value length is a
`uint32_t`, so the sum is computed modulo 2^32. -/
def tlvPutLength (p : TlvProf) (vlen : Nat) : Nat :=
  if p.lenInclHdr then (p.hdrLen + vlen) % 2 ^ 32 else vlen

def tlvPut (w : TlvWbuf) (p : TlvProf) (type : Nat) (metaOctet : UInt8)
    (val : List UInt8) : TlvWbuf × Int :=
  let vlen := val.length
  let lfield := tlvPutLength p vlen
  if lfield < vlen ∨ lfield > tlvLenMax p.lenSize then (w, tlvEInval)
  else
    let total := tlvAlign p.align (p.hdrLen + vlen)
    match tlvWbufReserve w total with
    | (w, some rc) => (w, rc)
    | (w, none) =>
      let buf := tlvHeader p w.buf w.off type (some lfield) metaOctet
      let buf := splice buf (w.off + p.hdrLen) val
      let buf := memset buf (w.off + p.hdrLen + vlen) (total - p.hdrLen - vlen)
      ({ w with buf := buf, off := w.off + total }, tlvOk)

def toInt (value : Nat) : Int := ((value + 2 ^ 31 : Nat) % 2 ^ 32 : Nat) - 2 ^ 31

def tlvBegin (w : TlvWbuf) (p : TlvProf) (type : Nat) (metaOctet : UInt8) : TlvWbuf × Int :=
  match tlvWbufReserve w p.hdrLen with
  | (w, some rc) => (w, rc)
  | (w, none) =>
    let buf := tlvHeader p w.buf w.off type none metaOctet
    ({ w with buf := buf, off := w.off + p.hdrLen }, toInt w.off)

def tlvEndLength (w : TlvWbuf) (p : TlvProf) (off : Nat) : Nat :=
  if p.lenInclHdr then w.off - off else w.off - off - p.hdrLen

def tlvEnd (w : TlvWbuf) (p : TlvProf) (handle : Int) : TlvWbuf × Int :=
  if w.overflow then (w, tlvEOverflow)
  else if handle < 0 then (w, tlvEInval)
  else
    let off := handle.toNat
    if off + p.hdrLen > w.off then (w, tlvEInval)
    else
      let content := w.off - off
      let lfield := tlvEndLength w p off
      if lfield > tlvLenMax p.lenSize then (w, tlvEOverflow)
      else
        let w := { w with
          buf := tlvStore w.buf (off + p.lenOff) p.lenSize p.bigEndian lfield }
        let pad := tlvAlign p.align content - content
        if pad = 0 then (w, tlvOk)
        else
          match tlvWbufReserve w pad with
          | (w, some rc) => (w, rc)
          | (w, none) =>
            ({ w with buf := memset w.buf w.off pad, off := w.off + pad }, tlvOk)

theorem tlvWbufReserve_cases (w : TlvWbuf) (n : Nat) :
    (w.overflow = true ∧ tlvWbufReserve w n = (w, some tlvEOverflow)) ∨
      (w.overflow = false ∧ ¬ n ≤ w.cap - w.off ∧ tlvWbufReserve w n =
          ({ w with overflow := true }, some tlvEOverflow)) ∨
      (w.overflow = false ∧ n ≤ w.cap - w.off ∧ tlvWbufReserve w n = (w, none)) := by
  unfold tlvWbufReserve
  cases flag : w.overflow with
  | true => simp
  | false =>
    by_cases room : n ≤ w.cap - w.off
    · simp [room]
    · have exceeds : n > w.cap - w.off := by omega
      simp [exceeds]

variable {w : TlvWbuf} {p : TlvProf}

theorem tlvPut_of_length_range {val : List UInt8} (type : Nat) (metaOctet : UInt8)
    (outside : tlvPutLength p val.length < val.length ∨
      tlvPutLength p val.length > tlvLenMax p.lenSize) :
    tlvPut w p type metaOctet val = (w, tlvEInval) := by
  simp only [tlvPut, if_pos outside]

theorem tlvPut_of_refused {val : List UInt8} (type : Nat) (metaOctet : UInt8)
    (inside : ¬ (tlvPutLength p val.length < val.length ∨
      tlvPutLength p val.length > tlvLenMax p.lenSize))
    (refused : tlvWbufReserve w (tlvAlign p.align (p.hdrLen + val.length)) = (w', some rc)) :
    tlvPut w p type metaOctet val = (w', rc) := by
  simp only [tlvPut, if_neg inside, refused]

theorem tlvPut_of_reserved {val : List UInt8} (type : Nat) (metaOctet : UInt8)
    (inside : ¬ (tlvPutLength p val.length < val.length ∨
      tlvPutLength p val.length > tlvLenMax p.lenSize))
    (reserved : tlvWbufReserve w (tlvAlign p.align (p.hdrLen + val.length)) = (w, none)) :
    tlvPut w p type metaOctet val =
      ({ w with
        buf := memset (splice (tlvHeader p w.buf w.off type (some (tlvPutLength p val.length))
              metaOctet)
            (w.off + p.hdrLen) val)
          (w.off + p.hdrLen + val.length)
          (tlvAlign p.align (p.hdrLen + val.length) - p.hdrLen - val.length)
        off := w.off + tlvAlign p.align (p.hdrLen + val.length) }, tlvOk) := by
  simp only [tlvPut, if_neg inside, reserved]

theorem tlvBegin_of_refused (type : Nat) (metaOctet : UInt8)
    (refused : tlvWbufReserve w p.hdrLen = (w', some rc)) :
    tlvBegin w p type metaOctet = (w', rc) := by
  simp only [tlvBegin, refused]

theorem tlvBegin_of_reserved (type : Nat) (metaOctet : UInt8)
    (reserved : tlvWbufReserve w p.hdrLen = (w, none)) :
    tlvBegin w p type metaOctet =
      ({ w with
        buf := tlvHeader p w.buf w.off type none metaOctet
        off := w.off + p.hdrLen }, toInt w.off) := by
  simp only [tlvBegin, reserved]

structure EntryOpen (w : TlvWbuf) (p : TlvProf) (handle : Int) : Prop where
  clear : w.overflow = false
  nonneg : 0 ≤ handle
  within : handle.toNat + p.hdrLen ≤ w.off

theorem tlvEnd_of_not_open (clear : w.overflow = false) (notOpen : ¬ EntryOpen w p handle) :
    tlvEnd w p handle = (w, tlvEInval) := by
  by_cases negative : handle < 0
  · simp [tlvEnd, clear, negative]
  · have beyond : handle.toNat + p.hdrLen > w.off := by
      by_contra inside
      exact notOpen ⟨clear, by omega, by omega⟩
    simp [tlvEnd, clear, negative, beyond]

theorem tlvEnd_of_length_range (opened : EntryOpen w p handle)
    (outside : ¬ tlvEndLength w p handle.toNat ≤ tlvLenMax p.lenSize) :
    tlvEnd w p handle = (w, tlvEOverflow) := by
  have notNegative : ¬ handle < 0 := by have := opened.nonneg; omega
  have inside : ¬ handle.toNat + p.hdrLen > w.off := by
    have := opened.within
    omega
  have exceeds : tlvEndLength w p handle.toNat > tlvLenMax p.lenSize := by
    omega
  simp [tlvEnd, opened.clear, notNegative, inside, exceeds]

def tlvPatched (w : TlvWbuf) (p : TlvProf) (off : Nat) : TlvWbuf :=
  { w with
    buf := tlvStore w.buf (off + p.lenOff) p.lenSize p.bigEndian (tlvEndLength w p off) }

theorem tlvEnd_of_in_range (opened : EntryOpen w p handle)
    (inRange : tlvEndLength w p handle.toNat ≤ tlvLenMax p.lenSize) :
    tlvEnd w p handle = (let w' := tlvPatched w p handle.toNat
       let content := w.off - handle.toNat
       let pad := tlvAlign p.align content - content
       if pad = 0 then (w', tlvOk)
       else
         match tlvWbufReserve w' pad with
         | (w', some rc) => (w', rc)
         | (w', none) =>
           ({ w' with
             buf := memset w'.buf w'.off pad
             off := w'.off + pad }, tlvOk)) := by
  have notNegative : ¬ handle < 0 := by have := opened.nonneg; omega
  have inside : ¬ handle.toNat + p.hdrLen > w.off := by
    have := opened.within
    omega
  have fits : ¬ tlvEndLength w p handle.toNat > tlvLenMax p.lenSize := by
    omega
  simp only [tlvEnd, opened.clear, if_neg notNegative, if_neg inside,
    if_neg fits, tlvPatched, Bool.false_eq_true, if_false]

end Pro2Call.Task

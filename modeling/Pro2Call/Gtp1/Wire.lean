import Pro2Call.Task.Endian
import Pro2Call.Task.TlvForest

namespace Pro2Call.Gtp1

open Pro2Call.Data
open Pro2Call.Task

/-! The GTPv1-C codec: the message header with its extension headers, the walk
over TV and TLV elements, and the writes of single elements. -/

abbrev Bytes := List UInt8

def gtp1Ok : Int := 0
def gtp1EShort : Int := -1
def gtp1EVersion : Int := -2
def gtp1ELength : Int := -3
def gtp1EOverflow : Int := -4
def gtp1EInval : Int := -5

def gtp1Version : UInt8 := 1
def gtp1HdrMin : Nat := 8
def gtp1HdrCtrl : Nat := 12
def gtp1TlvHdrLen : Nat := 3

def flagPn : UInt8 := 0x01
def flagS : UInt8 := 0x02
def flagE : UInt8 := 0x04
def flagPt : UInt8 := 0x10

structure Gtp1Hdr where
  version : UInt8
  pt : Bool
  e : Bool
  s : Bool
  pn : Bool
  messageType : UInt8
  length : UInt16
  teid : UInt32
  sequence : UInt16
  npdu : UInt8
  nextExt : UInt8
  deriving DecidableEq, Repr

def skipExtensions (buf : Bytes) (total off : Nat) (next : UInt8) : Except Int Nat :=
  if next = 0 then .ok off
  else if total ≤ off then .error gtp1ELength
  else
    let n := (buf.getD off 0).toNat * 4
    if n = 0 ∨ off + n > total then .error gtp1ELength
    else skipExtensions buf total (off + n) (buf.getD (off + n - 1) 0)
termination_by total - off
decreasing_by
  have step : 0 < (buf.getD off 0).toNat * 4 := by omega
  simp only [List.getD_eq_getElem?_getD] at step
  omega

def gtp1HdrDecode (buf : Bytes) : Except Int (Gtp1Hdr × Nat) :=
  if buf.length < gtp1HdrMin then .error gtp1EShort
  else
    let flags := buf.getD 0 0
    let version := flags >>> 5
    if version ≠ gtp1Version then .error gtp1EVersion
    else
      let pt := flags &&& flagPt != 0
      if !pt then .error gtp1EVersion
      else
        let e := flags &&& flagE != 0
        let s := flags &&& flagS != 0
        let pn := flags &&& flagPn != 0
        let length := be16Load buf 2
        let total := gtp1HdrMin + length.toNat
        if total > buf.length then .error gtp1ELength
        else
          let hdr : Gtp1Hdr := {
            version := version
            pt := pt
            e := e
            s := s
            pn := pn
            messageType := buf.getD 1 0
            length := length
            teid := be32Load buf 4
            sequence := 0
            npdu := 0
            nextExt := 0 }
          if e || s || pn then
            if total < gtp1HdrCtrl then .error gtp1ELength
            else
              let next := if e then buf.getD 11 0 else 0
              match skipExtensions buf total gtp1HdrCtrl next with
              | .error rc => .error rc
              | .ok off => .ok ({ hdr with
                  sequence := if s then be16Load buf 8 else 0
                  npdu := if pn then buf.getD 10 0 else 0
                  nextExt := next }, off)
          else .ok (hdr, gtp1HdrMin)

def gtp1HdrBytes (hdr : Gtp1Hdr) : Bytes :=
  [(gtp1Version <<< 5) ||| flagPt ||| flagS, hdr.messageType] ++
    beBytes 2 hdr.length.toNat ++ beBytes 4 hdr.teid.toNat ++
    beBytes 2 hdr.sequence.toNat ++ [0, 0]

def gtp1HdrEncode (w : TlvWbuf) (hdr : Gtp1Hdr) : Except Int TlvWbuf :=
  if w.cap < gtp1HdrCtrl then .error gtp1EOverflow
  else .ok { w with
    buf := splice w.buf 0 (gtp1HdrBytes hdr)
    off := gtp1HdrCtrl }

def gtp1HdrFinalize (w : TlvWbuf) (hdrOff : Nat) : TlvWbuf × Int :=
  if w.overflow then (w, gtp1EOverflow)
  else if w.off < hdrOff + gtp1HdrMin then (w, gtp1EInval)
  else
    let payload := w.off - hdrOff - gtp1HdrMin
    if payload > 0xFFFF then (w, gtp1EOverflow)
    else
      ({ w with buf := splice w.buf (hdrOff + 2) (beBytes 2 payload) }, gtp1Ok)

structure Gtp1IeView where
  type : UInt8
  len : UInt16
  value : Nat
  deriving DecidableEq, Repr

/-- Iterator over the range `cur ..< stop`, with the table of the value lengths
of TV elements. -/
structure Gtp1IeIter where
  mem : Bytes
  cur : Nat
  stop : Nat
  tvlen : Nat → UInt16

def gtp1IeIterInit (mem : Bytes) (payload len : Nat) (tvlen : Nat → UInt16) :
    Gtp1IeIter where
  mem := mem
  cur := payload
  stop := payload + len
  tvlen := tvlen

def gtp1IeIterNext (it : Gtp1IeIter) : Option (Gtp1IeView × Gtp1IeIter) :=
  let avail := it.stop - it.cur
  if avail < 1 then none
  else
    let type := it.mem.getD it.cur 0
    if type < 0x80 then
      -- TV: an unknown type has no length and ends the walk
      let vlen := it.tvlen type.toNat
      if vlen = 0 ∨ avail < 1 + vlen.toNat then none
      else
        some (⟨type, vlen, it.cur + 1⟩, { it with cur := it.cur + (1 + vlen.toNat) })
    else if avail < gtp1TlvHdrLen then none
    else
      let vlen := be16Load it.mem (it.cur + 1)
      if vlen.toNat > avail - gtp1TlvHdrLen then none
      else
        some (⟨type, vlen, it.cur + gtp1TlvHdrLen⟩,
          { it with cur := it.cur + (gtp1TlvHdrLen + vlen.toNat) })

/-! Element write. The message layer drops the return codes: the overflow flag
of the buffer is sticky and is checked at the end. -/

def gtp1IePut (w : TlvWbuf) (bytes : Bytes) : TlvWbuf × Int :=
  match tlvWbufReserve w bytes.length with
  | (w, some _) => (w, gtp1EOverflow)
  | (w, none) =>
    ({ w with
      buf := splice w.buf w.off bytes
      off := w.off + bytes.length }, gtp1Ok)

def gtp1IePutTv (w : TlvWbuf) (type : UInt8) (val : Bytes) : TlvWbuf × Int :=
  gtp1IePut w (type :: val)

def gtp1IePutTlv (w : TlvWbuf) (type : UInt8) (val : Bytes) : TlvWbuf × Int :=
  gtp1IePut w (type :: (beBytes 2 val.length ++ val))

end Pro2Call.Gtp1

import Pro2Call.Task.Endian
import Pro2Call.Task.TlvForest

namespace Pro2Call.Diam

open Pro2Call.Data
open Pro2Call.Task

/-! The Diameter codec: the message header, and AVPs on top of the generic
type-length-value codec. A vendor id lies inside the value of the underlying
entry. -/

def diamEShort : Int := -1
def diamEVersion : Int := -2
def diamELength : Int := -3
def diamEOverflow : Int := -4
def diamEInval : Int := -5
def diamEType : Int := -6

def diamVersion : UInt8 := 1
def diamHdrLen : Nat := 20

def diamHdrFRequest : UInt8 := 0x80
def diamHdrFProxiable : UInt8 := 0x40
def diamHdrFError : UInt8 := 0x20
def diamHdrFRetransmit : UInt8 := 0x10

def diamAvpFVendor : UInt8 := 0x80

structure DiamHdr where
  version : UInt8
  length : UInt32
  request : Bool
  proxiable : Bool
  error : Bool
  retransmit : Bool
  cmdCode : UInt32
  appId : UInt32
  hbh : UInt32
  e2e : UInt32
  deriving DecidableEq, Repr

/-- AVP view: `value` is the position of the data in the input buffer. -/
structure DiamAvpView where
  code : UInt32
  flags : UInt8
  vendorId : UInt32
  len : Nat
  value : Nat
  deriving DecidableEq, Repr

def diamHdrDecode (buf : List UInt8) : Except Int DiamHdr :=
  if buf.length < diamHdrLen then .error diamEShort
  else
    let flags := buf.getD 4 0
    let out : DiamHdr := {
      version := buf.getD 0 0
      length := be24Load buf 1
      request := flags &&& diamHdrFRequest != 0
      proxiable := flags &&& diamHdrFProxiable != 0
      error := flags &&& diamHdrFError != 0
      retransmit := flags &&& diamHdrFRetransmit != 0
      cmdCode := be24Load buf 5
      appId := be32Load buf 8
      hbh := be32Load buf 12
      e2e := be32Load buf 16 }
    if out.version ≠ diamVersion then .error diamEVersion
    else if out.length.toNat < diamHdrLen then .error diamELength
    else if out.length.toNat > buf.length then .error diamELength
    else if out.length.toNat % 4 ≠ 0 then .error diamELength
    else .ok out

def diamAvpIterInit (mem : List UInt8) (payload len : Nat) : TlvIter where
  mem := mem
  cur := payload
  stop := payload + len
  prof := tlvProfDiameter

/-- The iterator is returned with a refusal too: an AVP whose vendor id is cut
short is refused after the entry was passed. -/
def diamAvpIterNext (it : TlvIter) : TlvIter × Option DiamAvpView :=
  match tlvIterNext it with
  | none => (it, none)
  | some (v, next) =>
    if v.metaOctet &&& diamAvpFVendor ≠ 0 then
      if v.len < 4 then (next, none)
      else
        (next, some {
          code := .ofNat v.type
          flags := v.metaOctet
          vendorId := be32Load it.mem v.value
          len := v.len - 4
          value := v.value + 4 })
    else
      (next, some {
        code := .ofNat v.type
        flags := v.metaOctet
        vendorId := 0
        len := v.len
        value := v.value })

end Pro2Call.Diam

import Pro2Call.Nlmsg.Transact
import Pro2Call.Task.TlvOverflow
import Pro2Call.Task.TlvSticky

namespace Pro2Call.Nlmsg

open Pro2Call.Data
open Pro2Call.Task

/-! What the xfrm and the rtnl message builders share: address literals, the header and
fixed part of a request, and its attributes. The host is little-endian. -/

structure Pton where
  v4 : List UInt8 → Option (Vector UInt8 4)
  v6 : List UInt8 → Option (Vector UInt8 16)

inductive Address where
  | v4 (octets : Vector UInt8 4)
  | v6 (octets : Vector UInt8 16)
  deriving DecidableEq, Repr

def afInet : Nat := 2
def afInet6 : Nat := 10

def Address.family : Address → Nat
  | .v4 _ => afInet
  | .v6 _ => afInet6

def Address.octets : Address → List UInt8
  | .v4 octets => octets.toList
  | .v6 octets => octets.toList

/-- The literal is a C string, `none` a null pointer. -/
def addrPton (inet : Pton) (s : Option (List UInt8)) : Except Int Address :=
  match s with
  | none | some [] => .error nlEInval
  | some s =>
    match inet.v4 s with
    | some octets => .ok (.v4 octets)
    | none =>
      match inet.v6 s with
      | some octets => .ok (.v6 octets)
      | none => .error nlEInval

def nlmFRequest : Nat := 0x1
def nlmFAck : Nat := 0x4
def nlmFReplace : Nat := 0x100
def nlmFExcl : Nat := 0x200
def nlmFCreate : Nat := 0x400

def le16 (v : UInt16) : List UInt8 := leBytes 2 v.toNat
def le32 (v : UInt32) : List UInt8 := leBytes 4 v.toNat
def htons (v : UInt16) : List UInt8 := beBytes 2 v.toNat
def htonl (v : UInt32) : List UInt8 := beBytes 4 v.toNat
def zeros (n : Nat) : List UInt8 := List.replicate n 0

/-- The part before the attributes, `nlmsg_len` still 0, and the writer of the rest. -/
def msgBegin (buf : List UInt8) (type flags : Nat) (seq : UInt32) (fixed : List UInt8) :
    Except Int (List UInt8 × TlvWbuf) :=
  let base := nlmsgAlign (nlmsgHdrlen + fixed.length)
  if base > buf.length then .error nlEOverflow
  else
    let header := zeros 4 ++ leBytes 2 type ++ leBytes 2 flags ++ le32 seq ++ zeros 4
    .ok (header ++ fixed ++ zeros (base - (nlmsgHdrlen + fixed.length)),
      tlvWbufInit (buf.drop base))

def msgEnd (front : List UInt8) (w : TlvWbuf) : Except Int (Int × List UInt8) :=
  if w.overflow then .error nlEOverflow
  else
    let len := (front.length + w.off) % 2 ^ 32
    .ok (toInt len, splice front 0 (leBytes 4 len) ++ w.buf)

def putAttr (type : Nat) (value : List UInt8) (w : TlvWbuf) : TlvWbuf :=
  (tlvPut w tlvProfNetlink type 0 value).1

def putOpt {α : Type} (put : α → TlvWbuf → TlvWbuf) : Option α → TlvWbuf → TlvWbuf
  | some a, w => put a w
  | none, w => w

end Pro2Call.Nlmsg

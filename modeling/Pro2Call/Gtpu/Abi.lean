import Pro2Call.Data.BoundedMap

namespace Pro2Call.Gtpu

open Pro2Call.Data

/-! The map layouts shared by the loader and the two TC programs, and the
loader's own argument structures. Map keys and TEIDs are in host order; ports
stored in a map are in network order. -/

def afUnspec : UInt8 := 0
def afInet : UInt8 := 2
def afInet6 : UInt8 := 10

def gtpuPort : UInt16 := 2152

def gtpuTxfStaticMac : UInt8 := 0x01
def gtpuTxfQfi : UInt8 := 0x02

def htons (value : UInt16) : UInt16 := (value <<< 8) ||| (value >>> 8)

structure GtpuRxTun where
  innerFamily : UInt8
  ebi : UInt8
  innerAddr : Vector UInt8 16
  ifindex : UInt32
  deriving DecidableEq, Repr

structure GtpuTxTun where
  outerFamily : UInt8
  ebi : UInt8
  qfi : UInt8
  flags : UInt8
  remoteAddr : Vector UInt8 16
  dstMac : Vector UInt8 6
  srcMac : Vector UInt8 6
  remotePort : UInt16
  remoteTeid : UInt32
  localTeid : UInt32
  ifindex : UInt32
  deriving DecidableEq, Repr

structure GtpuTftKey where
  family : UInt8
  proto : UInt8
  uePort : UInt16
  remotePort : UInt16
  ueAddr : Vector UInt8 16
  ueSaddr : Vector UInt8 16
  deriving DecidableEq, Repr

structure GtpuTunnel where
  localTeid : UInt32
  remoteTeid : UInt32
  ebi : UInt8
  innerFamily : UInt8
  innerAddr : Vector UInt8 16
  innerPrefixlen : UInt8
  coreSide : Bool
  outerFamily : UInt8
  remoteAddr : Vector UInt8 16
  remotePort : UInt16
  rxIfindex : UInt32
  txIfindex : UInt32
  dstMac : Vector UInt8 6
  srcMac : Vector UInt8 6
  staticMac : Bool
  hasQfi : Bool
  qfi : UInt8
  deriving DecidableEq, Repr

structure GtpuTft where
  tunnel : GtpuTunnel
  proto : UInt8
  uePort : UInt16
  remotePort : UInt16
  innerSaddr : Vector UInt8 16
  deriving DecidableEq, Repr

inductive GtpuErr where
  | ok
  | sys
  | unsupported
  | verifier
  | abi
  | inval
  | noent
  | exist
  deriving DecidableEq, Repr

inductive Errno where
  | eexist
  | enoent
  | eperm
  | e2big
  deriving DecidableEq, Repr

def errnoOf : MapError → Errno
  | .exists => .eexist
  | .missing => .enoent
  | .full => .e2big

def octetBits (octet : UInt8) : List Bool :=
  (List.range 8).map fun index => octet.toNat.testBit (7 - index)

/-- The part of an LPM trie key the trie compares: the first `prefixlen` bits
of the address. Two keys that agree on it name the same trie entry. -/
def lpmPrefix (prefixlen : Nat) (addr : List UInt8) : List Bool :=
  (addr.flatMap octetBits).take prefixlen

/-- An LPM trie holds one value for each stored prefix. -/
abbrev LpmTrie := BoundedMap (List Bool) GtpuTxTun

structure ForwardingMaps where
  rx : BoundedMap UInt32 GtpuRxTun
  tx4 : LpmTrie
  tx6 : LpmTrie
  tft : BoundedMap GtpuTftKey GtpuTxTun
  deriving DecidableEq

end Pro2Call.Gtpu

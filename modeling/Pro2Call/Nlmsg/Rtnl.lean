import Pro2Call.Nlmsg.Xfrm

namespace Pro2Call.Nlmsg

open Pro2Call.Data
open Pro2Call.Task

/-! The message builders of the rtnl module. -/

structure RtnlAddr where
  addr : Literal
  prefixlen : UInt8
  ifindex : UInt32
  scope : UInt8
  deriving DecidableEq, Repr

structure RtnlRoute where
  dst : Literal
  dstlen : UInt8
  gateway : Literal
  ifindex : UInt32
  mtu : UInt32
  priority : UInt32
  table : UInt8
  scope : UInt8
  protocol : UInt8
  type : UInt8
  deriving DecidableEq, Repr

def ifaLocal : Nat := 2
def ifaAddress : Nat := 1

def addrInfo (inet : Pton) (a : RtnlAddr) : Except Int Address :=
  if a.addr = none ∨ a.ifindex = 0 then .error nlEInval
  else do
    let raw ← addrPton inet a.addr
    if a.prefixlen.toNat > raw.octets.length * 8 then .error nlEInval else .ok raw

def ifaddrmsg (a : RtnlAddr) (raw : Address) : List UInt8 :=
  [.ofNat raw.family, a.prefixlen, 0, a.scope] ++ le32 a.ifindex

def addrAttrs (raw : Address) (w : TlvWbuf) : TlvWbuf :=
  let w := if raw.family = afInet then putAttr ifaLocal raw.octets w else w
  putAttr ifaAddress raw.octets w

def addrBuild (inet : Pton) (buf : List UInt8) (type flags : Nat) (seq : UInt32)
    (a : RtnlAddr) : Except Int (Int × List UInt8) := do
  let raw ← addrInfo inet a
  let (front, w) ← msgBegin buf type flags seq (ifaddrmsg a raw)
  msgEnd front (addrAttrs raw w)

/-- An empty literal counts as left out. -/
def routePton (inet : Pton) (s : Literal) : Except Int (Option Address) :=
  if s = none ∨ s = some [] then .ok none else (addrPton inet s).map some

structure RouteInfo where
  family : Nat
  dst : Option Address
  gw : Option Address

/-- The family is that of the destination, of the gateway for a default route. -/
def routeFamily (dst gw : Option Address) : Except Int Address :=
  match dst, gw with
  | none, none => .error nlEInval
  | some dst, some gw => if gw.family ≠ dst.family then .error nlEInval else .ok dst
  | some dst, none => .ok dst
  | none, some gw => .ok gw

def routeInfo (inet : Pton) (r : RtnlRoute) : Except Int RouteInfo := do
  let dst ← routePton inet r.dst
  let gw ← routePton inet r.gateway
  let first ← routeFamily dst gw
  if r.dstlen.toNat > first.octets.length * 8 then .error nlEInval
  else if dst = none ∧ r.dstlen ≠ 0 then .error nlEInval
  else .ok ⟨first.family, dst, gw⟩

def rtmDelroute : Nat := 25

def orElse (v fallback : UInt8) : UInt8 := if v ≠ 0 then v else fallback

def rtmsg (r : RtnlRoute) (info : RouteInfo) (del : Bool) : List UInt8 :=
  [.ofNat info.family, r.dstlen, 0, 0, orElse r.table 254, orElse r.protocol (if del then 0 else 3),
    orElse r.scope (if del then 255 else if info.gw.isSome then 0 else 253),
    orElse r.type (if del then 0 else 1)] ++ zeros 4

def rtaDst : Nat := 1
def rtaOif : Nat := 4
def rtaGateway : Nat := 5
def rtaPriority : Nat := 6
def rtaMetrics : Nat := 8
def rtaxMtu : Nat := 2

def putU32 (type : Nat) (v : UInt32) (w : TlvWbuf) : TlvWbuf :=
  if v ≠ 0 then putAttr type (le32 v) w else w

def putMetrics (mtu : UInt32) (w : TlvWbuf) : TlvWbuf :=
  if mtu ≠ 0 then
    let nest := tlvBegin w tlvProfNetlink rtaMetrics 0
    (tlvEnd (putAttr rtaxMtu (le32 mtu) nest.1) tlvProfNetlink nest.2).1
  else w

def routeAttrs (r : RtnlRoute) (info : RouteInfo) (w : TlvWbuf) : TlvWbuf :=
  let w := putOpt (fun dst => putAttr rtaDst dst.octets) info.dst w
  let w := putOpt (fun gw => putAttr rtaGateway gw.octets) info.gw w
  let w := putU32 rtaOif r.ifindex w
  let w := putU32 rtaPriority r.priority w
  putMetrics r.mtu w

def routeBuild (inet : Pton) (buf : List UInt8) (type flags : Nat) (seq : UInt32)
    (r : RtnlRoute) : Except Int (Int × List UInt8) := do
  let info ← routeInfo inet r
  let (front, w) ← msgBegin buf type flags seq (rtmsg r info (type == rtmDelroute))
  msgEnd front (routeAttrs r info w)

inductive RtnlCall where
  | addr (a : RtnlAddr)
  | addrDel (a : RtnlAddr)
  | route (r : RtnlRoute)
  | routeDel (r : RtnlRoute)
  deriving DecidableEq, Repr

def RtnlCall.build (inet : Pton) (buf : List UInt8) (seq : UInt32) :
    RtnlCall → Except Int (Int × List UInt8)
  | .addr a =>
    addrBuild inet buf 20 (nlmFRequest + nlmFAck + nlmFCreate + nlmFReplace) seq a
  | .addrDel a => addrBuild inet buf 21 (nlmFRequest + nlmFAck) seq a
  | .route r =>
    routeBuild inet buf 24 (nlmFRequest + nlmFAck + nlmFCreate + nlmFReplace) seq r
  | .routeDel r => routeBuild inet buf rtmDelroute (nlmFRequest + nlmFAck) seq r

end Pro2Call.Nlmsg

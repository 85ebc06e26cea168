import Pro2Call.Gtpu.Abi

namespace Pro2Call.Gtpu

open Pro2Call.Data

/-! The loader's forwarding-table calls. Each returns the maps it leaves behind
and its error code; the mutex makes a call one step. -/

def errSys : Option Errno → GtpuErr
  | none => .ok
  | some .eexist => .exist
  | some .enoent => .noent
  | some .eperm => .unsupported
  | some .e2big => .sys

def bpfMapUpdateElem [DecidableEq Key] (map : BoundedMap Key Value)
    (key : Key) (value : Value) (flags : UpdateFlag) :
    BoundedMap Key Value × Option Errno :=
  match map.update key value flags with
  | .ok updated => (updated, none)
  | .error reason => (map, some (errnoOf reason))

def bpfMapDeleteElem [DecidableEq Key] (map : BoundedMap Key Value)
    (key : Key) : BoundedMap Key Value × Option Errno :=
  match map.delete key with
  | .ok updated => (updated, none)
  | .error reason => (map, some (errnoOf reason))

def tunCheck (t : GtpuTunnel) : GtpuErr :=
  if t.localTeid = 0 ∨ t.remoteTeid = 0 then .inval
  else if t.innerFamily ≠ afInet ∧ t.innerFamily ≠ afInet6 then .inval
  else if t.outerFamily ≠ afInet ∧ t.outerFamily ≠ afInet6 then .inval
  else
    let max : UInt8 := if t.innerFamily = afInet then 32 else 128
    if t.innerPrefixlen > max then .inval else .ok

/-- An anchor-side bearer decapsulates traffic coming from the UE, so its
inner destination is not checked. -/
def tunToRx (t : GtpuTunnel) : GtpuRxTun where
  innerFamily := t.innerFamily
  ebi := t.ebi
  innerAddr := if t.coreSide then Vector.replicate 16 0 else t.innerAddr
  ifindex := t.rxIfindex

def tunToTx (t : GtpuTunnel) : GtpuTxTun where
  outerFamily := t.outerFamily
  ebi := t.ebi
  qfi := t.qfi
  flags := (if t.staticMac then gtpuTxfStaticMac else 0) ||| (if t.hasQfi then gtpuTxfQfi else 0)
  remoteAddr := t.remoteAddr
  dstMac := t.dstMac
  srcMac := t.srcMac
  remotePort := htons (if t.remotePort ≠ 0 then t.remotePort else gtpuPort)
  remoteTeid := t.remoteTeid
  localTeid := t.localTeid
  ifindex := t.txIfindex

inductive LpmFd where
  | tx4
  | tx6
  deriving DecidableEq, Repr

def ForwardingMaps.lpm (s : ForwardingMaps) : LpmFd → LpmTrie
  | .tx4 => s.tx4
  | .tx6 => s.tx6

def ForwardingMaps.setLpm (s : ForwardingMaps) (trie : LpmTrie) :
    LpmFd → ForwardingMaps
  | .tx4 => { s with tx4 := trie }
  | .tx6 => { s with tx6 := trie }

def tunLpm (t : GtpuTunnel) : LpmFd × List Bool :=
  if t.innerFamily = afInet then
    let prefixlen :=
      if t.innerPrefixlen ≠ 0 then t.innerPrefixlen.toNat else 32
    (.tx4, lpmPrefix prefixlen (t.innerAddr.toList.take 4))
  else
    let prefixlen :=
      if t.innerPrefixlen ≠ 0 then t.innerPrefixlen.toNat else 128
    (.tx6, lpmPrefix prefixlen t.innerAddr.toList)

def teidWrite (s : ForwardingMaps) (t : GtpuTunnel) (flags : UpdateFlag) :
    ForwardingMaps × GtpuErr :=
  if tunCheck t ≠ .ok then (s, tunCheck t)
  else
    let lpm := tunLpm t
    match bpfMapUpdateElem s.rx t.localTeid (tunToRx t) flags with
    | (_, some rc) => (s, errSys (some rc))
    | (rx, none) =>
      match bpfMapUpdateElem (s.lpm lpm.1) lpm.2 (tunToTx t) flags with
      | (trie, none) => ({ s with rx := rx }.setLpm trie lpm.1, .ok)
      | (_, some rc) =>
        let rx :=
          if flags = .noexist then (bpfMapDeleteElem rx t.localTeid).1
          else rx
        ({ s with rx := rx }, errSys (some rc))

def gtpuTeidAdd (s : ForwardingMaps) (t : GtpuTunnel) : ForwardingMaps × GtpuErr :=
  teidWrite s t .noexist

def gtpuTeidUpdate (s : ForwardingMaps) (t : GtpuTunnel) : ForwardingMaps × GtpuErr :=
  teidWrite s t .exist

def gtpuTeidDel (s : ForwardingMaps) (t : GtpuTunnel) : ForwardingMaps × GtpuErr :=
  if tunCheck t ≠ .ok then (s, tunCheck t)
  else
    let lpm := tunLpm t
    let (rx, rc1) := bpfMapDeleteElem s.rx t.localTeid
    let (trie, rc2) := bpfMapDeleteElem (s.lpm lpm.1) lpm.2
    ({ s with rx := rx }.setLpm trie lpm.1, errSys (rc1 <|> rc2))

def tftKeyBuild (f : GtpuTft) : Except GtpuErr GtpuTftKey :=
  if f.proto = 0 then .error .inval
  else if tunCheck f.tunnel ≠ .ok then .error (tunCheck f.tunnel)
  else
    .ok {
      family := f.tunnel.innerFamily
      proto := f.proto
      uePort := htons f.uePort
      remotePort := htons f.remotePort
      ueAddr := f.tunnel.innerAddr
      ueSaddr := f.innerSaddr }

/-- The decapsulation entry a filter writes: no inner-destination check, and
either inner family once the bearer's filters disagree on it. -/
def tftRx (t : GtpuTunnel) (cur : Option GtpuRxTun) : GtpuRxTun :=
  let rx := { tunToRx t with innerAddr := Vector.replicate 16 0 }
  match cur with
  | none => rx
  | some cur =>
    if cur.innerFamily ≠ rx.innerFamily then
      { rx with innerFamily := afUnspec }
    else rx

def gtpuTftAdd (s : ForwardingMaps) (f : GtpuTft) : ForwardingMaps × GtpuErr :=
  match tftKeyBuild f with
  | .error rc => (s, rc)
  | .ok k =>
    let cur := s.rx.lookup f.tunnel.localTeid
    match bpfMapUpdateElem s.rx f.tunnel.localTeid
        (tftRx f.tunnel cur) .any with
    | (_, some rc) => (s, errSys (some rc))
    | (rx, none) =>
      match bpfMapUpdateElem s.tft k (tunToTx f.tunnel) .noexist with
      | (tft, none) => ({ s with rx := rx, tft := tft }, .ok)
      | (_, some rc) =>
        let rx :=
          if cur.isSome then rx
          else (bpfMapDeleteElem rx f.tunnel.localTeid).1
        ({ s with rx := rx }, errSys (some rc))

def gtpuTftDel (s : ForwardingMaps) (f : GtpuTft) : ForwardingMaps × GtpuErr :=
  match tftKeyBuild f with
  | .error rc => (s, rc)
  | .ok k =>
    let (tft, rc1) := bpfMapDeleteElem s.tft k
    let (rx, rc2) := bpfMapDeleteElem s.rx f.tunnel.localTeid
    ({ s with rx := rx, tft := tft }, errSys (rc1 <|> rc2))

end Pro2Call.Gtpu

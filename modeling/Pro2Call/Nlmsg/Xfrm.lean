import Pro2Call.Data.Text
import Pro2Call.Nlmsg.Attrs

namespace Pro2Call.Nlmsg

open Pro2Call.Data
open Pro2Call.Task

/-! The message builders of the xfrm module. -/

abbrev Literal := Option (List UInt8)

/-- An algorithm: its name and its key. -/
abbrev Algo := List UInt8 × List UInt8

structure XfrmSa where
  src : Literal
  dst : Literal
  spi : UInt32
  proto : UInt8
  mode : UInt8
  reqid : UInt32
  replayWindow : UInt8
  flags : UInt32
  enc : Option Algo
  auth : Option Algo
  aead : Option Algo
  aeadIcvBits : UInt16
  encapSport : UInt16
  encapDport : UInt16
  encapOaddr : Literal
  deriving DecidableEq, Repr

structure XfrmSaId where
  dst : Literal
  spi : UInt32
  proto : UInt8
  deriving DecidableEq, Repr

structure SelectorArgs where
  src : Literal
  srcPrefix : UInt8
  dst : Literal
  dstPrefix : UInt8
  selProto : UInt8
  sport : UInt16
  dport : UInt16
  deriving DecidableEq, Repr

structure XfrmPolicy where
  sel : SelectorArgs
  dir : UInt8
  action : UInt8
  priority : UInt32
  index : UInt32
  hasTmpl : Bool
  tmplSrc : Literal
  tmplDst : Literal
  tmplReqid : UInt32
  tmplProto : UInt8
  tmplMode : UInt8
  deriving DecidableEq, Repr

structure XfrmPolicyId where
  sel : SelectorArgs
  dir : UInt8
  index : UInt32
  deriving DecidableEq, Repr

/-- `xfrm_address_t`: 16 octets, those behind a shorter address 0. -/
def Address.xfrm (a : Address) : List UInt8 := a.octets ++ zeros (16 - a.octets.length)

structure XfrmSelector where
  saddr : Address
  daddr : Address
  args : SelectorArgs

def portMask (port : UInt16) : List UInt8 := if port ≠ 0 then le16 0xFFFF else zeros 2

def XfrmSelector.bytes (sel : XfrmSelector) : List UInt8 :=
  sel.daddr.xfrm ++ sel.saddr.xfrm ++ htons sel.args.dport ++ portMask sel.args.dport ++
    htons sel.args.sport ++ portMask sel.args.sport ++ leBytes 2 sel.saddr.family ++
    [sel.args.dstPrefix, sel.args.srcPrefix, sel.args.selProto] ++ zeros 11

def fillSelector (inet : Pton) (args : SelectorArgs) : Except Int XfrmSelector := do
  let saddr ← addrPton inet args.src
  let daddr ← addrPton inet args.dst
  if saddr.family ≠ daddr.family then .error nlEInval else .ok ⟨saddr, daddr, args⟩

def lifetimeCfg : List UInt8 := List.replicate 32 0xFF ++ zeros 32

def saInfo (inet : Pton) (sa : XfrmSa) : Except Int (Address × Address) :=
  if sa.src = none ∨ sa.dst = none then .error nlEInval
  else if sa.aead = none ∧ sa.enc = none ∧ sa.auth = none then .error nlEInval
  else do
    let dst ← addrPton inet sa.dst
    let src ← addrPton inet sa.src
    if src.family ≠ dst.family then .error nlEInval else .ok (dst, src)

def usersaInfo (sa : XfrmSa) (dst src : Address) : List UInt8 :=
  zeros 56 ++ (dst.xfrm ++ htonl sa.spi ++ [sa.proto] ++ zeros 3) ++ src.xfrm ++ lifetimeCfg ++
    zeros 48 ++ le32 sa.reqid ++ leBytes 2 dst.family ++
    [sa.mode, sa.replayWindow, sa.flags.toUInt8] ++ zeros 7

def xfrmaAlgAuth : Nat := 1
def xfrmaAlgCrypt : Nat := 2
def xfrmaEncap : Nat := 4
def xfrmaTmpl : Nat := 5
def xfrmaAlgAead : Nat := 18

def keyMax : Nat := 512

/-- `strncpy` of at most 63 characters into a zeroed field of 64. -/
def algName (name : List UInt8) : List UInt8 := name.take 63 ++ zeros (64 - (name.take 63).length)

def algoBytes (algo : Algo) : List UInt8 :=
  algName algo.1 ++ leBytes 4 (algo.2.length * 8) ++ algo.2

def aeadBytes (algo : Algo) (icvBits : UInt16) : List UInt8 :=
  algName algo.1 ++ leBytes 4 (algo.2.length * 8) ++ leBytes 4 icvBits.toNat ++ algo.2

def putKeyed (attr : Nat) (key value : List UInt8) (w : TlvWbuf) : TlvWbuf :=
  if key.length > keyMax then { w with overflow := true } else putAttr attr value w

def putAlgo (attr : Nat) (algo : Algo) : TlvWbuf → TlvWbuf := putKeyed attr algo.2 (algoBytes algo)

def putAead (algo : Algo) (icvBits : UInt16) : TlvWbuf → TlvWbuf :=
  putKeyed xfrmaAlgAead algo.2 (aeadBytes algo icvBits)

/-- What cannot be parsed is left 0. -/
def encapTmpl (inet : Pton) (sa : XfrmSa) : List UInt8 :=
  leBytes 2 2 ++ htons sa.encapSport ++ htons sa.encapDport ++ zeros 2 ++
    match addrPton inet sa.encapOaddr with
    | .ok oaddr => oaddr.xfrm
    | .error _ => zeros 16

def saAttrs (inet : Pton) (sa : XfrmSa) (w : TlvWbuf) : TlvWbuf :=
  let w := putOpt (fun algo => putAead algo sa.aeadIcvBits) sa.aead w
  let w := putOpt (putAlgo xfrmaAlgCrypt) sa.enc w
  let w := putOpt (putAlgo xfrmaAlgAuth) sa.auth w
  if sa.encapSport ≠ 0 ∨ sa.encapDport ≠ 0 then putAttr xfrmaEncap (encapTmpl inet sa) w else w

def saBuild (inet : Pton) (buf : List UInt8) (type flags : Nat) (seq : UInt32) (sa : XfrmSa) :
    Except Int (Int × List UInt8) := do
  let (dst, src) ← saInfo inet sa
  let (front, w) ← msgBegin buf type flags seq (usersaInfo sa dst src)
  msgEnd front (saAttrs inet sa w)

def usersaId (id : XfrmSaId) (dst : Address) : List UInt8 :=
  dst.xfrm ++ htonl id.spi ++ leBytes 2 dst.family ++ [id.proto] ++ zeros 1

def xfrmSaDelMsg (inet : Pton) (buf : List UInt8) (seq : UInt32) (id : XfrmSaId) :
    Except Int (Int × List UInt8) := do
  let dst ← addrPton inet id.dst
  let (front, w) ← msgBegin buf 0x11 (nlmFRequest + nlmFAck) seq (usersaId id dst)
  msgEnd front w

def userpolicyInfo (pol : XfrmPolicy) (sel : XfrmSelector) : List UInt8 :=
  sel.bytes ++ lifetimeCfg ++ zeros 32 ++ le32 pol.priority ++ le32 pol.index ++
    [pol.dir, pol.action] ++ zeros 6

def optPton (inet : Pton) (s : Literal) : Except Int (Option Address) :=
  match s with
  | none => .ok none
  | some s => (addrPton inet (some s)).map some

structure UserTmpl where
  family : Nat
  daddr : Option Address
  saddr : Option Address

def userTmpl (inet : Pton) (pol : XfrmPolicy) (sel : XfrmSelector) : Except Int UserTmpl := do
  let daddr ← optPton inet pol.tmplDst
  let saddr ← optPton inet pol.tmplSrc
  .ok ⟨(daddr.map Address.family).getD sel.saddr.family, daddr, saddr⟩

def UserTmpl.bytes (t : UserTmpl) (pol : XfrmPolicy) : List UInt8 :=
  let addr (a : Option Address) : List UInt8 := (a.map Address.xfrm).getD (zeros 16)
  addr t.daddr ++ zeros 4 ++ [pol.tmplProto] ++ zeros 3 ++ leBytes 2 t.family ++ zeros 2 ++
    addr t.saddr ++ le32 pol.tmplReqid ++ [pol.tmplMode] ++ zeros 3 ++ List.replicate 12 0xFF

def policyAttrs (inet : Pton) (pol : XfrmPolicy) (sel : XfrmSelector) (w : TlvWbuf) :
    Except Int TlvWbuf :=
  if pol.hasTmpl then do
    let t ← userTmpl inet pol sel
    .ok (putAttr xfrmaTmpl (t.bytes pol) w)
  else .ok w

def policyBuild (inet : Pton) (buf : List UInt8) (type flags : Nat) (seq : UInt32)
    (pol : XfrmPolicy) : Except Int (Int × List UInt8) :=
  if pol.sel.src = none ∨ pol.sel.dst = none then .error nlEInval
  else do
    let sel ← fillSelector inet pol.sel
    let (front, w) ← msgBegin buf type flags seq (userpolicyInfo pol sel)
    let w ← policyAttrs inet pol sel w
    msgEnd front w

def userpolicyId (inet : Pton) (id : XfrmPolicyId) : Except Int (List UInt8) :=
  if id.index ≠ 0 then .ok (zeros 56 ++ le32 id.index ++ [id.dir] ++ zeros 3)
  else do
    let sel ← fillSelector inet id.sel
    .ok (sel.bytes ++ zeros 4 ++ [id.dir] ++ zeros 3)

def xfrmPolicyDelMsg (inet : Pton) (buf : List UInt8) (seq : UInt32) (id : XfrmPolicyId) :
    Except Int (Int × List UInt8) := do
  let pid ← userpolicyId inet id
  let (front, w) ← msgBegin buf 0x14 (nlmFRequest + nlmFAck) seq pid
  msgEnd front w

inductive XfrmCall where
  | sa (sa : XfrmSa)
  | saUpdate (sa : XfrmSa)
  | saDel (id : XfrmSaId)
  | policy (pol : XfrmPolicy)
  | policyUpdate (pol : XfrmPolicy)
  | policyDel (id : XfrmPolicyId)
  | flushSa (proto : UInt8)
  | flushPolicy
  deriving DecidableEq, Repr

def XfrmCall.build (inet : Pton) (buf : List UInt8) (seq : UInt32) :
    XfrmCall → Except Int (Int × List UInt8)
  | .sa s => saBuild inet buf 0x10 (nlmFRequest + nlmFAck + nlmFCreate + nlmFExcl) seq s
  | .saUpdate s => saBuild inet buf 0x1A (nlmFRequest + nlmFAck) seq s
  | .saDel id => xfrmSaDelMsg inet buf seq id
  | .policy pol =>
    policyBuild inet buf 0x13 (nlmFRequest + nlmFAck + nlmFCreate + nlmFExcl) seq pol
  | .policyUpdate pol => policyBuild inet buf 0x19 (nlmFRequest + nlmFAck) seq pol
  | .policyDel id => xfrmPolicyDelMsg inet buf seq id
  | .flushSa proto => do
    let (front, w) ← msgBegin buf 0x1C (nlmFRequest + nlmFAck) seq [proto]
    msgEnd front w
  | .flushPolicy => do
    let (front, w) ← msgBegin buf 0x1D (nlmFRequest + nlmFAck) seq []
    msgEnd front w

/-- The literal is left out, or parses to an address of the family. -/
def Agrees (inet : Pton) (family : Nat) (s : Literal) : Prop :=
  ∀ text, s = some text → ∃ a, addrPton inet (some text) = .ok a ∧ a.family = family

def Parses (inet : Pton) (s : Literal) : Prop :=
  ∀ text, s = some text → ∃ a, addrPton inet (some text) = .ok a

def familyOf (inet : Pton) (s : Literal) : Nat :=
  match addrPton inet s with
  | .ok a => a.family
  | .error _ => 0

def tmplFamily (inet : Pton) (pol : XfrmPolicy) : Nat :=
  familyOf inet (if pol.tmplDst = none then pol.sel.src else pol.tmplDst)

/-- Every literal that was given parses, and the addresses that are written into one
structure are of the family it states. -/
def XfrmCall.Sound (inet : Pton) : XfrmCall → Prop
  | .sa s | .saUpdate s =>
    Agrees inet (familyOf inet s.dst) s.dst ∧ Agrees inet (familyOf inet s.dst) s.src ∧
      Parses inet s.encapOaddr
  | .saDel id => Agrees inet (familyOf inet id.dst) id.dst
  | .policy pol | .policyUpdate pol =>
    Agrees inet (familyOf inet pol.sel.src) pol.sel.src ∧
      Agrees inet (familyOf inet pol.sel.src) pol.sel.dst ∧
      if pol.hasTmpl then
        Agrees inet (tmplFamily inet pol) pol.tmplDst ∧
          Agrees inet (tmplFamily inet pol) pol.tmplSrc
      else Parses inet pol.tmplDst ∧ Parses inet pol.tmplSrc
  | .policyDel id =>
    if id.index ≠ 0 then Parses inet id.sel.src ∧ Parses inet id.sel.dst
    else Agrees inet (familyOf inet id.sel.src) id.sel.src ∧
      Agrees inet (familyOf inet id.sel.src) id.sel.dst
  | .flushSa _ | .flushPolicy => True

/-- What no builder looks at: the original address of an encapsulation, the template of
a policy that has none, the selector beside an index, and the family of the source of a
template. -/
def XfrmCall.Unchecked (inet : Pton) : XfrmCall → Prop
  | .sa s | .saUpdate s => Parses inet s.encapOaddr
  | .policy pol | .policyUpdate pol =>
    if pol.hasTmpl then Agrees inet (tmplFamily inet pol) pol.tmplSrc
    else Parses inet pol.tmplDst ∧ Parses inet pol.tmplSrc
  | .policyDel id => id.index ≠ 0 → Parses inet id.sel.src ∧ Parses inet id.sel.dst
  | .saDel _ | .flushSa _ | .flushPolicy => True

variable {inet : Pton} {buf : List UInt8} {type flags : Nat} {seq : UInt32}
  {built : Int × List UInt8}

@[simp] theorem length_xfrm (a : Address) : a.xfrm.length = 16 := by
  cases a <;> simp [Address.xfrm, Address.octets, zeros]

@[simp] theorem length_selector (sel : XfrmSelector) : sel.bytes.length = 56 := by
  have mask (port : UInt16) : (portMask port).length = 2 := by
    unfold portMask
    split <;> rfl
  simp [XfrmSelector.bytes, mask, htons, zeros]

theorem agrees_of_parsed {family : Nat}
    (parsed : addrPton inet s = .ok a) (same : a.family = family) : Agrees inet family s := by
  rintro text rfl
  exact ⟨a, parsed, same⟩

theorem familyOf_of_parsed (parsed : addrPton inet s = .ok a) : familyOf inet s = a.family := by
  rw [familyOf, parsed]

theorem saInfo_ok (read : saInfo inet sa = .ok (dst, src)) :
    addrPton inet sa.dst = .ok dst ∧ addrPton inet sa.src = .ok src ∧ src.family = dst.family := by
  unfold saInfo at read
  split at read
  · cases read
  split at read
  · cases read
  obtain ⟨d, parsedDst, read⟩ := exists_of_bind_ok read
  obtain ⟨s, parsedSrc, read⟩ := exists_of_bind_ok read
  split at read
  · cases read
  rename_i same
  cases read
  exact ⟨parsedDst, parsedSrc, not_not.mp same⟩

theorem fillSelector_ok (filled : fillSelector inet args = .ok sel) :
    addrPton inet args.src = .ok sel.saddr ∧ addrPton inet args.dst = .ok sel.daddr ∧
      sel.saddr.family = sel.daddr.family ∧ sel.args = args := by
  unfold fillSelector at filled
  obtain ⟨s, parsedSrc, filled⟩ := exists_of_bind_ok filled
  obtain ⟨d, parsedDst, filled⟩ := exists_of_bind_ok filled
  split at filled
  · cases filled
  rename_i same
  cases filled
  exact ⟨parsedSrc, parsedDst, not_not.mp same, rfl⟩

theorem saBuild_ok (produced : saBuild inet buf type flags seq sa = .ok built) :
    Agrees inet (familyOf inet sa.dst) sa.dst ∧ Agrees inet (familyOf inet sa.dst) sa.src := by
  obtain ⟨⟨dst, src⟩, read, _⟩ := exists_of_bind_ok produced
  obtain ⟨parsedDst, parsedSrc, same⟩ := saInfo_ok read
  rw [familyOf_of_parsed parsedDst]
  exact ⟨agrees_of_parsed parsedDst rfl, agrees_of_parsed parsedSrc same⟩

theorem selector_agrees (filled : fillSelector inet args = .ok sel) :
    Agrees inet (familyOf inet args.src) args.src ∧
      Agrees inet (familyOf inet args.src) args.dst := by
  obtain ⟨parsedSrc, parsedDst, same, _⟩ := fillSelector_ok filled
  rw [familyOf_of_parsed parsedSrc]
  exact ⟨agrees_of_parsed parsedSrc rfl, agrees_of_parsed parsedDst same.symm⟩

theorem policyBuild_ok (produced : policyBuild inet buf type flags seq pol = .ok built) :
    Agrees inet (familyOf inet pol.sel.src) pol.sel.src ∧
      Agrees inet (familyOf inet pol.sel.src) pol.sel.dst ∧
      (pol.hasTmpl → Agrees inet (tmplFamily inet pol) pol.tmplDst) := by
  unfold policyBuild at produced
  split at produced
  · cases produced
  obtain ⟨sel, filled, produced⟩ := exists_of_bind_ok produced
  obtain ⟨⟨front, w⟩, _, produced⟩ := exists_of_bind_ok produced
  obtain ⟨_, written, _⟩ := exists_of_bind_ok produced
  refine ⟨(selector_agrees filled).1, (selector_agrees filled).2, fun templated => ?_⟩
  rw [policyAttrs, if_pos templated] at written
  obtain ⟨t, read, _⟩ := exists_of_bind_ok written
  obtain ⟨daddr, given, _⟩ := exists_of_bind_ok read
  rintro text supplied
  rw [supplied, optPton] at given
  obtain ⟨a, parsed, _⟩ := exists_of_map_ok given
  refine ⟨a, parsed, ?_⟩
  rw [tmplFamily, supplied, if_neg nofun, familyOf_of_parsed parsed]

theorem policyDel_ok {id : XfrmPolicyId}
    (produced : xfrmPolicyDelMsg inet buf seq id = .ok built) (plain : ¬ id.index ≠ 0) :
    Agrees inet (familyOf inet id.sel.src) id.sel.src ∧
      Agrees inet (familyOf inet id.sel.src) id.sel.dst := by
  obtain ⟨pid, filled, _⟩ := exists_of_bind_ok produced
  rw [userpolicyId, if_neg plain] at filled
  obtain ⟨sel, filled, _⟩ := exists_of_bind_ok filled
  exact selector_agrees filled

/-- A builder that produces a message has checked all but what it does not look at. -/
theorem xfrmBuild_sound_iff (inet : Pton) (buf : List UInt8) (seq : UInt32) (call : XfrmCall)
    (built : Int × List UInt8) (produced : call.build inet buf seq = .ok built) :
    call.Sound inet ↔ call.Unchecked inet := by
  cases call with
  | sa s | saUpdate s =>
    obtain ⟨dst, src⟩ := saBuild_ok produced
    exact ⟨fun sound => sound.2.2, fun rest => ⟨dst, src, rest⟩⟩
  | saDel id =>
    obtain ⟨dst, parsed, _⟩ := exists_of_bind_ok produced
    refine ⟨fun _ => trivial, fun _ => agrees_of_parsed parsed ?_⟩
    rw [familyOf_of_parsed parsed]
  | policy pol | policyUpdate pol =>
    obtain ⟨src, dst, tmplDst⟩ := policyBuild_ok produced
    simp only [XfrmCall.Sound, XfrmCall.Unchecked]
    split
    · rename_i templated
      exact ⟨fun sound => sound.2.2.2, fun rest => ⟨src, dst, tmplDst templated, rest⟩⟩
    · exact ⟨fun sound => sound.2.2, fun rest => ⟨src, dst, rest⟩⟩
  | policyDel id =>
    simp only [XfrmCall.Sound, XfrmCall.Unchecked]
    split
    · rename_i indexed
      exact ⟨fun sound _ => sound, fun rest => rest indexed⟩
    · rename_i plain
      exact ⟨fun _ indexed => absurd indexed plain, fun _ => policyDel_ok produced plain⟩
  | flushSa proto => exact Iff.rfl
  | flushPolicy => exact Iff.rfl

def hostLiteral : List UInt8 := ascii "10.0.0.1"

def anyLiteral : List UInt8 := ascii "::"

def twoLiterals : Pton where
  v4 := fun s => if s = hostLiteral then some #v[10, 0, 0, 1] else none
  v6 := fun s => if s = anyLiteral then some (.replicate 16 0) else none

def natted (oaddr : Literal) : XfrmSa where
  src := some hostLiteral
  dst := some hostLiteral
  spi := 256
  proto := 50
  mode := 0
  reqid := 0
  replayWindow := 0
  flags := 0
  enc := none
  auth := some (ascii "hmac(sha1)", List.replicate 20 1)
  aead := none
  aeadIcvBits := 0
  encapSport := 4500
  encapDport := 4500
  encapOaddr := oaddr

theorem xfrmBuild_sound_natted : ∃ built,
    (XfrmCall.sa (natted (some hostLiteral))).build twoLiterals (zeros 400) 1 = .ok built ∧
      (XfrmCall.sa (natted (some hostLiteral))).Sound twoLiterals := by
  obtain ⟨built, produced⟩ := exists_of_isOk
    (show ((XfrmCall.sa (natted (some hostLiteral))).build twoLiterals (zeros 400) 1).isOk by
      decide +kernel)
  refine ⟨built, produced, (xfrmBuild_sound_iff _ _ _ _ built produced).mpr ?_⟩
  rintro text given
  cases given
  exact ⟨.v4 #v[10, 0, 0, 1], rfl⟩

def mixedPolicy : XfrmPolicy where
  sel := ⟨some hostLiteral, 32, some hostLiteral, 32, 17, 0, 0⟩
  dir := 1
  action := 0
  priority := 0
  index := 0
  hasTmpl := true
  tmplSrc := some anyLiteral
  tmplDst := some hostLiteral
  tmplReqid := 0
  tmplProto := 50
  tmplMode := 1

/-- An original address that is none is sent as zeros, and a template states a family
that its source is not of. -/
theorem xfrmBuild_unsound :
    (∃ built, (XfrmCall.sa (natted (some (ascii "x")))).build twoLiterals (zeros 400) 1 =
      .ok built) ∧
      ¬ (XfrmCall.sa (natted (some (ascii "x")))).Sound twoLiterals ∧
    (∃ built, (XfrmCall.policy mixedPolicy).build twoLiterals (zeros 400) 1 = .ok built) ∧
      ¬ (XfrmCall.policy mixedPolicy).Sound twoLiterals := by
  refine ⟨exists_of_isOk (by decide +kernel), ?_, exists_of_isOk (by decide +kernel), ?_⟩
  · rintro ⟨_, _, parses⟩
    obtain ⟨a, parsed⟩ := parses (ascii "x") rfl
    cases parsed
  · rintro ⟨_, _, _, agrees⟩
    obtain ⟨a, parsed, same⟩ := agrees anyLiteral rfl
    cases parsed
    exact absurd same (by decide)

end Pro2Call.Nlmsg

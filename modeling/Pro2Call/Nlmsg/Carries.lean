import Pro2Call.Nlmsg.Rtnl

namespace Pro2Call.Nlmsg

open Pro2Call.Data
open Pro2Call.Task

/-! What the messages of the xfrm and the rtnl builders hold. -/

def forestOf : List TlvEntry → TlvForest
  | [] => .nil
  | entry :: rest => .cons entry (forestOf rest)

/-- The returned length is inside the buffer, a multiple of 4 and the one in the header,
and behind the fixed part the message consists of exactly the attributes. -/
structure Carries (cap fixed : Nat) (attrs : List TlvEntry) (built : Int × List UInt8) :
    Prop where
  nonneg : 0 ≤ built.1
  within : built.1.toNat ≤ cap
  aligned : built.1.toNat % 4 = 0
  counted : leNat (slice built.2 0 4) = built.1.toNat
  consumed : (built.2.take built.1.toNat).drop (nlmsgAlign (nlmsgHdrlen + fixed)) =
    (forestOf attrs).bytes tlvProfNetlink
  read : (forestOf attrs).ReadBy
    { mem := built.2
      cur := nlmsgAlign (nlmsgHdrlen + fixed)
      stop := built.1.toNat
      prof := tlvProfNetlink }

def addressOf (inet : Pton) (s : Literal) : Option Address := (addrPton inet s).toOption

/-- A structure of the kernel from `pos` on: its fields at their offsets, in order, and
zeros wherever there is none. -/
def layout (size : Nat) : Nat → List (Nat × List UInt8) → List UInt8
  | pos, [] => zeros (size - pos)
  | pos, (offset, octets) :: rest =>
    zeros (offset - pos) ++ octets ++ layout size (offset + octets.length) rest

/-- `struct xfrm_algo`; the name is cut to leave room for a terminator. -/
def structAlgo (algo : Algo) : List UInt8 :=
  layout (68 + algo.2.length) 0
    [(0, algo.1.take 63), (64, leBytes 4 (algo.2.length * 8)), (68, algo.2)]

def structAlgoAead (algo : Algo) (icvBits : UInt16) : List UInt8 :=
  layout (72 + algo.2.length) 0
    [(0, algo.1.take 63), (64, leBytes 4 (algo.2.length * 8)), (68, leBytes 4 icvBits.toNat),
      (72, algo.2)]

def octetsOf (inet : Pton) (s : Literal) : List UInt8 :=
  ((addressOf inet s).map Address.octets).getD []

def structEncapTmpl (inet : Pton) (sa : XfrmSa) : List UInt8 :=
  layout 24 0 [(0, leBytes 2 2), (2, htons sa.encapSport), (4, htons sa.encapDport),
    (8, octetsOf inet sa.encapOaddr)]

/-- `struct xfrm_user_tmpl`: id, family, saddr, reqid, mode and the three algorithm masks -/
def structUserTmpl (inet : Pton) (pol : XfrmPolicy) : List UInt8 :=
  layout 64 0 [(0, octetsOf inet pol.tmplDst), (20, [pol.tmplProto]),
    (24, leBytes 2 (tmplFamily inet pol)), (28, octetsOf inet pol.tmplSrc),
    (44, le32 pol.tmplReqid), (48, [pol.tmplMode]), (52, List.replicate 12 0xFF)]

def XfrmSa.attrs (inet : Pton) (sa : XfrmSa) : List TlvEntry :=
  (sa.aead.map fun algo => .leaf xfrmaAlgAead 0 (structAlgoAead algo sa.aeadIcvBits)).toList ++
    (sa.enc.map fun algo => .leaf xfrmaAlgCrypt 0 (structAlgo algo)).toList ++
    (sa.auth.map fun algo => .leaf xfrmaAlgAuth 0 (structAlgo algo)).toList ++
    if sa.encapSport ≠ 0 ∨ sa.encapDport ≠ 0 then [.leaf xfrmaEncap 0 (structEncapTmpl inet sa)]
    else []

def XfrmPolicy.attrs (inet : Pton) (pol : XfrmPolicy) : List TlvEntry :=
  if pol.hasTmpl then [.leaf xfrmaTmpl 0 (structUserTmpl inet pol)] else []

/-- An IPv4 address is also the local one. -/
def Address.attrs : Address → List TlvEntry
  | .v4 octets => [.leaf ifaLocal 0 octets.toList, .leaf ifaAddress 0 octets.toList]
  | .v6 octets => [.leaf ifaAddress 0 octets.toList]

def RtnlAddr.attrs (inet : Pton) (a : RtnlAddr) : List TlvEntry :=
  ((addressOf inet a.addr).map Address.attrs).getD []

def u32Attr (type : Nat) (v : UInt32) : List TlvEntry :=
  if v ≠ 0 then [.leaf type 0 (le32 v)] else []

def metrics (mtu : UInt32) : List TlvEntry :=
  if mtu ≠ 0 then [.group rtaMetrics 0 (.cons (.leaf rtaxMtu 0 (le32 mtu)) .nil)] else []

def RtnlRoute.attrs (inet : Pton) (r : RtnlRoute) : List TlvEntry :=
  ((addressOf inet r.dst).map fun a => .leaf rtaDst 0 a.octets).toList ++
    ((addressOf inet r.gateway).map fun a => .leaf rtaGateway 0 a.octets).toList ++
    u32Attr rtaOif r.ifindex ++ u32Attr rtaPriority r.priority ++ metrics r.mtu

def XfrmCall.fixed : XfrmCall → Nat
  | .sa _ | .saUpdate _ => 224
  | .saDel _ => 24
  | .policy _ | .policyUpdate _ => 168
  | .policyDel _ => 64
  | .flushSa _ => 1
  | .flushPolicy => 0

def XfrmCall.attrs (inet : Pton) : XfrmCall → List TlvEntry
  | .sa s | .saUpdate s => s.attrs inet
  | .policy pol | .policyUpdate pol => pol.attrs inet
  | .saDel _ | .policyDel _ | .flushSa _ | .flushPolicy => []

def RtnlCall.fixed : RtnlCall → Nat
  | .addr _ | .addrDel _ => 8
  | .route _ | .routeDel _ => 12

def RtnlCall.attrs (inet : Pton) : RtnlCall → List TlvEntry
  | .addr a | .addrDel a => a.attrs inet
  | .route r | .routeDel r => r.attrs inet

def Settles {α : Type} (holds : α → Prop) : Except Int α → Prop
  | .error rc => rc < 0
  | .ok a => holds a

section Settles

variable {α β : Type} {first : α → Prop} {second : β → Prop} {r : Except Int α}

theorem Settles.bind {next : α → Except Int β} (settled : Settles first r)
    (step : ∀ a, r = .ok a → first a → Settles second (next a)) :
    Settles second (r >>= next) := by
  cases r with
  | error rc => exact settled
  | ok a => exact step a rfl settled

theorem Settles.of_ok (settled : Settles first r) (ok : r = .ok a) : first a := by
  subst ok
  exact settled

theorem settles_addrPton (inet : Pton) (s : Literal) :
    Settles (fun _ => True) (addrPton inet s) := by
  unfold addrPton
  split
  · exact (by decide : nlEInval < 0)
  · exact (by decide : nlEInval < 0)
  · split
    · trivial
    · split
      · trivial
      · exact (by decide : nlEInval < 0)

end Settles

@[simp] theorem length_zeros (n : Nat) : (zeros n).length = n := List.length_replicate

@[simp] theorem length_le32 (v : UInt32) : (le32 v).length = 4 := length_leBytes 4 _

@[simp] theorem length_htonl (v : UInt32) : (htonl v).length = 4 := length_beBytes 4 _

@[simp] theorem length_htons (v : UInt16) : (htons v).length = 2 := length_beBytes 2 _

@[simp] theorem length_lifetimeCfg : lifetimeCfg.length = 64 := by simp [lifetimeCfg]

structure Attr (entry : TlvEntry) : Prop where
  fields : entry.FieldsFit tlvProfNetlink
  lengths : entry.LengthsFit tlvProfNetlink
  aligned : (entry.bytes tlvProfNetlink).length % 4 = 0
  small : (entry.bytes tlvProfNetlink).length ≤ 1000

theorem length_netlinkFrame (type : Nat) (body : List UInt8) :
    (tlvFrame tlvProfNetlink type 0 body).length = (4 + body.length + 3) / 4 * 4 := by
  rw [show tlvProfNetlink = TlvFormat.netlink.prof from rfl, TlvFormat.length_frame]
  simp only [TlvFormat.prof, tlvProfNetlink, tlvAlign]
  grind

theorem attr_leaf {type : Nat} {value : List UInt8} (number : type < 65536)
    (short : value.length ≤ 900) : Attr (.leaf type 0 value) where
  fields := ⟨number, fun _ => rfl⟩
  lengths := by
    simp only [TlvEntry.LengthsFit, tlvFrameLength, tlvProfNetlink, tlvLenMax]
    simp; omega
  aligned := by
    rw [TlvEntry.bytes, length_netlinkFrame]
    omega
  small := by
    rw [TlvEntry.bytes, length_netlinkFrame]
    omega

theorem bytes_append (first second : List TlvEntry) :
    (forestOf (first ++ second)).bytes tlvProfNetlink =
      (forestOf first).bytes tlvProfNetlink ++ (forestOf second).bytes tlvProfNetlink := by
  induction first with
  | nil => rfl
  | cons entry rest ih => simp [forestOf, TlvForest.bytes, ih]

theorem forest_fits {attrs : List TlvEntry} (fit : ∀ entry ∈ attrs, Attr entry) :
    (forestOf attrs).FieldsFit tlvProfNetlink ∧ (forestOf attrs).LengthsFit tlvProfNetlink ∧
      ((forestOf attrs).bytes tlvProfNetlink).length % 4 = 0 ∧
      ((forestOf attrs).bytes tlvProfNetlink).length ≤ 1000 * attrs.length := by
  induction attrs with
  | nil => simp [forestOf, TlvForest.FieldsFit, TlvForest.LengthsFit, TlvForest.bytes]
  | cons entry rest ih =>
    obtain ⟨first, others⟩ := List.forall_mem_cons.mp fit
    obtain ⟨fields, lengths, aligned, small⟩ := ih others
    refine ⟨⟨first.fields, fields⟩, ⟨first.lengths, lengths⟩, ?_⟩
    simp only [forestOf, TlvForest.bytes, List.length_append, List.length_cons]
    have := first.aligned
    have := first.small
    omega

/-- The attributes written so far into `cap` octets, unless they did not fit. -/
structure Runs (cap : Nat) (w : TlvWbuf) (attrs : List TlvEntry) : Prop where
  cap : w.cap = cap
  held : w.overflow = true ∨
    Written w ((forestOf attrs).bytes tlvProfNetlink) ∧ ∀ entry ∈ attrs, Attr entry

variable {inet : Pton} {cap : Nat} {w w' : TlvWbuf} {attrs : List TlvEntry}

theorem Runs.snoc {entry : TlvEntry} (runs : Runs cap w attrs) (kept : w.overflow = true → w' = w)
    (step : HoldsIn cap w ((forestOf attrs).bytes tlvProfNetlink) →
      (∀ other ∈ attrs, Attr other) → Attr entry ∧
        HoldsIn cap w' ((forestOf attrs).bytes tlvProfNetlink ++ entry.bytes tlvProfNetlink)) :
    Runs cap w' (attrs ++ [entry]) := by
  rcases runs.held with flagged | ⟨written, fit⟩
  · rw [kept flagged]
    exact ⟨runs.cap, .inl flagged⟩
  · obtain ⟨attr, same, held⟩ := step ⟨runs.cap, .inr written⟩ fit
    refine ⟨same, held.imp_right fun written => ⟨?_, ?_⟩⟩
    · rw [bytes_append]
      simpa [forestOf, TlvForest.bytes] using written
    · simpa [or_imp, forall_and] using And.intro fit attr

theorem putAttr_of_overflow (flagged : w.overflow = true) (type : Nat) (value : List UInt8) :
    putAttr type value w = w :=
  (exec_of_overflow flagged (.put tlvProfNetlink type 0 value)).2

theorem HoldsIn.putAttr {done : List UInt8} (held : HoldsIn cap w done) (type : Nat)
    {value : List UInt8} (short : value.length ≤ 900) :
    HoldsIn cap (putAttr type value w) (done ++ tlvFrame tlvProfNetlink type 0 value) := by
  apply @HoldsIn.put .netlink
  · exact held
  · simp only [TlvFormat.prof, tlvProfNetlink, tlvLenMax]
    simp
    omega

theorem Runs.attr (runs : Runs cap w attrs) {type : Nat} {value : List UInt8}
    (number : type < 65536) (short : value.length ≤ 900) :
    Runs cap (putAttr type value w) (attrs ++ [.leaf type 0 value]) := by
  apply runs.snoc
  · intro flagged
    exact putAttr_of_overflow flagged type value
  · intro held _
    exact ⟨attr_leaf number short, HoldsIn.putAttr held type short⟩

theorem Runs.opt {α : Type} {put : α → TlvWbuf → TlvWbuf} {entry : α → TlvEntry}
    (runs : Runs cap w attrs) (o : Option α)
    (step : ∀ a, Runs cap (put a w) (attrs ++ [entry a])) :
    Runs cap (putOpt put o w) (attrs ++ (o.map entry).toList) := by
  cases o with
  | none => simpa [putOpt] using runs
  | some a => exact step a

theorem Runs.keyed (runs : Runs cap w attrs) {type : Nat} {key value : List UInt8}
    (number : type < 65536) (short : value.length ≤ 72 + key.length) :
    Runs cap (putKeyed type key value w) (attrs ++ [.leaf type 0 value]) := by
  unfold putKeyed
  split
  · exact ⟨runs.cap, .inl rfl⟩
  · rename_i within
    exact runs.attr number (by unfold keyMax at within; omega)

theorem Runs.u32 (runs : Runs cap w attrs) {type : Nat} (number : type < 65536) (v : UInt32) :
    Runs cap (putU32 type v w) (attrs ++ u32Attr type v) := by
  unfold putU32 u32Attr
  split
  · exact runs.attr number (by simp)
  · simpa using runs

theorem attr_metrics (mtu : UInt32) :
    Attr (.group rtaMetrics 0 (.cons (.leaf rtaxMtu 0 (le32 mtu)) .nil)) := by
  have leaf : Attr (.leaf rtaxMtu 0 (le32 mtu)) := attr_leaf (by decide) (by simp)
  have inner : (TlvForest.bytes tlvProfNetlink
      (.cons (.leaf rtaxMtu 0 (le32 mtu)) .nil)).length = 8 := by
    simp [TlvForest.bytes, TlvEntry.bytes, length_netlinkFrame]
  constructor
  · exact ⟨by decide, fun _ => rfl, leaf.fields, trivial⟩
  · refine ⟨?_, leaf.lengths, trivial⟩
    rw [tlvFrameLength, inner]
    decide
  all_goals rw [TlvEntry.bytes, length_netlinkFrame, inner]
  decide

theorem Runs.metrics (runs : Runs cap w attrs) (few : attrs.length ≤ 10) (mtu : UInt32) :
    Runs cap (putMetrics mtu w) (attrs ++ metrics mtu) := by
  unfold putMetrics Nlmsg.metrics
  split
  · apply runs.snoc
    · intro flagged
      have begun := (exec_of_overflow flagged (.begin tlvProfNetlink rtaMetrics 0)).2
      dsimp only [TlvCall.exec] at begun ⊢
      rw [begun, putAttr_of_overflow flagged]
      exact (exec_of_overflow flagged (.finish tlvProfNetlink _)).2
    · intro held fit
      have sized := (forest_fits fit).2.2.2
      refine ⟨attr_metrics mtu, @HoldsIn.group .netlink _ _ _ held _ _ _ _ ?_ ?_ ?_⟩
      · omega
      · simp [TlvForest.bytes, TlvEntry.bytes, length_netlinkFrame]
        decide
      · intro w done held
        simpa [TlvForest.bytes, TlvEntry.bytes] using HoldsIn.putAttr held rtaxMtu (by simp)
  · simpa using runs

theorem structAlgo_eq (algo : Algo) : structAlgo algo = algoBytes algo := by
  simp [structAlgo, layout, algoBytes, algName, zeros]

theorem structAlgoAead_eq (algo : Algo) (icvBits : UInt16) :
    structAlgoAead algo icvBits = aeadBytes algo icvBits := by
  simp [structAlgoAead, layout, aeadBytes, algName, zeros]

theorem structEncapTmpl_eq (inet : Pton) (sa : XfrmSa) :
    structEncapTmpl inet sa = encapTmpl inet sa := by
  unfold structEncapTmpl encapTmpl octetsOf addressOf
  rcases addrPton inet sa.encapOaddr with _ | _ | _ <;>
    simp [layout, zeros, Except.toOption, Address.xfrm, Address.octets]

theorem structUserTmpl_eq (inet : Pton) (pol : XfrmPolicy) :
    structUserTmpl inet pol = UserTmpl.bytes
      ⟨tmplFamily inet pol, addressOf inet pol.tmplDst, addressOf inet pol.tmplSrc⟩ pol := by
  unfold structUserTmpl UserTmpl.bytes octetsOf
  rcases addressOf inet pol.tmplDst with _ | _ | _ <;>
    rcases addressOf inet pol.tmplSrc with _ | _ | _ <;>
    simp [layout, zeros, Address.xfrm, Address.octets]

theorem algName_length (name : List UInt8) : (algName name).length = 64 := by
  simp [algName]

theorem Runs.algo (runs : Runs cap w attrs) {type : Nat} (number : type < 65536) (algo : Algo) :
    Runs cap (putAlgo type algo w) (attrs ++ [.leaf type 0 (structAlgo algo)]) := by
  rw [structAlgo_eq]
  apply runs.keyed number
  simp [algoBytes, algName_length]
  omega

theorem Runs.aead (runs : Runs cap w attrs) (algo : Algo) (icvBits : UInt16) :
    Runs cap (putAead algo icvBits w)
      (attrs ++ [.leaf xfrmaAlgAead 0 (structAlgoAead algo icvBits)]) := by
  rw [structAlgoAead_eq]
  apply runs.keyed (by decide)
  simp [aeadBytes, algName_length]
  omega

theorem runs_saAttrs (sa : XfrmSa) (runs : Runs cap w []) :
    Runs cap (saAttrs inet sa w) (sa.attrs inet) := by
  have aead := runs.opt sa.aead fun algo => runs.aead algo sa.aeadIcvBits
  have enc := aead.opt sa.enc (aead.algo (by decide : xfrmaAlgCrypt < 65536))
  have auth := enc.opt sa.auth (enc.algo (by decide : xfrmaAlgAuth < 65536))
  unfold saAttrs XfrmSa.attrs
  dsimp only
  split
  · rw [structEncapTmpl_eq]
    apply auth.attr (by decide)
    unfold encapTmpl
    split <;> simp
  · simpa using auth

theorem runs_addrAttrs (raw : Address) (runs : Runs cap w []) :
    Runs cap (addrAttrs raw w) raw.attrs := by
  cases raw with
  | v4 octets =>
    have first := runs.attr (by decide : ifaLocal < 65536) (by simp : octets.toList.length ≤ 900)
    exact first.attr (by decide) (by simp [Address.octets])
  | v6 octets => exact runs.attr (by decide) (by simp [Address.octets])

theorem short_octets (a : Address) : a.octets.length ≤ 900 := by
  cases a <;> simp [Address.octets]

theorem runs_routeAttrs (r : RtnlRoute) (info : RouteInfo) (runs : Runs cap w []) :
    Runs cap (routeAttrs r info w) ((info.dst.map fun a => .leaf rtaDst 0 a.octets).toList ++
        (info.gw.map fun a => .leaf rtaGateway 0 a.octets).toList ++
        u32Attr rtaOif r.ifindex ++ u32Attr rtaPriority r.priority ++ metrics r.mtu) := by
  have dst := runs.opt info.dst fun a => runs.attr (by decide : rtaDst < 65536) (short_octets a)
  have gw := dst.opt info.gw fun a => dst.attr (by decide : rtaGateway < 65536) (short_octets a)
  have prio := (gw.u32 (by decide : rtaOif < 65536) r.ifindex).u32
    (by decide : rtaPriority < 65536) r.priority
  refine prio.metrics ?_ r.mtu
  unfold u32Attr
  cases info.dst <;> cases info.gw <;> split <;> split <;> simp

theorem settles_msgBegin (buf : List UInt8) (type flags : Nat) (seq : UInt32) (fixed : List UInt8) :
    Settles (fun begun => begun.1.length = nlmsgAlign (nlmsgHdrlen + fixed.length) ∧
        begun.1.length + begun.2.cap = buf.length ∧ 4 ≤ begun.1.length ∧
        Runs begun.2.cap begun.2 [])
      (msgBegin buf type flags seq fixed) := by
  unfold msgBegin
  dsimp only
  split
  · exact (by decide : nlEOverflow < 0)
  · rename_i room
    have base : nlmsgHdrlen + fixed.length ≤ nlmsgAlign (nlmsgHdrlen + fixed.length) := by
      unfold nlmsgAlign
      omega
    have front : (zeros 4 ++ leBytes 2 type ++ leBytes 2 flags ++ le32 seq ++ zeros 4 ++ fixed ++
        zeros (nlmsgAlign (nlmsgHdrlen + fixed.length) -
          (nlmsgHdrlen + fixed.length))).length = nlmsgAlign (nlmsgHdrlen + fixed.length) := by
      simp [nlmsgHdrlen] at base ⊢
      omega
    refine ⟨front, ?_, ?_, rfl, .inr ⟨written_init _, by simp⟩⟩
    · dsimp only
      rw [front]
      simp [tlvWbufInit]
      omega
    · dsimp only
      rw [front]
      unfold nlmsgHdrlen at base ⊢
      omega

theorem settles_msgEnd {front : List UInt8} {room fixed : Nat}
    (base : front.length = nlmsgAlign (nlmsgHdrlen + fixed)) (whole : front.length + cap = room)
    (header : 4 ≤ front.length) (runs : Runs cap w attrs) (few : attrs.length ≤ 10)
    (short : fixed ≤ 1000) : Settles (Carries room fixed attrs) (msgEnd front w) := by
  unfold msgEnd
  split
  · exact (by decide : nlEOverflow < 0)
  · rename_i clear
    rcases runs.held with flagged | ⟨written, fit⟩
    · exact absurd flagged clear
    obtain ⟨fields, lengths, aligned, sized⟩ := forest_fits fit
    obtain ⟨tail, buf⟩ := written.held
    have off := written.off
    have capacity := written.capacity
    rw [buf, List.length_append] at capacity
    have low : front.length ≤ 1100 := by
      rw [base, nlmsgAlign, nlmsgHdrlen]
      omega
    dsimp only
    rw [show (front.length + w.off) % 2 ^ 32 = front.length + w.off by omega,
      toInt_of_small (by omega), off, buf, ← List.append_assoc]
    generalize patched : splice front 0 _ = head
    have same : head.length = front.length := by
      rw [← patched, length_splice (by simpa using header)]
    have first : head.take 4 = leBytes 4
        (front.length + ((forestOf attrs).bytes tlvProfNetlink).length) := by
      rw [← patched, splice, List.take_zero, List.nil_append]
      exact List.take_left' (length_leBytes 4 _)
    constructor
    · exact Int.natCast_nonneg _
    · rw [Int.toNat_natCast]
      have := runs.cap
      omega
    · rw [Int.toNat_natCast, base, nlmsgAlign]
      omega
    · rw [Int.toNat_natCast, List.append_assoc, slice_append_left (by omega), slice,
        List.drop_zero, first, leNat_leBytes (by omega)]
    · rw [Int.toNat_natCast, ← base, ← same, ← List.length_append, List.take_left, List.drop_left]
    · rw [Int.toNat_natCast, ← base, ← same]
      exact @TlvForest.readBy_bytes .netlink head tail _ fields lengths

variable {buf : List UInt8} {type flags : Nat} {seq : UInt32}

/-- A builder: the fixed part is laid down and `write` adds the attributes. -/
theorem settles_message {fixed : List UInt8} {size : Nat} (sized : fixed.length = size)
    (short : size ≤ 1000) (few : attrs.length ≤ 10) {write : TlvWbuf → TlvWbuf}
    (writes : ∀ w, Runs w.cap w [] → Runs w.cap (write w) attrs) :
    Settles (Carries buf.length size attrs) (msgBegin buf type flags seq fixed >>= fun begun =>
      msgEnd begun.1 (write begun.2)) := by
  refine (settles_msgBegin buf type flags seq fixed).bind ?_
  rintro ⟨front, w⟩ _ ⟨base, whole, header, runs⟩
  rw [sized] at base
  exact settles_msgEnd base whole header (writes w runs) few short

theorem settles_plain {fixed : List UInt8} {size : Nat} (sized : fixed.length = size)
    (short : size ≤ 1000) :
    Settles (Carries buf.length size []) (msgBegin buf type flags seq fixed >>= fun begun =>
      msgEnd begun.1 begun.2) :=
  settles_message sized short (by simp) fun _ runs => runs

theorem settles_error {α : Type} {holds : α → Prop} : Settles holds (.error nlEInval) :=
  (by decide : nlEInval < 0)

theorem settles_saInfo (sa : XfrmSa) : Settles (fun _ => True) (saInfo inet sa) := by
  unfold saInfo
  split
  · exact settles_error
  split
  · exact settles_error
  refine (settles_addrPton inet sa.dst).bind fun dst _ _ => ?_
  refine (settles_addrPton inet sa.src).bind fun src _ _ => ?_
  split
  · exact settles_error
  · trivial

theorem settles_saBuild (sa : XfrmSa) :
    Settles (Carries buf.length 224 (sa.attrs inet)) (saBuild inet buf type flags seq sa) := by
  refine (settles_saInfo sa).bind ?_
  rintro ⟨dst, src⟩ _ _
  refine settles_message ?_ (by decide) ?_ fun w => runs_saAttrs sa
  · simp [usersaInfo]
  · unfold XfrmSa.attrs
    cases sa.aead <;> cases sa.enc <;> cases sa.auth <;> split <;> simp

theorem settles_fillSelector (args : SelectorArgs) :
    Settles (fun _ => True) (fillSelector inet args) := by
  refine (settles_addrPton inet args.src).bind fun saddr _ _ => ?_
  refine (settles_addrPton inet args.dst).bind fun daddr _ _ => ?_
  split
  · exact settles_error
  · trivial

theorem settles_optPton (s : Literal) :
    Settles (fun a => a = addressOf inet s) (optPton inet s) := by
  cases s with
  | none => rfl
  | some text =>
    have parsed := settles_addrPton inet (some text)
    unfold addressOf
    change Settles _ ((addrPton inet (some text)).map some)
    generalize addrPton inet (some text) = read at parsed ⊢
    cases read with
    | error rc => exact parsed
    | ok a => rfl

theorem settles_userTmpl (pol : XfrmPolicy) {sel : XfrmSelector}
    (filled : fillSelector inet pol.sel = .ok sel) :
    Settles (fun t => t =
        ⟨tmplFamily inet pol, addressOf inet pol.tmplDst, addressOf inet pol.tmplSrc⟩)
      (userTmpl inet pol sel) := by
  refine (settles_optPton pol.tmplDst).bind fun daddr given same => ?_
  refine (settles_optPton pol.tmplSrc).bind fun saddr _ same' => ?_
  subst same same'
  have family : ((addressOf inet pol.tmplDst).map Address.family).getD sel.saddr.family =
      tmplFamily inet pol := by
    unfold tmplFamily
    cases named : pol.tmplDst with
    | none =>
      rw [if_pos rfl, familyOf_of_parsed (fillSelector_ok filled).1]
      rfl
    | some text =>
      rw [named, optPton] at given
      obtain ⟨a, parsed, _⟩ := exists_of_map_ok given
      rw [if_neg (by simp), familyOf_of_parsed parsed, addressOf, parsed]
      rfl
  exact congrArg (UserTmpl.mk · _ _) family

theorem short_tmpl (t : UserTmpl) (pol : XfrmPolicy) : (t.bytes pol).length ≤ 900 := by
  have addr (a : Option Address) : ((a.map Address.xfrm).getD (zeros 16)).length = 16 := by
    cases a <;> simp
  simp [UserTmpl.bytes, addr]

theorem settles_policyBuild (pol : XfrmPolicy) :
    Settles (Carries buf.length 168 (pol.attrs inet))
      (policyBuild inet buf type flags seq pol) := by
  unfold policyBuild
  split
  · exact settles_error
  refine (settles_fillSelector pol.sel).bind fun sel filled _ => ?_
  have sized : (userpolicyInfo pol sel).length = 168 := by
    simp [userpolicyInfo]
  unfold policyAttrs XfrmPolicy.attrs
  split
  · refine (settles_msgBegin buf type flags seq _).bind ?_
    rintro ⟨front, w⟩ _ ⟨base, whole, header, runs⟩
    rw [sized] at base
    have filledIn : Settles (fun w' => Runs w.cap w' [.leaf xfrmaTmpl 0 (structUserTmpl inet pol)])
        (userTmpl inet pol sel >>= fun t => .ok (putAttr xfrmaTmpl (t.bytes pol) w)) := by
      refine (settles_userTmpl pol filled).bind ?_
      rintro t _ rfl
      rw [structUserTmpl_eq]
      exact runs.attr (by decide) (short_tmpl _ pol)
    exact filledIn.bind fun w' _ runs => settles_msgEnd base whole header runs (by simp) (by decide)
  · exact settles_plain sized (by decide)

theorem settles_userpolicyId (id : XfrmPolicyId) :
    Settles (fun pid => pid.length = 64) (userpolicyId inet id) := by
  unfold userpolicyId
  split
  · simp [Settles]
  · refine (settles_fillSelector id.sel).bind fun sel _ _ => ?_
    simp [Settles]

theorem XfrmCall.settles (call : XfrmCall) :
    Settles (Carries buf.length call.fixed (call.attrs inet)) (call.build inet buf seq) := by
  cases call with
  | sa s | saUpdate s => exact settles_saBuild s
  | saDel id =>
    refine (settles_addrPton inet id.dst).bind fun dst _ _ => settles_plain ?_ (by simp [fixed])
    simp [usersaId, fixed]
  | policy pol | policyUpdate pol => exact settles_policyBuild pol
  | policyDel id =>
    exact (settles_userpolicyId id).bind fun pid _ sized => settles_plain sized (by simp [fixed])
  | flushSa proto => exact settles_plain List.length_singleton (by simp [fixed])
  | flushPolicy => exact settles_plain List.length_nil (by simp [fixed])

theorem settles_addrInfo (a : RtnlAddr) :
    Settles (fun raw => addressOf inet a.addr = some raw) (addrInfo inet a) := by
  unfold addrInfo
  split
  · exact settles_error
  refine (settles_addrPton inet a.addr).bind fun raw parsed _ => ?_
  split
  · exact settles_error
  · exact congrArg Except.toOption parsed

theorem settles_routePton (s : Literal) :
    Settles (fun a => a = addressOf inet s) (routePton inet s) := by
  unfold routePton
  split
  · rename_i absent
    rcases absent with rfl | rfl <;> rfl
  · have parsed := settles_addrPton inet s
    unfold addressOf
    generalize addrPton inet s = read at parsed ⊢
    cases read with
    | error rc => exact parsed
    | ok a => rfl

theorem settles_routeInfo (r : RtnlRoute) :
    Settles (fun info => info.dst = addressOf inet r.dst ∧ info.gw = addressOf inet r.gateway)
      (routeInfo inet r) := by
  refine (settles_routePton r.dst).bind fun dst _ isDst => ?_
  refine (settles_routePton r.gateway).bind fun gw _ isGw => ?_
  have family : Settles (fun _ => True) (routeFamily dst gw) := by
    unfold routeFamily
    split
    · exact settles_error
    · split
      · exact settles_error
      · trivial
    · trivial
    · trivial
  refine family.bind fun first _ _ => ?_
  split
  · exact settles_error
  split
  · exact settles_error
  · exact ⟨isDst, isGw⟩

theorem settles_addrBuild (a : RtnlAddr) :
    Settles (Carries buf.length 8 (a.attrs inet)) (addrBuild inet buf type flags seq a) := by
  refine (settles_addrInfo a).bind fun raw _ parsed => ?_
  rw [RtnlAddr.attrs, parsed]
  refine settles_message (by simp [ifaddrmsg]) (by decide) ?_ fun w => runs_addrAttrs raw
  cases raw <;> simp [Address.attrs]

theorem settles_routeBuild (r : RtnlRoute) :
    Settles (Carries buf.length 12 (r.attrs inet)) (routeBuild inet buf type flags seq r) := by
  refine (settles_routeInfo r).bind fun info _ parsed => ?_
  rw [RtnlRoute.attrs, ← parsed.1, ← parsed.2]
  refine settles_message (by simp [rtmsg]) (by decide) ?_ fun w => runs_routeAttrs r info
  unfold u32Attr metrics
  cases info.dst <;> cases info.gw <;> split <;> split <;> split <;> simp

theorem RtnlCall.settles (call : RtnlCall) :
    Settles (Carries buf.length call.fixed (call.attrs inet)) (call.build inet buf seq) := by
  cases call with
  | addr a | addrDel a => exact settles_addrBuild a
  | route r | routeDel r => exact settles_routeBuild r

/-- Every builder of either module returns a negative code, or the length of a message
that holds exactly the attributes its arguments imply. -/
theorem builders_carry (inet : Pton) (buf : List UInt8) (seq : UInt32) :
    (∀ call : XfrmCall, Settles (Carries buf.length call.fixed (call.attrs inet))
        (call.build inet buf seq)) ∧
      ∀ call : RtnlCall, Settles (Carries buf.length call.fixed (call.attrs inet))
        (call.build inet buf seq) :=
  ⟨XfrmCall.settles, RtnlCall.settles⟩

theorem builders_carry_natted : ∃ built,
    (XfrmCall.sa (natted (some hostLiteral))).build twoLiterals (zeros 400) 1 = .ok built ∧
      Carries 400 224 [.leaf 1 0 (structAlgo (ascii "hmac(sha1)", List.replicate 20 1)),
        .leaf 4 0 ([2, 0, 0x11, 0x94, 0x11, 0x94, 0, 0, 10, 0, 0, 1] ++ zeros 12)] built := by
  obtain ⟨built, produced⟩ := exists_of_isOk
    (show ((XfrmCall.sa (natted (some hostLiteral))).build twoLiterals (zeros 400) 1).isOk by
      decide +kernel)
  have carried := ((builders_carry twoLiterals (zeros 400) 1).1 _).of_ok produced
  rw [length_zeros] at carried
  exact ⟨built, produced, carried⟩

end Pro2Call.Nlmsg

import Pro2Call.Diam.Avp

namespace Pro2Call.Diam

open Pro2Call.Data
open Pro2Call.Task

/-! The parser of the C++ facade, and which bytes of a message its AVPs account
for. -/

def maxGroupDepth : Nat := 16

structure DiamError where
  what : String
  code : Int
  deriving DecidableEq, Repr

def errstr (rc : Int) : String :=
  if rc = diamEShort then "message incomplete"
  else if rc = diamEVersion then "not Diameter version 1"
  else if rc = diamELength then "length field inconsistent"
  else if rc = diamEOverflow then "write buffer too small"
  else if rc = diamEInval then "invalid argument"
  else if rc = diamEType then "data does not fit the type"
  else "error"

def fail (op : String) (rc : Int) : DiamError where
  what := op ++ ": " ++ errstr rc
  code := rc

structure Avp where
  code : UInt32
  vendorId : UInt32
  flags : UInt8
  data : List UInt8
  children : List Avp
  deriving Repr

structure Msg where
  request : Bool
  proxiable : Bool
  error : Bool
  retransmit : Bool
  cmd : UInt32
  app : UInt32
  hbh : UInt32
  e2e : UInt32
  avps : List Avp
  deriving Repr

variable {mem : List UInt8} {pos len : Nat} {v : TlvView} {next : TlvIter}

theorem tlvIterNext_some (read : tlvIterNext (diamAvpIterInit mem pos len) = some (v, next)) :
    tlvLoad mem (pos + 5) 3 true = 8 + v.len ∧ 8 + v.len ≤ len ∧
      v.type = tlvLoad mem pos 4 true ∧ v.metaOctet = mem.getD (pos + 4) 0 ∧
      v.value = pos + 8 ∧
      next = { diamAvpIterInit mem pos len with
        cur := pos + min (tlvAlign 4 (8 + v.len)) len } := by
  simp only [tlvIterNext, diamAvpIterInit, tlvProfDiameter, tlvNoMeta,
    Nat.add_sub_cancel_left, if_true, true_and, Nat.add_zero] at read
  split at read
  · cases read
  split at read
  · cases read
  split at read
  · cases read
  next header covers room =>
    obtain ⟨rfl, rfl⟩ := Prod.mk.inj (Option.some.inj read)
    refine ⟨?_, ?_, rfl, rfl, rfl, rfl⟩
    · simp only
      omega
    · simp only
      omega

theorem diamAvpIterNext_advance {view : DiamAvpView}
    (read : diamAvpIterNext (diamAvpIterInit mem pos len) = (next, some view)) :
    view.len < len ∧ next.stop - next.cur < len := by
  unfold diamAvpIterNext at read
  split at read
  · cases read
  next v moved entry =>
    obtain ⟨-, room, -, -, -, rfl⟩ := tlvIterNext_some entry
    have aligned := tlvAlign_ge 4 (8 + v.len)
    split at read
    · split at read
      · cases read
      · cases read
        refine ⟨?_, ?_⟩ <;> simp only [diamAvpIterInit] <;> omega
    · cases read
      refine ⟨?_, ?_⟩ <;> simp only [diamAvpIterInit] <;> omega

def parseAvps (grouped : UInt32 → UInt32 → Bool) (mem : List UInt8)
    (pos len depth : Nat) : Except DiamError (List Avp) :=
  match _read : diamAvpIterNext (diamAvpIterInit mem pos len) with
  | (it, none) =>
    if it.cur ≠ it.stop then .error (fail "parse" diamELength) else .ok []
  | (it, some v) =>
    let children :=
      if grouped v.code v.vendorId ∧ depth < maxGroupDepth then
        match parseAvps grouped mem v.value v.len (depth + 1) with
        | .ok children => children
        | .error _ => []
      else []
    let a : Avp := {
      code := v.code
      vendorId := v.vendorId
      flags := v.flags
      data := slice mem v.value v.len
      children := children }
    match parseAvps grouped mem it.cur (it.stop - it.cur) depth with
    | .ok rest => .ok (a :: rest)
    | .error e => .error e
termination_by len
decreasing_by
  · exact (diamAvpIterNext_advance _read).1
  · exact (diamAvpIterNext_advance _read).2

def parse (grouped : UInt32 → UInt32 → Bool) (wire : List UInt8) : Except DiamError Msg :=
  match diamHdrDecode wire with
  | .error rc => .error (fail "parse" rc)
  | .ok h =>
    match parseAvps grouped wire diamHdrLen (h.length.toNat - diamHdrLen) 0 with
    | .error e => .error e
    | .ok avps =>
      .ok {
        request := h.request
        proxiable := h.proxiable
        error := h.error
        retransmit := h.retransmit
        cmd := h.cmdCode
        app := h.appId
        hbh := h.hbh
        e2e := h.e2e
        avps := avps }

/-- The value of the underlying entry: the vendor id is restored under the V
bit. -/
def Avp.body (a : Avp) : List UInt8 :=
  (if a.flags &&& diamAvpFVendor ≠ 0 then beBytes 4 a.vendorId.toNat else []) ++ a.data

def Avp.layout (a : Avp) : List UInt8 :=
  tlvHeaderBytes tlvProfDiameter a.code.toNat (some (8 + a.body.length)) a.flags ++ a.body

/-- The bytes are the AVPs in order, each with the padding its length asks
for. -/
def AccountsFor : List Avp → List UInt8 → Prop
  | [], bytes => bytes = []
  | a :: rest, bytes =>
    ∃ padding tail, bytes = a.layout ++ padding ++ tail ∧
      padding.length = (tlvPadding tlvProfDiameter a.body.length).length ∧
      AccountsFor rest tail

inductive WalkEnd where
  | complete
  | malformed
  | shortVendor
  deriving DecidableEq, Repr

/-- A vendor AVP too short for its vendor id ends the walk; it is told from the
end of the message only by bytes behind it. -/
def walkEnd (mem : List UInt8) (pos len : Nat) : WalkEnd :=
  match _read : tlvIterNext (diamAvpIterInit mem pos len) with
  | none => if len = 0 then .complete else .malformed
  | some (v, next) =>
    if v.metaOctet &&& diamAvpFVendor ≠ 0 ∧ v.len < 4 then
      if next.cur = next.stop then .shortVendor else .malformed
    else walkEnd mem next.cur (next.stop - next.cur)
termination_by len
decreasing_by
  obtain ⟨-, room, -, -, -, rfl⟩ := tlvIterNext_some _read
  have aligned := tlvAlign_ge 4 (8 + v.len)
  simp only [diamAvpIterInit]
  omega

theorem walkEnd_none (read : tlvIterNext (diamAvpIterInit mem pos len) = none) :
    walkEnd mem pos len = if len = 0 then .complete else .malformed := by
  rw [walkEnd]
  split
  · rfl
  next _ _ found =>
    rw [read] at found
    cases found

theorem walkEnd_some (read : tlvIterNext (diamAvpIterInit mem pos len) = some (v, next)) :
    walkEnd mem pos len =
      if v.metaOctet &&& diamAvpFVendor ≠ 0 ∧ v.len < 4 then
        if next.cur = next.stop then .shortVendor else .malformed
      else walkEnd mem next.cur (next.stop - next.cur) := by
  rw [walkEnd]
  split
  next none =>
    rw [read] at none
    cases none
  next _ _ found =>
    rw [read] at found
    cases found
    rfl

theorem parseAvps_none {depth : Nat}
    (read : diamAvpIterNext (diamAvpIterInit mem pos len) = (it, none)) :
    parseAvps grouped mem pos len depth =
      if it.cur ≠ it.stop then .error (fail "parse" diamELength) else .ok [] := by
  rw [parseAvps]
  split
  next _ stopped =>
    rw [read] at stopped
    cases stopped
    rfl
  next _ _ found =>
    rw [read] at found
    cases found

theorem parseAvps_some (grouped : UInt32 → UInt32 → Bool) (depth : Nat) {v : DiamAvpView}
    (read : diamAvpIterNext (diamAvpIterInit mem pos len) = (it, some v)) :
    ∃ children, parseAvps grouped mem pos len depth =
      match parseAvps grouped mem it.cur (it.stop - it.cur) depth with
      | .ok rest =>
        .ok (⟨v.code, v.vendorId, v.flags, slice mem v.value v.len, children⟩ :: rest)
      | .error e => .error e := by
  rw [parseAvps]
  split
  next _ stopped =>
    rw [read] at stopped
    cases stopped
  next _ _ found =>
    rw [read] at found
    cases found
    exact ⟨_, rfl⟩

theorem headerBytes_eq (type lfield : Nat) (metaOctet : UInt8) :
    tlvHeaderBytes tlvProfDiameter type (some lfield) metaOctet =
      beBytes 4 type ++ [metaOctet] ++ beBytes 3 lfield := by
  simp [tlvHeaderBytes, tlvHeader, tlvProfDiameter, memset, tlvStore, tlvNoMeta, splice, beBytes]

theorem slice_one (inside : pos < mem.length) : slice mem pos 1 = [mem.getD pos 0] := by
  simp [slice, List.take_one, inside]

theorem beBytes_tlvLoad {size value : Nat} (sized : size ≤ 4) (inside : pos + size ≤ mem.length)
    (load : tlvLoad mem pos size true = value) :
    beBytes size value = slice mem pos size := by
  have length : (slice mem pos size).length = size := length_slice inside
  have below := beNat_lt (slice mem pos size)
  rw [length] at below
  have small : beNat (slice mem pos size) < 2 ^ 32 :=
    calc
      beNat (slice mem pos size) < 256 ^ size := below
      _ ≤ 256 ^ 4 := Nat.pow_le_pow_right (by decide) sized
      _ = 2 ^ 32 := by decide
  rw [← load, tlvLoad, if_pos rfl, Nat.mod_eq_of_lt small, beBytes_beNat length]

theorem header_of_read (inside : pos + len ≤ mem.length)
    (read : tlvIterNext (diamAvpIterInit mem pos len) = some (v, next)) :
    tlvHeaderBytes tlvProfDiameter (UInt32.ofNat v.type).toNat (some (8 + v.len))
        v.metaOctet = slice mem pos 8 := by
  obtain ⟨length, room, type, metaOctet, -, -⟩ := tlvIterNext_some read
  have code : (UInt32.ofNat v.type).toNat = v.type := by
    rw [UInt32.toNat_ofNat', type, tlvLoad, if_pos rfl, Nat.mod_mod]
  rw [headerBytes_eq, code, metaOctet, beBytes_tlvLoad (by decide) (by omega) type.symm,
    beBytes_tlvLoad (by decide) (by omega) length, ← slice_one (by omega),
    ← slice_add mem pos 4 1, ← slice_add mem pos (4 + 1) 3]

theorem layout_of_read (inside : pos + len ≤ mem.length)
    (read : tlvIterNext (diamAvpIterInit mem pos len) = some (v, next))
    (whole : ¬ (v.metaOctet &&& diamAvpFVendor ≠ 0 ∧ v.len < 4)) :
    ∃ view, diamAvpIterNext (diamAvpIterInit mem pos len) = (next, some view) ∧ ∀ children,
        (Avp.mk view.code view.vendorId view.flags (slice mem view.value view.len) children).body =
          slice mem (pos + 8) v.len ∧
        (Avp.mk view.code view.vendorId view.flags
            (slice mem view.value view.len) children).layout =
          slice mem pos (8 + v.len) := by
  have header := header_of_read inside read
  obtain ⟨-, room, -, -, value, -⟩ := tlvIterNext_some read
  have size : (slice mem (pos + 8) v.len).length = v.len := length_slice (by omega)
  -- Once the body is the entry's value, the layout follows from the header.
  suffices shown : ∃ view, diamAvpIterNext (diamAvpIterInit mem pos len) = (next, some view) ∧
        view.code = .ofNat v.type ∧ view.flags = v.metaOctet ∧
        ∀ children, (Avp.mk view.code view.vendorId view.flags
          (slice mem view.value view.len) children).body = slice mem (pos + 8) v.len by
    obtain ⟨view, next, code, flags, body⟩ := shown
    refine ⟨view, next, fun children => ⟨body children, ?_⟩⟩
    rw [Avp.layout, body, size, slice_add]
    simp only [code, flags, header]
  by_cases vendor : v.metaOctet &&& diamAvpFVendor ≠ 0
  · have long : ¬ v.len < 4 := fun short => whole ⟨vendor, short⟩
    refine ⟨_, by rw [diamAvpIterNext, read]; simp only [if_pos vendor, if_neg long]; rfl,
      rfl, rfl, ?_⟩
    intro children
    have split : v.len = 4 + (v.len - 4) := by omega
    simp only [Avp.body, if_pos vendor, diamAvpIterInit, value]
    rw [beBytes_be32Load (by omega), ← slice_add, ← split]
  · refine ⟨_, by rw [diamAvpIterNext, read]; simp only [if_neg vendor]; rfl, rfl, rfl, ?_⟩
    intro children
    simp only [Avp.body, if_neg vendor, List.nil_append, value]

def Ends (result : Except DiamError (List Avp)) (mem : List UInt8) (pos len : Nat) : WalkEnd → Prop
  | .complete => ∃ avps, result = .ok avps ∧ AccountsFor avps (slice mem pos len)
  | .malformed => ∃ e, result = .error e
  | .shortVendor =>
    ∃ avps used, result = .ok avps ∧ used < len ∧ AccountsFor avps (slice mem pos used)

theorem AccountsFor.cons {vlen used : Nat} {a : Avp}
    {rest : List Avp} (inside : pos + tlvAlign 4 (8 + vlen) ≤ mem.length)
    (body : a.body = slice mem (pos + 8) vlen)
    (layout : a.layout = slice mem pos (8 + vlen))
    (accounted : AccountsFor rest (slice mem (pos + tlvAlign 4 (8 + vlen)) used)) :
    AccountsFor (a :: rest) (slice mem pos (tlvAlign 4 (8 + vlen) + used)) := by
  have aligned := tlvAlign_ge 4 (8 + vlen)
  refine ⟨slice mem (pos + (8 + vlen)) (tlvAlign 4 (8 + vlen) - (8 + vlen)), _, ?_, ?_, accounted⟩
  · rw [layout, ← slice_add, slice_add mem pos _ used]
    congr 2
    omega
  · have size : (slice mem (pos + 8) vlen).length = vlen := length_slice (by omega)
    rw [length_slice (by omega), body, size, tlvPadding, List.length_replicate]
    rfl

theorem tlvAlign_le {size : Nat} (room : size ≤ len) (multiple : len % 4 = 0) :
    tlvAlign 4 size ≤ len := by
  unfold tlvAlign
  rw [if_pos (by decide)]
  split <;> omega

theorem accountsFor_nil (mem : List UInt8) (pos : Nat) : AccountsFor [] (slice mem pos 0) := by
  simp [AccountsFor, slice]

theorem ends_of_none {depth : Nat} (read : tlvIterNext (diamAvpIterInit mem pos len) = none) :
    Ends (parseAvps grouped mem pos len depth) mem pos len (walkEnd mem pos len) := by
  have shown : diamAvpIterNext (diamAvpIterInit mem pos len) =
      (diamAvpIterInit mem pos len, none) := by
    rw [diamAvpIterNext, read]
  rw [walkEnd_none read, parseAvps_none shown]
  by_cases empty : len = 0
  · subst empty
    exact ⟨[], by simp [diamAvpIterInit], accountsFor_nil mem pos⟩
  · have left : (diamAvpIterInit mem pos len).cur ≠ (diamAvpIterInit mem pos len).stop := by
      simp only [diamAvpIterInit]
      omega
    rw [if_neg empty, if_pos left]
    exact ⟨_, rfl⟩

theorem ends_of_short {depth : Nat}
    (read : tlvIterNext (diamAvpIterInit mem pos len) = some (v, next))
    (short : v.metaOctet &&& diamAvpFVendor ≠ 0 ∧ v.len < 4) :
    Ends (parseAvps grouped mem pos len depth) mem pos len (walkEnd mem pos len) := by
  have shown : diamAvpIterNext (diamAvpIterInit mem pos len) = (next, none) := by
    rw [diamAvpIterNext, read]
    simp only [if_pos short.1, if_pos short.2]
  obtain ⟨-, room, -⟩ := tlvIterNext_some read
  rw [walkEnd_some read, if_pos short, parseAvps_none shown]
  by_cases atEnd : next.cur = next.stop
  · rw [if_pos atEnd, if_neg (not_not.mpr atEnd)]
    exact ⟨[], 0, rfl, by omega, accountsFor_nil mem pos⟩
  · rw [if_neg atEnd, if_pos atEnd]
    exact ⟨_, rfl⟩

theorem tlvAlign_four (size : Nat) : tlvAlign 4 size % 4 = 0 := by
  unfold tlvAlign
  rw [if_pos (by decide)]
  split <;> omega

theorem parseAvps_ends (grouped : UInt32 → UInt32 → Bool)
    (depth : Nat) (inside : pos + len ≤ mem.length)
    (multiple : len % 4 = 0) :
    Ends (parseAvps grouped mem pos len depth) mem pos len (walkEnd mem pos len) := by
  induction len using Nat.strong_induction_on generalizing pos with
  | _ len ih =>
    cases read : tlvIterNext (diamAvpIterInit mem pos len) with
    | none => exact ends_of_none read
    | some entry =>
      obtain ⟨v, next⟩ := entry
      by_cases short : v.metaOctet &&& diamAvpFVendor ≠ 0 ∧ v.len < 4
      · exact ends_of_short read short
      obtain ⟨view, shown, laid⟩ := layout_of_read inside read short
      obtain ⟨children, parsed⟩ := parseAvps_some grouped depth shown
      obtain ⟨body, layout⟩ := laid children
      obtain ⟨-, room, -, -, -, moved⟩ := tlvIterNext_some read
      have aligned := tlvAlign_ge 4 (8 + v.len)
      have within := tlvAlign_le room multiple
      have step := tlvAlign_four (8 + v.len)
      have cur : next.cur = pos + tlvAlign 4 (8 + v.len) := by
        rw [moved, Nat.min_eq_left within]
      have left : next.stop - next.cur = len - tlvAlign 4 (8 + v.len) := by
        rw [cur, moved]
        simp only [diamAvpIterInit]
        omega
      have behind : Ends (parseAvps grouped mem (pos + tlvAlign 4 (8 + v.len))
            (len - tlvAlign 4 (8 + v.len)) depth) mem
          (pos + tlvAlign 4 (8 + v.len)) (len - tlvAlign 4 (8 + v.len))
          (walkEnd mem (pos + tlvAlign 4 (8 + v.len)) (len - tlvAlign 4 (8 + v.len))) :=
        ih _ (by omega) (by omega) (by omega)
      rw [walkEnd_some read, if_neg short, parsed, left, cur]
      cases ended : walkEnd mem (pos + tlvAlign 4 (8 + v.len)) (len - tlvAlign 4 (8 + v.len)) with
      | malformed =>
        rw [ended] at behind
        obtain ⟨e, thrown⟩ := behind
        exact ⟨e, by rw [thrown]⟩
      | complete =>
        rw [ended] at behind
        obtain ⟨avps, returned, accounted⟩ := behind
        refine ⟨_, by rw [returned], ?_⟩
        have whole := AccountsFor.cons (by omega) body layout accounted
        rwa [Nat.add_sub_cancel' within] at whole
      | shortVendor =>
        rw [ended] at behind
        obtain ⟨avps, used, returned, shorter, accounted⟩ := behind
        exact ⟨_, tlvAlign 4 (8 + v.len) + used, by rw [returned], by omega,
          AccountsFor.cons (by omega) body layout accounted⟩

def wireEnd (wire : List UInt8) : WalkEnd :=
  match diamHdrDecode wire with
  | .error _ => .malformed
  | .ok h => walkEnd wire diamHdrLen (h.length.toNat - diamHdrLen)

def messageLength (wire : List UInt8) : Nat := (be24Load wire 1).toNat

theorem diamHdrDecode_ok (decoded : diamHdrDecode wire = .ok h) :
    h.length.toNat = messageLength wire ∧ diamHdrLen ≤ messageLength wire ∧
      messageLength wire ≤ wire.length ∧ messageLength wire % 4 = 0 := by
  unfold diamHdrDecode at decoded
  split at decoded
  · cases decoded
  simp only at decoded
  split at decoded
  · cases decoded
  split at decoded
  · cases decoded
  split at decoded
  · cases decoded
  split at decoded
  · cases decoded
  next covers fits multiple =>
    cases decoded
    exact ⟨rfl, Nat.le_of_not_lt covers, Nat.le_of_not_lt fits, not_not.mp multiple⟩

theorem AccountsFor.length_eq (accounts : AccountsFor avps first)
    (other : AccountsFor avps second) :
    first.length = second.length := by
  induction avps generalizing first second with
  | nil => rw [show first = [] from accounts, show second = [] from other]
  | cons a rest ih =>
    obtain ⟨padding, tail, rfl, sized, accounted⟩ := accounts
    obtain ⟨padding', tail', rfl, sized', accounted'⟩ := other
    have same := ih accounted accounted'
    simp only [List.length_append, sized, sized', same]

/-- A parse returns exactly when the walk does not find a malformed entry, and
its AVPs then account for the message, or for less when the walk ended in a
short vendor AVP. -/
theorem parse_ends (grouped : UInt32 → UInt32 → Bool) (wire : List UInt8) :
    match wireEnd wire with
    | .complete => ∃ m, parse grouped wire = .ok m ∧
        AccountsFor m.avps (slice wire diamHdrLen (messageLength wire - diamHdrLen))
    | .malformed => ∃ e, parse grouped wire = .error e
    | .shortVendor => ∃ m used, parse grouped wire = .ok m ∧
        used < messageLength wire - diamHdrLen ∧
        AccountsFor m.avps (slice wire diamHdrLen used) := by
  unfold wireEnd
  cases decoded : diamHdrDecode wire with
  | error rc =>
    simp only
    exact ⟨fail "parse" rc, by rw [parse, decoded]⟩
  | ok h =>
    obtain ⟨length, covers, fits, multiple⟩ := diamHdrDecode_ok decoded
    have ends := parseAvps_ends grouped 0
      (show diamHdrLen + (messageLength wire - diamHdrLen) ≤ wire.length by omega)
      (by simp only [diamHdrLen] at covers ⊢; omega)
    simp only [length]
    cases walk : walkEnd wire diamHdrLen (messageLength wire - diamHdrLen) with
    | malformed =>
      rw [walk] at ends
      obtain ⟨e, thrown⟩ := ends
      exact ⟨e, by simp only [parse, decoded, length, thrown]⟩
    | complete =>
      rw [walk] at ends
      obtain ⟨avps, returned, accounted⟩ := ends
      refine ⟨_, by simp only [parse, decoded, length, returned]; rfl, accounted⟩
    | shortVendor =>
      rw [walk] at ends
      obtain ⟨avps, used, returned, shorter, accounted⟩ := ends
      refine ⟨_, used, by simp only [parse, decoded, length, returned]; rfl, shorter, accounted⟩

theorem wireEnd_header (walked : wireEnd wire ≠ .malformed) :
    diamHdrLen ≤ messageLength wire ∧ messageLength wire ≤ wire.length := by
  unfold wireEnd at walked
  cases decoded : diamHdrDecode wire with
  | error rc => simp [decoded] at walked
  | ok h =>
    obtain ⟨-, covers, fits, -⟩ := diamHdrDecode_ok decoded
    exact ⟨covers, fits⟩

/-- Whatever the dictionary, a message that is returned accounts for every byte
of the message behind the header exactly when the AVPs do not end in a vendor
AVP that is too short for its vendor id, and for every byte of the string
exactly when, in addition, a complete message is not followed by more bytes. -/
theorem parse_accounts_iff (grouped : UInt32 → UInt32 → Bool) (wire : List UInt8) :
    ((∀ m, parse grouped wire = .ok m → AccountsFor m.avps
          (slice wire diamHdrLen (messageLength wire - diamHdrLen))) ↔
      wireEnd wire ≠ .shortVendor) ∧
    ((∀ m, parse grouped wire = .ok m → AccountsFor m.avps (wire.drop diamHdrLen)) ↔
      wireEnd wire ≠ .shortVendor ∧
        (wireEnd wire = .complete → messageLength wire = wire.length)) := by
  have ends := parse_ends grouped wire
  cases walk : wireEnd wire with
  | malformed =>
    rw [walk] at ends
    obtain ⟨e, thrown⟩ := ends
    simp [thrown]
  | complete =>
    rw [walk] at ends
    obtain ⟨m, returned, accounted⟩ := ends
    obtain ⟨covers, fits⟩ := wireEnd_header (by rw [walk]; decide)
    simp only [returned, Except.ok.injEq, forall_eq', accounted, ne_eq, reduceCtorEq,
      not_false_eq_true, true_and, forall_const]
    constructor
    · intro whole
      have sizes := accounted.length_eq whole
      rw [length_slice (by omega), List.length_drop] at sizes
      omega
    · intro same
      have rest : slice wire diamHdrLen (messageLength wire - diamHdrLen) =
          wire.drop diamHdrLen := by
        rw [slice, List.take_of_length_le (by rw [List.length_drop]; omega)]
      rwa [rest] at accounted
  | shortVendor =>
    rw [walk] at ends
    obtain ⟨m, used, returned, shorter, accounted⟩ := ends
    obtain ⟨covers, fits⟩ := wireEnd_header (by rw [walk]; decide)
    simp only [returned, Except.ok.injEq, forall_eq', ne_eq, not_true_eq_false, iff_false,
      false_and]
    have used_length : (slice wire diamHdrLen used).length = used := length_slice (by omega)
    constructor
    · intro whole
      have sizes := accounted.length_eq whole
      rw [used_length, length_slice (by omega)] at sizes
      omega
    · intro whole
      have sizes := accounted.length_eq whole
      rw [used_length, List.length_drop] at sizes
      omega

/-- An Origin-Host AVP, and behind it a vendor AVP without a vendor id. -/
def droppedAvp : List UInt8 :=
  [1, 0, 0, 40, 0x80, 0, 1, 1, 0, 0, 0, 0, 0, 0, 0, 1, 0, 0, 0, 2,
    0, 0, 1, 8, 0x40, 0, 0, 12, 0x61, 0x62, 0x63, 0x64,
    0, 0, 0, 1, 0xC0, 0, 0, 8]

theorem short_vendor_avp_dropped :
    ∃ m, parse (fun _ _ => false) droppedAvp = .ok m ∧ m.avps.map Avp.code = [264] ∧
      ¬ AccountsFor m.avps (droppedAvp.drop diamHdrLen) := by
  have walk : wireEnd droppedAvp = .shortVendor := by decide +kernel
  have codes : ((parse (fun _ _ => false) droppedAvp).toOption.map
      fun m => m.avps.map Avp.code) = some [264] := by decide +kernel
  have ends := parse_ends (fun _ _ => false) droppedAvp
  rw [walk] at ends
  obtain ⟨m, used, returned, shorter, accounted⟩ := ends
  refine ⟨m, returned, by simpa [returned, Except.toOption] using codes, ?_⟩
  intro whole
  have sizes := accounted.length_eq whole
  have total : messageLength droppedAvp = 40 := by decide
  rw [total, diamHdrLen] at shorter
  simp only [slice, droppedAvp, diamHdrLen, List.length_take, List.length_drop,
    List.length_cons, List.length_nil] at sizes
  omega

end Pro2Call.Diam

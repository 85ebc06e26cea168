import Pro2Call.Data.Bytes
import Pro2Call.Data.Bitmap
import Mathlib.Tactic.Positivity
import Mathlib.Tactic.Ring

namespace Pro2Call.Task

open Pro2Call.Data

/-! Address pool over an occupancy bitmap and a rotating cursor. -/

inductive IppoolErr where
  | full
  | range
  | inuse
  | free
  deriving DecidableEq, Repr

def ippoolV4 : Nat := 4
def ippoolV6 : Nat := 16

def ippoolMaxSize : Nat := 2 ^ 24

structure IppoolAddr where
  b : List UInt8
  deriving DecidableEq, Repr

def IppoolAddr.len (addr : IppoolAddr) : Nat := addr.b.length

def ippoolAddr4 (hostOrder : Nat) : IppoolAddr where
  b := beBytes 4 hostOrder

structure Ippool where
  base : List UInt8
  size : Nat
  used : Nat
  cursor : Nat
  bits : Bitmap
  deriving DecidableEq, Repr

def Ippool.len (self : Ippool) : Nat := self.base.length

def Ippool.words (self : Ippool) : Nat := self.bits.length

def addrCarry : List UInt8 → Nat → List UInt8
  | [], _ => []
  | byte :: rest, carry =>
    if carry = 0 then byte :: rest
    else
      let carry := carry + byte.toNat
      UInt8.ofNat carry :: addrCarry rest (carry / 256)

def addrOffset (addr : List UInt8) (index : Nat) : List UInt8 :=
  (addrCarry addr.reverse index).reverse

def addrSub (a b : UInt8) (borrow : Nat) : Nat := (a.toNat + 2 ^ 32 - b.toNat - borrow) % 2 ^ 32

/-- The subtraction loop of `addrDelta`, least significant byte first, with
the final borrow. -/
def addrBorrow : List UInt8 → List UInt8 → Nat → List UInt8 × Nat
  | a :: as, b :: bs, borrow =>
    let v := addrSub a b borrow
    let (diff, borrow) := addrBorrow as bs (v / 256 % 2)
    (UInt8.ofNat v :: diff, borrow)
  | _, _, borrow => ([], borrow)

def addrDelta (a b : List UInt8) : Option Nat :=
  let (diff, borrow) := addrBorrow a.reverse b.reverse 0
  let diff := diff.reverse
  if borrow ≠ 0 then none
  else if (diff.take (diff.length - 8)).any (· ≠ 0) then none
  else some (beNat (diff.drop (diff.length - 8)))

def markTail (size : Nat) (bits : Bitmap) : Bitmap :=
  let tail := size % 64
  if tail ≠ 0 then
    List.set bits (bits.length - 1) (BitVec.allOnes 64 <<< tail)
  else bits

def poolNew (base : List UInt8) (size : Nat) : Except String Ippool :=
  if size = 0 then .error "ippool: empty range"
  else
    let size := if size > ippoolMaxSize then ippoolMaxSize else size
    .ok {
      base := base
      size := size
      used := 0
      cursor := 0
      bits := markTail size (List.replicate ((size + 63) / 64) 0) }

def prefixMask (prefixLen i : Nat) : UInt8 :=
  let keep := if prefixLen > i * 8 then prefixLen - i * 8 else 0
  if keep ≥ 8 then 0xFF else UInt8.ofNat (0xFF <<< (8 - keep))

def prefixNet (bytes : List UInt8) (prefixLen : Nat) : List UInt8 :=
  bytes.mapIdx fun i byte => byte &&& prefixMask prefixLen i

def ippoolCreate (addr : IppoolAddr) (prefixLen : Nat) : Except String Ippool :=
  if addr.len ≠ ippoolV4 ∧ addr.len ≠ ippoolV6 then
    .error "ippool: invalid prefix address"
  else
    let bits := addr.len * 8
    if prefixLen > bits then
      .error ("ippool: prefix length " ++ toString prefixLen ++ " exceeds " ++ toString bits)
    else
      let hostbits := bits - prefixLen
      let net := prefixNet addr.b prefixLen
      if hostbits ≥ 64 then poolNew net ippoolMaxSize
      else
        let size := 2 ^ hostbits
        if addr.len = ippoolV4 ∧ hostbits ≥ 2 then
          poolNew (addrOffset net 1) (size - 2)
        else poolNew net size

def ippoolCreateRange (first last : IppoolAddr) : Except String Ippool :=
  if first.len ≠ last.len ∨ (first.len ≠ ippoolV4 ∧ first.len ≠ ippoolV6) then
    .error "ippool: invalid range endpoints"
  else
    match addrDelta last.b first.b with
    | none => .error "ippool: range end precedes its start"
    | some delta =>
      if delta = 2 ^ 64 - 1 then poolNew first.b ippoolMaxSize
      else poolNew first.b (delta + 1)

def slotAddr (self : Ippool) (slot : Nat) : IppoolAddr where
  b := addrOffset self.base slot

def ippoolAddrAt (self : Ippool) (index : Nat) : Except IppoolErr IppoolAddr :=
  if index ≥ self.size then .error .range else .ok (slotAddr self index)

def ippoolIndexOf (self : Ippool) (addr : IppoolAddr) : Option Nat :=
  if addr.len ≠ self.len then none
  else
    match addrDelta addr.b self.base with
    | none => none
    | some delta => if delta ≥ self.size then none else some delta

/-- The sweep of `ippoolAlloc`: at most `probes` words from word `w` on, the
first one masked. -/
def allocSweep (bits : Bitmap) : Nat → Nat → BitVec 64 → Option Nat
  | 0, _, _ => none
  | probes + 1, w, mask =>
    let freeBits := ~~~bits.getD w 0 &&& mask
    if freeBits ≠ 0 then some (w * 64 + freeBits.ctz.toNat)
    else
      allocSweep bits probes (if w + 1 = bits.length then 0 else w + 1) (BitVec.allOnes 64)

def ippoolAlloc (self : Ippool) : Ippool × Except IppoolErr IppoolAddr :=
  if self.used = self.size then (self, .error .full)
  else
    match allocSweep self.bits (self.words + 1) (self.cursor / 64)
        (BitVec.allOnes 64 <<< (self.cursor % 64)) with
    | none => (self, .error .full)
    | some slot =>
      ({ self with
          bits := self.bits.mark slot
          used := self.used + 1
          cursor := if slot + 1 < self.size then slot + 1 else 0 },
        .ok (slotAddr self slot))

def ippoolReserve (self : Ippool) (addr : IppoolAddr) : Ippool × Except IppoolErr Unit :=
  match ippoolIndexOf self addr with
  | none => (self, .error .range)
  | some i =>
    if self.bits.bit i then (self, .error .inuse)
    else
      ({ self with bits := self.bits.mark i, used := self.used + 1 }, .ok ())

def ippoolFree (self : Ippool) (addr : IppoolAddr) : Ippool × Except IppoolErr Unit :=
  match ippoolIndexOf self addr with
  | none => (self, .error .range)
  | some i =>
    if self.bits.bit i then
      ({ self with bits := self.bits.unmark i, used := self.used - 1 }, .ok ())
    else (self, .error .free)

def ippoolReset (self : Ippool) : Ippool :=
  { self with
    bits := markTail self.size (List.replicate self.words 0)
    used := 0
    cursor := 0 }

def ippoolIsAllocated (self : Ippool) (addr : IppoolAddr) : Bool :=
  match ippoolIndexOf self addr with
  | none => false
  | some i => self.bits.bit i

def ippoolAvail (self : Ippool) : Nat := self.size - self.used

@[simp] theorem length_addrCarry (bytes : List UInt8) (carry : Nat) :
    (addrCarry bytes carry).length = bytes.length := by
  induction bytes generalizing carry with
  | nil => rfl
  | cons byte rest ih =>
    unfold addrCarry
    split
    · rfl
    · simp [ih]

@[simp] theorem length_addrOffset (addr : List UInt8) (index : Nat) :
    (addrOffset addr index).length = addr.length := by
  simp [addrOffset]

theorem leNat_addrCarry (bytes : List UInt8) (carry : Nat) :
    leNat (addrCarry bytes carry) = (leNat bytes + carry) % 256 ^ bytes.length := by
  induction bytes generalizing carry with
  | nil => simp [addrCarry, Nat.mod_one]
  | cons byte rest ih =>
    unfold addrCarry
    split
    · rename_i stopped
      have small : leNat (byte :: rest) < 256 ^ (byte :: rest).length := by
        have := beNat_lt (byte :: rest).reverse
        rwa [List.length_reverse] at this
      rw [stopped, Nat.add_zero, Nat.mod_eq_of_lt small]
    · rw [leNat_cons, ih, leNat_cons, List.length_cons, Nat.pow_succ,
        Nat.mul_comm (256 ^ rest.length), Nat.mod_mul]
      simp only [UInt8.toNat_ofNat']
      have quotient : (leNat rest * 256 + byte.toNat + carry) / 256 =
          leNat rest + (carry + byte.toNat) / 256 := by
        omega
      rw [quotient]
      omega

theorem beNat_addrOffset (addr : List UInt8) (index : Nat) :
    beNat (addrOffset addr index) = (beNat addr + index) % 256 ^ addr.length := by
  have computed := leNat_addrCarry addr.reverse index
  rw [List.length_reverse] at computed
  simpa [leNat, addrOffset] using computed

theorem length_addrBorrow {a b : List UInt8} (sized : a.length = b.length)
    (borrow : Nat) : (addrBorrow a b borrow).1.length = a.length := by
  induction a generalizing b borrow with
  | nil => simp [addrBorrow]
  | cons first rest ih =>
    cases b with
    | nil => simp at sized
    | cons second others =>
      simp only [addrBorrow, List.length_cons]
      rw [ih (by simpa using sized)]

theorem addrSub_borrow (a b : UInt8) (bit : borrow ≤ 1) :
    addrSub a b borrow % 256 + b.toNat + borrow = a.toNat + addrSub a b borrow / 256 % 2 * 256 := by
  have first := a.toNat_lt
  have second := b.toNat_lt
  unfold addrSub
  omega

theorem leNat_addrBorrow {a b : List UInt8} (sized : a.length = b.length) (bit : borrow ≤ 1) :
    (addrBorrow a b borrow).2 ≤ 1 ∧ leNat (addrBorrow a b borrow).1 + leNat b + borrow =
        leNat a + (addrBorrow a b borrow).2 * 256 ^ a.length := by
  induction a generalizing b borrow with
  | nil =>
    have empty : b = [] := List.length_eq_zero_iff.mp sized.symm
    simp [addrBorrow, empty, bit]
  | cons first rest ih =>
    cases b with
    | nil => simp at sized
    | cons second others =>
      have byte := addrSub_borrow first second bit
      have nextBit : addrSub first second borrow / 256 % 2 ≤ 1 := by omega
      obtain ⟨outBit, value⟩ := ih (b := others) (by simpa using sized) nextBit
      rw [addrBorrow]
      refine ⟨outBit, ?_⟩
      simp only [leNat_cons, List.length_cons, Nat.pow_succ, UInt8.toNat_ofNat', ← Nat.mul_assoc]
      omega

theorem addrNarrow_eq (diff : List UInt8) :
    (if (diff.take (diff.length - 8)).any (· ≠ 0) then none
      else some (beNat (diff.drop (diff.length - 8)))) =
      if beNat diff < 2 ^ 64 then some (beNat diff) else none := by
  have wide : (diff.take (diff.length - 8)).any (· ≠ 0) = true ↔ ¬ beNat diff < 2 ^ 64 := by
    rw [show 2 ^ 64 = 256 ^ 8 by decide, beNat_lt_iff_take, beNat_eq_zero_iff]
    simp
  by_cases small : beNat diff < 2 ^ 64
  · have zero := (beNat_lt_iff_take diff 8).mp small
    have split := beNat_take_drop diff 8
    rw [zero, Nat.zero_mul, Nat.zero_add] at split
    rw [if_pos small, if_neg (fun found => wide.mp found small), split]
  · rw [if_neg small, if_pos (wide.mpr small)]

theorem addrDelta_eq {a b : List UInt8} (sized : a.length = b.length) :
    addrDelta a b =
      if beNat b ≤ beNat a ∧ beNat a - beNat b < 2 ^ 64 then
        some (beNat a - beNat b)
      else none := by
  have reversed : a.reverse.length = b.reverse.length := by simpa using sized
  obtain ⟨bit, value⟩ := leNat_addrBorrow reversed (Nat.zero_le 1)
  have diffSized := length_addrBorrow reversed 0
  unfold addrDelta
  revert bit value diffSized
  generalize addrBorrow a.reverse b.reverse 0 = result
  obtain ⟨diff, borrow⟩ := result
  intro bit value diffSized
  simp only [leNat, List.reverse_reverse, List.length_reverse, Nat.add_zero] at bit value diffSized
  have bounded := beNat_lt diff.reverse
  rw [List.length_reverse, diffSized] at bounded
  dsimp only
  rw [addrNarrow_eq]
  by_cases borrowed : borrow = 0
  · rw [if_neg (not_not.mpr borrowed)]
    rw [borrowed, Nat.zero_mul, Nat.add_zero] at value
    have difference : beNat diff.reverse = beNat a - beNat b := by omega
    have ordered : beNat b ≤ beNat a := by omega
    rw [difference]
    simp only [ordered, true_and]
  · have one : borrow = 1 := by omega
    rw [one, Nat.one_mul] at value
    rw [if_pos borrowed, if_neg]
    rintro ⟨ordered, _⟩
    omega

def freshPool (base : List UInt8) (size : Nat) : Ippool where
  base := base
  size := size
  used := 0
  cursor := 0
  bits := markTail size (List.replicate ((size + 63) / 64) 0)

theorem poolNew_of_pos (base : List UInt8) {size : Nat} (positive : 0 < size) :
    poolNew base size = .ok (freshPool base (min size ippoolMaxSize)) := by
  have clamped : (if size > ippoolMaxSize then ippoolMaxSize else size) =
      min size ippoolMaxSize := by
    split <;> omega
  simp only [poolNew, if_neg (Nat.ne_of_gt positive), clamped, freshPool]

def IppoolAddr.value (addr : IppoolAddr) : Nat := beNat addr.b

theorem IppoolAddr.value_lt (addr : IppoolAddr) : addr.value < 256 ^ addr.len := beNat_lt addr.b

@[simp] theorem len_slotAddr (self : Ippool) (slot : Nat) :
    (slotAddr self slot).len = self.len := by
  simp [slotAddr, IppoolAddr.len, Ippool.len]

theorem value_slotAddr {self : Ippool} (inside : beNat self.base + slot < 256 ^ self.len) :
    (slotAddr self slot).value = beNat self.base + slot := by
  rw [slotAddr, IppoolAddr.value, beNat_addrOffset]
  exact Nat.mod_eq_of_lt inside

theorem prefixMask_eq_first (prefixLen i : Nat) :
    prefixMask prefixLen i = prefixMask (prefixLen - i * 8) 0 := by
  have same : (if prefixLen > i * 8 then prefixLen - i * 8 else 0) = prefixLen - i * 8 := by
    split <;> omega
  have same' : (if prefixLen - i * 8 > 0 * 8 then prefixLen - i * 8 - 0 * 8
      else 0) = prefixLen - i * 8 := by
    split <;> omega
  simp only [prefixMask, same, same']

theorem and_prefixMask_of_whole (whole : (i + 1) * 8 ≤ prefixLen) (byte : UInt8) :
    byte &&& prefixMask prefixLen i = byte := by
  have keep : (if prefixLen > i * 8 then prefixLen - i * 8 else 0) ≥ 8 := by
    split <;> omega
  simp only [prefixMask, if_pos keep]
  exact UInt8.and_neg_one

theorem prefixMask_byte : ∀ keep ≤ 8, ∀ byte : Fin 256,
    (UInt8.ofFin byte &&& prefixMask keep 0).toNat =
      byte.val / 2 ^ (8 - keep) * 2 ^ (8 - keep) := by
  decide +kernel

theorem prefixNet_append (front : List UInt8) (byte : UInt8) (prefixLen : Nat) :
    prefixNet (front ++ [byte]) prefixLen = prefixNet front prefixLen ++
        [byte &&& prefixMask prefixLen front.length] := by
  simp [prefixNet, List.mapIdx_append]

theorem prefixNet_of_whole {bytes : List UInt8} (whole : 8 * bytes.length ≤ prefixLen) :
    prefixNet bytes prefixLen = bytes := by
  induction bytes using List.reverseRecOn with
  | nil => rfl
  | append_singleton front byte ih =>
    rw [List.length_append, List.length_singleton] at whole
    rw [prefixNet_append, ih (by omega), and_prefixMask_of_whole (by omega)]

theorem beNat_prefixNet {bytes : List UInt8} (inside : prefixLen ≤ 8 * bytes.length) :
    beNat (prefixNet bytes prefixLen) = beNat bytes / 2 ^ (8 * bytes.length - prefixLen) *
        2 ^ (8 * bytes.length - prefixLen) := by
  induction bytes using List.reverseRecOn with
  | nil => simp [prefixNet]
  | append_singleton front byte ih =>
    rw [List.length_append, List.length_singleton] at inside ⊢
    rw [prefixNet_append, beNat_append_singleton, beNat_append_singleton, prefixMask_eq_first]
    have octet : (byte &&& prefixMask (prefixLen - front.length * 8) 0).toNat =
        byte.toNat / 2 ^ (8 - (prefixLen - front.length * 8)) *
          2 ^ (8 - (prefixLen - front.length * 8)) :=
      prefixMask_byte _ (by omega) byte.toFin
    have below := byte.toNat_lt
    rw [octet]
    by_cases whole : 8 * front.length ≤ prefixLen
    · rw [prefixNet_of_whole whole]
      have host : 8 * (front.length + 1) - prefixLen =
          8 - (prefixLen - front.length * 8) := by omega
      have radix : (256 : Nat) = 2 ^ (prefixLen - front.length * 8) *
            2 ^ (8 - (prefixLen - front.length * 8)) := by
        rw [← Nat.pow_add, Nat.add_sub_of_le (by omega)]
      rw [host, radix, ← Nat.mul_assoc, Nat.add_comm,
        Nat.add_comm _ byte.toNat, Nat.add_mul_div_right _ _ (by positivity),
        Nat.add_mul]
    · have host : 8 * (front.length + 1) - prefixLen =
          (8 * front.length - prefixLen) + 8 := by omega
      have spent : prefixLen - front.length * 8 = 0 := by omega
      have rounded : (beNat front * 256 + byte.toNat) / 256 = beNat front := by
        omega
      rw [ih (by omega), host, spent, Nat.pow_add,
        Nat.mul_comm (2 ^ (8 * front.length - prefixLen)) (2 ^ 8),
        ← Nat.div_div_eq_div_mul, rounded]
      have zero : byte.toNat / 2 ^ (8 - 0) = 0 := by omega
      rw [zero]
      ring

end Pro2Call.Task

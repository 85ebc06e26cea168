import Pro2Call.Task.IppoolRange
import Pro2Call.Task.IppoolScope
import Pro2Call.Data.Run
import Mathlib.Data.Finset.Image

namespace Pro2Call.Task

open Pro2Call.Data

inductive IppoolBuilt : Ippool → Prop where
  | create {addr : IppoolAddr} {prefixLen : Nat} {pool : Ippool}
      (built : ippoolCreate addr prefixLen = .ok pool) : IppoolBuilt pool
  | createRange {first last : IppoolAddr} {pool : Ippool}
      (built : ippoolCreateRange first last = .ok pool) : IppoolBuilt pool

inductive IppoolCall where
  | alloc
  | reserve (addr : IppoolAddr)
  | free (addr : IppoolAddr)
  | reset
  deriving DecidableEq, Repr

def IppoolCall.exec (self : Ippool) :
    IppoolCall → Ippool × Except IppoolErr (Option IppoolAddr)
  | .alloc => ((ippoolAlloc self).1, (ippoolAlloc self).2.map some)
  | .reserve addr =>
    ((ippoolReserve self addr).1, (ippoolReserve self addr).2.map fun _ => none)
  | .free addr =>
    ((ippoolFree self addr).1, (ippoolFree self addr).2.map fun _ => none)
  | .reset => (ippoolReset self, .ok none)

def heldAfter (held : Finset IppoolAddr) :
    IppoolCall → Except IppoolErr (Option IppoolAddr) → Finset IppoolAddr
  | _, .error _ => held
  | .alloc, .ok (some addr) => insert addr held
  | .alloc, .ok none => held
  | .reserve addr, .ok _ => insert addr held
  | .free addr, .ok _ => held.erase addr
  | .reset, .ok _ => ∅

structure LeasedPool where
  pool : Ippool
  held : Finset IppoolAddr

def leaseStep (state : LeasedPool) (call : IppoolCall) : LeasedPool where
  pool := (call.exec state.pool).1
  held := heldAfter state.held call (call.exec state.pool).2

structure LeasesKept (state : LeasedPool) : Prop where
  used_eq_marked : state.pool.used = (state.pool.bits.marked state.pool.size).card
  past_end_set : ∀ slot, state.pool.size ≤ slot →
    slot < 64 * state.pool.words → state.pool.bits.bit slot = true
  alloc_ok_iff : (∃ addr, (ippoolAlloc state.pool).2 = .ok addr) ↔ state.held.card < state.pool.size
  alloc_not_held : ∀ addr, (ippoolAlloc state.pool).2 = .ok addr → addr ∉ state.held
  error_unchanged : ∀ (call : IppoolCall) (error : IppoolErr),
    (call.exec state.pool).2 = .error error → (call.exec state.pool).1 = state.pool

/-- The part of a pool that no call changes, and what it must satisfy. -/
structure PoolShape (pool : Ippool) : Prop where
  nonempty : 0 < pool.size
  clamped : pool.size ≤ ippoolMaxSize
  words : pool.words = (pool.size + 63) / 64
  inside : beNat pool.base + pool.size ≤ 256 ^ pool.len

variable {pool : Ippool} {slot : Nat} {state : LeasedPool}

theorem PoolShape.indexOf_eq_some (shape : PoolShape pool) :
    ippoolIndexOf pool addr = some slot ↔ slot < pool.size ∧ addr = slotAddr pool slot := by
  have inside := shape.inside
  have clamped := shape.clamped
  constructor
  · intro found
    by_cases sized : addr.len = pool.len
    · rw [ippoolIndexOf, if_neg (not_not.mpr sized), addrDelta_eq sized] at found
      split at found
      · cases found
      · rename_i delta computed
        split at computed
        · obtain rfl := Option.some.inj computed
          split at found
          · cases found
          · rename_i ordered below
            obtain rfl := Option.some.inj found
            refine ⟨by omega, ?_⟩
            have value : addr.value = (slotAddr pool (beNat addr.b - beNat pool.base)).value := by
              rw [value_slotAddr (by omega), IppoolAddr.value]
              omega
            cases addr with
            | mk b =>
              apply congrArg IppoolAddr.mk
              refine beNat_injective ?_ value
              exact sized.trans (len_slotAddr pool _).symm
        · cases computed
    · rw [ippoolIndexOf, if_pos sized] at found
      cases found
  · rintro ⟨below, rfl⟩
    have value : beNat (slotAddr pool slot).b = beNat pool.base + slot := value_slotAddr (by omega)
    have difference : beNat (slotAddr pool slot).b - beNat pool.base = slot := by
      omega
    have narrow : beNat pool.base ≤ beNat (slotAddr pool slot).b ∧
        beNat (slotAddr pool slot).b - beNat pool.base < 2 ^ 64 := by
      have largest : ippoolMaxSize < 2 ^ 64 := by decide
      omega
    rw [ippoolIndexOf, if_neg (not_not.mpr (len_slotAddr pool slot)),
      addrDelta_eq (len_slotAddr pool slot), if_pos narrow, difference]
    exact if_neg (Nat.not_le_of_lt below)

theorem PoolShape.slotAddr_injective (shape : PoolShape pool) (firstReal : first < pool.size)
    (secondReal : second < pool.size)
    (same : slotAddr pool first = slotAddr pool second) : first = second := by
  have found := shape.indexOf_eq_some.mpr ⟨secondReal, same⟩
  rw [shape.indexOf_eq_some.mpr ⟨firstReal, rfl⟩] at found
  exact Option.some.inj found

theorem PoolShape.slot_in_words (shape : PoolShape pool) (real : slot < pool.size) :
    slot < 64 * pool.bits.length := by
  have words : pool.bits.length = (pool.size + 63) / 64 := shape.words
  omega

@[simp] theorem length_markTail (size : Nat) (bits : Bitmap) :
    (markTail size bits).length = bits.length := by
  unfold markTail
  dsimp only
  split
  · exact List.length_set
  · rfl

theorem bit_replicate_zero (words slot : Nat) :
    Bitmap.bit (List.replicate words 0) slot = false := by
  simp only [Bitmap.bit, List.getD_eq_getElem?_getD, List.getElem?_replicate]
  split <;> simp

theorem bit_markTail {size words : Nat}
    (sized : words = (size + 63) / 64) (inside : slot < 64 * words) :
    (markTail size (List.replicate words 0)).bit slot = decide (size ≤ slot) := by
  unfold markTail
  dsimp only
  split
  · rename_i partialWord
    rw [List.length_replicate, Bitmap.bit, Bitmap.getD_set]
    · by_cases last : words - 1 = slot / 64
      · have position : slot % 64 < 64 := by omega
        have above : size ≤ slot ↔ ¬ slot % 64 < size % 64 := by omega
        rw [if_pos last, BitVec.getLsbD_shiftLeft, BitVec.getLsbD_allOnes]
        have shifted : slot % 64 - size % 64 < 64 := by omega
        simp only [position, shifted, above, decide_true, Bool.true_and, Bool.and_true, decide_not]
      · have before : ¬ size ≤ slot := by omega
        rw [if_neg last]
        have clear := bit_replicate_zero words slot
        rw [Bitmap.bit] at clear
        rw [clear, decide_eq_false before]
    · rw [List.length_replicate]
      omega
  · rename_i aligned
    have before : ¬ size ≤ slot := by omega
    rw [bit_replicate_zero]
    simp [before]

theorem marked_markTail {size words : Nat} (sized : words = (size + 63) / 64) :
    (markTail size (List.replicate words 0)).marked size = ∅ := by
  apply Finset.eq_empty_of_forall_notMem
  intro slot member
  obtain ⟨below, set⟩ := Bitmap.mem_marked.mp member
  rw [bit_markTail sized (by omega)] at set
  simp only [decide_eq_true_eq] at set
  omega

theorem allocSweep_clear {bits : Bitmap} {probes w : Nat} (inside : w < bits.length)
    (found : allocSweep bits probes w mask = some slot) :
    slot < 64 * bits.length ∧ bits.bit slot = false := by
  induction probes generalizing w mask with
  | zero => cases found
  | succ probes ih =>
    unfold allocSweep at found
    dsimp only at found
    split at found
    · rename_i nonzero
      obtain ⟨narrow, clear⟩ := Bitmap.exists_clear_of_ne_zero nonzero
      obtain rfl := Option.some.inj found
      revert narrow clear
      generalize (~~~bits.getD w 0 &&& mask).ctz.toNat = position
      intro narrow clear
      refine ⟨by omega, ?_⟩
      have word : (w * 64 + position) / 64 = w := by omega
      have offset : (w * 64 + position) % 64 = position := by omega
      rw [Bitmap.bit, word, offset]
      exact clear
    · refine ih ?_ found
      split <;> omega

theorem nextWord_eq_mod {w words : Nat} (inside : w < words) :
    (if w + 1 = words then 0 else w + 1) = (w + 1) % words := by
  split
  · rename_i wrap
    rw [wrap, Nat.mod_self]
  · exact (Nat.mod_eq_of_lt (by omega)).symm

theorem allocSweep_none_full {bits : Bitmap} {probes w : Nat} (inside : w < bits.length)
    (failed : allocSweep bits probes w (BitVec.allOnes 64) = none)
    (step position : Nat) (probed : step < probes) (narrow : position < 64) :
    (bits.getD ((w + step) % bits.length) 0).getLsbD position = true := by
  induction probes generalizing w step with
  | zero => omega
  | succ probes ih =>
    unfold allocSweep at failed
    dsimp only at failed
    split at failed
    · cases failed
    · rename_i zero
      have full := Bitmap.full_of_eq_zero (not_not.mp zero) narrow
      rw [nextWord_eq_mod inside] at failed
      cases step with
      | zero =>
        rw [Nat.add_zero, Nat.mod_eq_of_lt inside]
        exact full
      | succ step =>
        have rest := ih (Nat.mod_lt _ (by omega)) failed step (by omega)
        rw [Nat.mod_add_mod] at rest
        have order : w + (step + 1) = w + 1 + step := by omega
        rw [order]
        exact rest

theorem allocSweep_none {bits : Bitmap} (inside : w < bits.length)
    (failed : allocSweep bits (bits.length + 1) w mask = none)
    (within : slot < 64 * bits.length) : bits.bit slot = true := by
  unfold allocSweep at failed
  dsimp only at failed
  split at failed
  · cases failed
  · revert failed
    have next : (if w + 1 = bits.length then 0 else w + 1) < bits.length := by
      split <;> omega
    revert next
    generalize (if w + 1 = bits.length then 0 else w + 1) = start
    intro next failed
    have index : slot / 64 < bits.length := by omega
    have full := allocSweep_none_full next failed
      ((slot / 64 + bits.length - start) % bits.length) (slot % 64)
      (Nat.mod_lt _ (by omega)) (by omega)
    have order : start + (slot / 64 + bits.length - start) = slot / 64 + bits.length := by omega
    rw [Nat.add_mod_mod, order, Nat.add_mod_right, Nat.mod_eq_of_lt index] at full
    exact full

structure LeaseInvariant (state : LeasedPool) : Prop where
  shape : PoolShape state.pool
  cursor : state.pool.cursor < state.pool.size
  used : state.pool.used = (state.pool.bits.marked state.pool.size).card
  past_end : ∀ slot, state.pool.size ≤ slot →
    slot < 64 * state.pool.words → state.pool.bits.bit slot = true
  held : state.held = (state.pool.bits.marked state.pool.size).image (slotAddr state.pool)

theorem LeaseInvariant.held_card
    (holds : LeaseInvariant state) : state.held.card = state.pool.used := by
  rw [holds.held, holds.used]
  apply Finset.card_image_of_injOn
  intro first firstMarked second secondMarked same
  exact holds.shape.slotAddr_injective (Bitmap.mem_marked.mp firstMarked).1
    (Bitmap.mem_marked.mp secondMarked).1 same

theorem marked_card_le (bits : Bitmap) (size : Nat) : (bits.marked size).card ≤ size := by
  calc
    (bits.marked size).card ≤ (Finset.range size).card := Finset.card_filter_le _ _
    _ = size := Finset.card_range size

theorem LeaseInvariant.exists_free
    (holds : LeaseInvariant state) (room : state.pool.used ≠ state.pool.size) :
    ∃ slot < state.pool.size, state.pool.bits.bit slot = false := by
  by_contra full
  apply room
  have all : state.pool.bits.marked state.pool.size = Finset.range state.pool.size := by
    apply Finset.filter_true_of_mem
    intro slot real
    by_contra clear
    exact full ⟨slot, Finset.mem_range.mp real, by simpa using clear⟩
  rw [holds.used, all, Finset.card_range]

theorem LeaseInvariant.alloc_of_full (full : state.pool.used = state.pool.size) :
    ippoolAlloc state.pool = (state.pool, .error .full) :=
  if_pos full

theorem LeaseInvariant.alloc_swept
    (holds : LeaseInvariant state) (room : state.pool.used ≠ state.pool.size) :
    ∃ slot < state.pool.size, state.pool.bits.bit slot = false ∧
      allocSweep state.pool.bits (state.pool.words + 1) (state.pool.cursor / 64)
        (BitVec.allOnes 64 <<< (state.pool.cursor % 64)) = some slot ∧
      ippoolAlloc state.pool =
        ({ state.pool with
            bits := state.pool.bits.mark slot
            used := state.pool.used + 1
            cursor := if slot + 1 < state.pool.size then slot + 1 else 0 },
          .ok (slotAddr state.pool slot)) := by
  have words : state.pool.bits.length = (state.pool.size + 63) / 64 := holds.shape.words
  have cursor := holds.cursor
  have start : state.pool.cursor / 64 < state.pool.bits.length := by omega
  rw [ippoolAlloc, if_neg room]
  cases swept : allocSweep state.pool.bits (state.pool.words + 1) (state.pool.cursor / 64)
      (BitVec.allOnes 64 <<< (state.pool.cursor % 64)) with
  | none =>
    obtain ⟨slot, real, clear⟩ := holds.exists_free room
    rw [allocSweep_none start swept (holds.shape.slot_in_words real)] at clear
    cases clear
  | some slot =>
    obtain ⟨within, clear⟩ := allocSweep_clear start swept
    have real : slot < state.pool.size := by
      by_contra past
      rw [holds.past_end slot (Nat.le_of_not_lt past) within] at clear
      cases clear
    exact ⟨slot, real, clear, rfl, rfl⟩

theorem LeaseInvariant.alloc_of_room
    (holds : LeaseInvariant state) (room : state.pool.used ≠ state.pool.size) :
    ∃ slot < state.pool.size, state.pool.bits.bit slot = false ∧ ippoolAlloc state.pool =
        ({ state.pool with
            bits := state.pool.bits.mark slot
            used := state.pool.used + 1
            cursor := if slot + 1 < state.pool.size then slot + 1 else 0 },
          .ok (slotAddr state.pool slot)) := by
  obtain ⟨slot, real, clear, _, allocated⟩ := holds.alloc_swept room
  exact ⟨slot, real, clear, allocated⟩

theorem LeaseInvariant.reserve_cases (holds : LeaseInvariant state) (addr : IppoolAddr) :
    (∃ error, ippoolReserve state.pool addr = (state.pool, .error error)) ∨
      ∃ slot < state.pool.size, state.pool.bits.bit slot = false ∧ addr = slotAddr state.pool slot ∧
        ippoolReserve state.pool addr =
          ({ state.pool with
              bits := state.pool.bits.mark slot
              used := state.pool.used + 1 }, .ok ()) := by
  unfold ippoolReserve
  cases found : ippoolIndexOf state.pool addr with
  | none => exact Or.inl ⟨_, rfl⟩
  | some slot =>
    obtain ⟨real, same⟩ := holds.shape.indexOf_eq_some.mp found
    cases set : state.pool.bits.bit slot with
    | true => exact Or.inl ⟨.inuse, by simp [set]⟩
    | false => exact Or.inr ⟨slot, real, set, same, by simp [set]⟩

theorem LeaseInvariant.free_cases (holds : LeaseInvariant state) (addr : IppoolAddr) :
    (∃ error, ippoolFree state.pool addr = (state.pool, .error error)) ∨
      ∃ slot < state.pool.size, state.pool.bits.bit slot = true ∧ addr = slotAddr state.pool slot ∧
        ippoolFree state.pool addr =
          ({ state.pool with
              bits := state.pool.bits.unmark slot
              used := state.pool.used - 1 }, .ok ()) := by
  unfold ippoolFree
  cases found : ippoolIndexOf state.pool addr with
  | none => exact Or.inl ⟨_, rfl⟩
  | some slot =>
    obtain ⟨real, same⟩ := holds.shape.indexOf_eq_some.mp found
    cases set : state.pool.bits.bit slot with
    | true => exact Or.inr ⟨slot, real, set, same, by simp [set]⟩
    | false => exact Or.inl ⟨.free, by simp [set]⟩

theorem LeaseInvariant.mark (holds : LeaseInvariant state) {cursor : Nat}
    (real : slot < state.pool.size)
    (clear : state.pool.bits.bit slot = false)
    (within : cursor < state.pool.size) :
    LeaseInvariant
      { pool := { state.pool with
          bits := state.pool.bits.mark slot
          used := state.pool.used + 1
          cursor := cursor }
        held := insert (slotAddr state.pool slot) state.held } := by
  have inside := holds.shape.slot_in_words real
  have marked := Bitmap.marked_mark real inside
  have fresh : slot ∉ state.pool.bits.marked state.pool.size := by
    intro member
    rw [(Bitmap.mem_marked.mp member).2] at clear
    cases clear
  constructor
  · exact ⟨holds.shape.nonempty, holds.shape.clamped,
      (Bitmap.length_mark _ _).trans holds.shape.words, holds.shape.inside⟩
  · exact within
  · dsimp only
    rw [marked, Finset.card_insert_of_notMem fresh, holds.used]
  · intro past above below
    dsimp only at above below ⊢
    rw [Bitmap.bit_mark inside, holds.past_end past above
      (by simpa [Ippool.words] using below), Bool.or_true]
  · dsimp only
    rw [marked, Finset.image_insert, holds.held]
    rfl

theorem LeaseInvariant.unmark (holds : LeaseInvariant state) (real : slot < state.pool.size)
    (set : state.pool.bits.bit slot = true) :
    LeaseInvariant
      { pool := { state.pool with
          bits := state.pool.bits.unmark slot
          used := state.pool.used - 1 }
        held := state.held.erase (slotAddr state.pool slot) } := by
  have inside := holds.shape.slot_in_words real
  have marked := Bitmap.marked_unmark state.pool.size inside
  have member : slot ∈ state.pool.bits.marked state.pool.size := Bitmap.mem_marked.mpr ⟨real, set⟩
  constructor
  · exact ⟨holds.shape.nonempty, holds.shape.clamped,
      (Bitmap.length_unmark _ _).trans holds.shape.words, holds.shape.inside⟩
  · exact holds.cursor
  · dsimp only
    rw [marked, Finset.card_erase_of_mem member, holds.used]
  · intro past above below
    dsimp only at above below ⊢
    have apart : slot ≠ past := by omega
    rw [Bitmap.bit_unmark inside, holds.past_end past above (by simpa [Ippool.words] using below)]
    simp [apart]
  · dsimp only
    rw [marked, holds.held]
    ext addr
    simp only [Finset.mem_erase, Finset.mem_image]
    constructor
    · rintro ⟨other, kept, keptMarked, rfl⟩
      refine ⟨kept, ⟨?_, keptMarked⟩, rfl⟩
      rintro rfl
      exact other rfl
    · rintro ⟨kept, ⟨apart, keptMarked⟩, rfl⟩
      refine ⟨?_, kept, keptMarked, rfl⟩
      intro same
      exact apart (holds.shape.slotAddr_injective (Bitmap.mem_marked.mp keptMarked).1 real same)

theorem leaseInvariant_fresh {size : Nat} (nonempty : 0 < size) (clamped : size ≤ ippoolMaxSize)
    (inside : beNat base + size ≤ 256 ^ base.length) :
    LeaseInvariant { pool := freshPool base size, held := ∅ } := by
  have marked : (markTail size (List.replicate ((size + 63) / 64) 0)).marked
      size = ∅ := marked_markTail rfl
  constructor
  · refine ⟨nonempty, clamped, ?_, inside⟩
    simp [Ippool.words, freshPool]
  · exact nonempty
  · dsimp only [freshPool]
    rw [marked, Finset.card_empty]
  · intro past above below
    dsimp only [freshPool] at above below ⊢
    rw [Ippool.words, length_markTail, List.length_replicate] at below
    rw [bit_markTail rfl below, decide_eq_true above]
  · dsimp only [freshPool]
    rw [marked, Finset.image_empty]

theorem PoolShape.reset_eq (shape : PoolShape pool) :
    ippoolReset pool = freshPool pool.base pool.size := by
  rw [ippoolReset, shape.words, freshPool]

theorem LeaseInvariant.step (call : IppoolCall)
    (holds : LeaseInvariant state) : LeaseInvariant (leaseStep state call) := by
  cases call with
  | alloc =>
    by_cases full : state.pool.used = state.pool.size
    · have refused := LeaseInvariant.alloc_of_full full
      simpa [leaseStep, IppoolCall.exec, refused, heldAfter, Except.map] using holds
    · obtain ⟨slot, real, clear, allocated⟩ := holds.alloc_of_room full
      have next : (if slot + 1 < state.pool.size then slot + 1 else 0) < state.pool.size := by
        split <;> omega
      simpa [leaseStep, IppoolCall.exec, allocated, heldAfter, Except.map]
        using holds.mark real clear next
  | reserve addr =>
    rcases holds.reserve_cases addr with
      ⟨error, refused⟩ | ⟨slot, real, clear, rfl, reserved⟩
    · simpa [leaseStep, IppoolCall.exec, refused, heldAfter, Except.map] using holds
    · simpa [leaseStep, IppoolCall.exec, reserved, heldAfter, Except.map]
        using holds.mark real clear holds.cursor
  | free addr =>
    rcases holds.free_cases addr with
      ⟨error, refused⟩ | ⟨slot, real, set, rfl, freed⟩
    · simpa [leaseStep, IppoolCall.exec, refused, heldAfter, Except.map] using holds
    · simpa [leaseStep, IppoolCall.exec, freed, heldAfter, Except.map] using holds.unmark real set
  | reset =>
    have fresh := leaseInvariant_fresh holds.shape.nonempty holds.shape.clamped holds.shape.inside
    simpa [leaseStep, IppoolCall.exec, heldAfter, holds.shape.reset_eq] using fresh

theorem LeaseInvariant.error_unchanged
    (holds : LeaseInvariant state) (call : IppoolCall) (error : IppoolErr)
    (failed : (call.exec state.pool).2 = .error error) :
    (call.exec state.pool).1 = state.pool := by
  cases call with
  | alloc =>
    by_cases full : state.pool.used = state.pool.size
    · simp [IppoolCall.exec, LeaseInvariant.alloc_of_full full]
    · obtain ⟨slot, real, clear, allocated⟩ := holds.alloc_of_room full
      simp [IppoolCall.exec, allocated, Except.map] at failed
  | reserve addr =>
    rcases holds.reserve_cases addr with
      ⟨error, refused⟩ | ⟨slot, real, clear, rfl, reserved⟩
    · simp [IppoolCall.exec, refused]
    · simp [IppoolCall.exec, reserved, Except.map] at failed
  | free addr =>
    rcases holds.free_cases addr with
      ⟨error, refused⟩ | ⟨slot, real, set, rfl, freed⟩
    · simp [IppoolCall.exec, refused]
    · simp [IppoolCall.exec, freed, Except.map] at failed
  | reset => cases failed

theorem LeaseInvariant.leasesKept (holds : LeaseInvariant state) : LeasesKept state := by
  have most : state.pool.used ≤ state.pool.size := by
    rw [holds.used]
    exact marked_card_le _ _
  constructor
  · exact holds.used
  · exact holds.past_end
  · rw [holds.held_card]
    constructor
    · rintro ⟨addr, allocated⟩
      by_contra full
      rw [LeaseInvariant.alloc_of_full (by omega)] at allocated
      cases allocated
    · intro room
      obtain ⟨slot, real, clear, allocated⟩ := holds.alloc_of_room (Nat.ne_of_lt room)
      exact ⟨slotAddr state.pool slot, by rw [allocated]⟩
  · intro addr allocated
    by_cases full : state.pool.used = state.pool.size
    · rw [LeaseInvariant.alloc_of_full full] at allocated
      cases allocated
    · obtain ⟨slot, real, clear, result⟩ := holds.alloc_of_room full
      rw [result] at allocated
      obtain rfl := Except.ok.inj allocated
      rw [holds.held, Finset.mem_image]
      rintro ⟨other, otherMarked, same⟩
      obtain ⟨otherReal, set⟩ := Bitmap.mem_marked.mp otherMarked
      obtain rfl := holds.shape.slotAddr_injective otherReal real same
      rw [set] at clear
      cases clear
  · exact holds.error_unchanged

theorem leaseInvariant_create (built : ippoolCreate addr prefixLen = .ok pool) :
    LeaseInvariant { pool := pool, held := ∅ } := by
  obtain ⟨base, count, _, covers⟩ := ippoolCreate_covers built
  have nonempty := covers.nonempty
  have inside := covers.inside
  have largest : 0 < ippoolMaxSize := by decide
  rw [covers.fresh]
  exact leaseInvariant_fresh (by omega) (Nat.min_le_right _ _) (by omega)

theorem leaseInvariant_createRange {first last : IppoolAddr}
    (built : ippoolCreateRange first last = .ok pool) :
    LeaseInvariant { pool := pool, held := ∅ } := by
  have family : SameFamily first last := by
    by_contra apart
    have refused : first.len ≠ last.len ∨ (first.len ≠ ippoolV4 ∧ first.len ≠ ippoolV6) := by
      by_contra accepted
      rw [not_or, not_not, not_and_or, not_not, not_not] at accepted
      exact apart ⟨accepted.1, accepted.2⟩
    rw [ippoolCreateRange, if_pos refused] at built
    cases built
  by_cases narrow : first.value ≤ last.value ∧ last.value - first.value < 2 ^ 64
  · rw [createRange_of_narrow family narrow.1 narrow.2] at built
    obtain rfl := Except.ok.inj built
    have bounded := last.value_lt
    have largest : 0 < ippoolMaxSize := by decide
    apply leaseInvariant_fresh
    · omega
    · exact Nat.min_le_right _ _
    · rw [← family.len] at bounded
      have inside : first.value + min (last.value - first.value + 1) ippoolMaxSize ≤
            256 ^ first.len := by
        omega
      exact inside
  · rw [createRange_of_not_narrow family narrow] at built
    cases built

theorem IppoolBuilt.leaseInvariant (built : IppoolBuilt pool) :
    LeaseInvariant { pool := pool, held := ∅ } := by
  cases built with
  | create built => exact leaseInvariant_create built
  | createRange built => exact leaseInvariant_createRange built

/-- Over every history of a pool, from the call that built it on: the counter
and the bits agree, an allocation succeeds exactly when an address is left and
never returns one that is held, and a call that fails changes nothing. -/
theorem leases_kept {pool : Ippool} (built : IppoolBuilt pool) (calls : List IppoolCall) :
    EveryState leaseStep LeasesKept { pool := pool, held := ∅ } calls :=
  EveryState.of_invariant (fun _ call holds => LeaseInvariant.step call holds)
    (fun _ holds => holds.leasesKept) built.leaseInvariant calls

theorem leases_kept_of_scope :
    ∃ pool, ippoolCreate (ippoolAddr4 0x0A2D0709) 29 = .ok pool ∧ pool.size = 6 ∧
      EveryState leaseStep LeasesKept { pool := pool, held := ∅ }
        [.alloc, .alloc, .free (ippoolAddr4 0x0A2D0709), .alloc, .reset] := by
  refine ⟨freshPool (beBytes 4 0x0A2D0709) 6, by decide, rfl, ?_⟩
  have built : ippoolCreate (ippoolAddr4 0x0A2D0709) 29 =
      .ok (freshPool (beBytes 4 0x0A2D0709) 6) := by
    decide
  exact leases_kept (IppoolBuilt.create built) _

structure AddrsInverse (pool : Ippool) : Prop where
  indexOf_addrAt : ∀ slot < pool.size, ∃ addr, ippoolAddrAt pool slot = .ok addr ∧
    ippoolIndexOf pool addr = some slot
  addrAt_indexOf : ∀ addr slot, ippoolIndexOf pool addr = some slot →
    ippoolAddrAt pool slot = .ok addr

structure FirstUsable (pool : Ippool) (addr : IppoolAddr) (prefixLen : Nat) : Prop where
  size : pool.size = min (Nat.count (Usable addr prefixLen) (256 ^ addr.len)) (2 ^ 24)
  addrAt : ∀ slot < pool.size, ∃ at', ippoolAddrAt pool slot = .ok at' ∧
    at'.len = addr.len ∧ at'.value = Nat.nth (Usable addr prefixLen) slot

theorem addrAt_of_lt (real : slot < pool.size) :
    ippoolAddrAt pool slot = .ok (slotAddr pool slot) :=
  if_neg (Nat.not_le_of_lt real)

theorem PoolShape.addrsInverse (shape : PoolShape pool) : AddrsInverse pool where
  indexOf_addrAt slot real :=
    ⟨slotAddr pool slot, addrAt_of_lt real, shape.indexOf_eq_some.mpr ⟨real, rfl⟩⟩
  addrAt_indexOf addr slot found := by
    obtain ⟨real, rfl⟩ := shape.indexOf_eq_some.mp found
    exact addrAt_of_lt real

theorem pool_addrs {pool : Ippool} (built : IppoolBuilt pool) :
    AddrsInverse pool ∧ ∀ addr prefixLen, ippoolCreate addr prefixLen = .ok pool →
      FirstUsable pool addr prefixLen := by
  have shape : PoolShape pool := built.leaseInvariant.shape
  refine ⟨shape.addrsInverse, fun addr prefixLen created => ?_⟩
  obtain ⟨base, count, family, covers⟩ := ippoolCreate_covers created
  obtain ⟨size, nth⟩ := covers.size_eq
  rw [family] at size
  refine ⟨size, fun slot real => ⟨_, addrAt_of_lt real, ?_, ?_⟩⟩
  · rw [len_slotAddr, covers.fresh]
    exact family
  · have inside := shape.inside
    have within : beNat pool.base + slot < 256 ^ pool.len := by omega
    rw [value_slotAddr within]
    have bounded : slot < min count ippoolMaxSize := by
      rw [covers.fresh] at real
      exact real
    rw [nth slot (by omega), covers.fresh]
    rfl

theorem pool_addrs_of_scope :
    ∃ pool, ippoolCreate (ippoolAddr4 0x0A2D0709) 29 = .ok pool ∧ AddrsInverse pool ∧
      FirstUsable pool (ippoolAddr4 0x0A2D0709) 29 := by
  have created : ippoolCreate (ippoolAddr4 0x0A2D0709) 29 =
      .ok (freshPool (beBytes 4 0x0A2D0709) 6) := by
    decide
  have addrs := pool_addrs (.create created)
  exact ⟨_, created, addrs.1, addrs.2 _ _ created⟩

end Pro2Call.Task

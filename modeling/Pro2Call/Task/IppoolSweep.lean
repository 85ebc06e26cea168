import Pro2Call.Task.IppoolLeases

namespace Pro2Call.Task

open Pro2Call.Data

/-! The order in which an allocation looks at the slots: from the cursor to the
end, then from the first slot to the cursor. -/

def sweepRank (size cursor slot : Nat) : Nat :=
  if cursor ≤ slot then slot - cursor else size - cursor + slot

theorem sweepRank_injective {size cursor first second : Nat}
    (firstReal : first < size) (secondReal : second < size)
    (same : sweepRank size cursor first = sweepRank size cursor second) :
    first = second := by
  unfold sweepRank at same
  split at same <;> split at same <;> omega

theorem sweepRank_next {size cursor taken slot : Nat} (within : cursor < size)
    (takenReal : taken < size) (slotReal : slot < size)
    (before : sweepRank size cursor taken < sweepRank size cursor slot) :
    sweepRank size (if taken + 1 < size then taken + 1 else 0) slot +
      (sweepRank size cursor taken + 1) = sweepRank size cursor slot := by
  unfold sweepRank at *
  split_ifs at * <;> omega

theorem sweepRank_after {size cursor taken first second : Nat}
    (within : cursor < size) (takenReal : taken < size)
    (firstReal : first < size) (secondReal : second < size)
    (before : sweepRank size cursor taken < sweepRank size cursor first)
    (order : sweepRank size cursor first < sweepRank size cursor second) :
    sweepRank size (if taken + 1 < size then taken + 1 else 0) first <
      sweepRank size (if taken + 1 < size then taken + 1 else 0) second := by
  have nearer := sweepRank_next within takenReal firstReal before
  have farther := sweepRank_next within takenReal secondReal (before.trans order)
  omega

theorem allocSweep_first {bits : Bitmap} {probes w slot : Nat} (inside : w < bits.length)
    (found : allocSweep bits probes w (BitVec.allOnes 64) = some slot) :
    ∃ step < probes, slot / 64 = (w + step) % bits.length ∧ (∀ step' < step, ∀ position < 64,
        (bits.getD ((w + step') % bits.length) 0).getLsbD position = true) ∧
      ∀ position < slot % 64, (bits.getD (slot / 64) 0).getLsbD position = true := by
  induction probes generalizing w with
  | zero => cases found
  | succ probes ih =>
    unfold allocSweep at found
    dsimp only at found
    split at found
    · rename_i nonzero
      obtain ⟨narrow, _⟩ := Bitmap.exists_clear_of_ne_zero nonzero
      obtain rfl := Option.some.inj found
      have word : (w * 64 + (~~~bits.getD w 0 &&& BitVec.allOnes 64).ctz.toNat) / 64 = w := by omega
      have offset : (w * 64 + (~~~bits.getD w 0 &&& BitVec.allOnes 64).ctz.toNat) %
          64 = (~~~bits.getD w 0 &&& BitVec.allOnes 64).ctz.toNat := by omega
      refine ⟨0, by omega, ?_, ?_, ?_⟩
      · rw [word, Nat.add_zero, Nat.mod_eq_of_lt inside]
      · intro step' impossible
        omega
      · intro position below
        rw [offset] at below
        rw [word]
        apply Bitmap.full_of_lt_ctz below
        rw [BitVec.getLsbD_allOnes, decide_eq_true (by omega)]
    · rename_i zero
      rw [nextWord_eq_mod inside] at found
      obtain ⟨step, probed, word, passed, lower⟩ := ih (Nat.mod_lt _ (by omega)) found
      refine ⟨step + 1, by omega, ?_, ?_, lower⟩
      · rw [word, Nat.mod_add_mod]
        congr 1
        omega
      · intro step' before position narrow
        cases step' with
        | zero =>
          rw [Nat.add_zero, Nat.mod_eq_of_lt inside]
          exact Bitmap.full_of_eq_zero (not_not.mp zero) narrow
        | succ step' =>
          have full := passed step' (by omega) position narrow
          rw [Nat.mod_add_mod] at full
          have order : w + (step' + 1) = w + 1 + step' := by omega
          rw [order]
          exact full

theorem mask_getLsbD (narrow : position < 64) :
    (BitVec.allOnes 64 <<< (cursor % 64)).getLsbD position = decide (cursor % 64 ≤ position) := by
  rw [BitVec.getLsbD_shiftLeft, BitVec.getLsbD_allOnes]
  have shifted : position - cursor % 64 < 64 := by omega
  simp only [narrow, shifted, decide_true, Bool.true_and, Bool.and_true]
  rw [← decide_not]
  congr 1
  simp

theorem mod_cases {value modulus : Nat} (small : value < 2 * modulus) :
    (value < modulus ∧ value % modulus = value) ∨
      (modulus ≤ value ∧ value % modulus = value - modulus) := by
  by_cases below : value < modulus
  · exact .inl ⟨below, Nat.mod_eq_of_lt below⟩
  · refine .inr ⟨by omega, ?_⟩
    rw [Nat.mod_eq_sub_mod (by omega), Nat.mod_eq_of_lt (by omega)]

/-- `first` comes no later than `second` in a sweep from `cursor`. -/
def SweptBefore (cursor first second : Nat) : Prop :=
  (cursor ≤ first ∧ second < cursor) ∨ ((cursor ≤ first ↔ cursor ≤ second) ∧ first ≤ second)

theorem sweptBefore_of_first_word {bits : Bitmap}
    (nonzero : ~~~bits.getD (cursor / 64) 0 &&& BitVec.allOnes 64 <<< (cursor % 64) ≠ 0)
    (clear : bits.bit other = false) :
    SweptBefore cursor (cursor / 64 * 64 + (~~~bits.getD (cursor / 64) 0 &&&
      BitVec.allOnes 64 <<< (cursor % 64)).ctz.toNat) other := by
  obtain ⟨narrow, _⟩ := Bitmap.exists_clear_of_ne_zero nonzero
  have selected := BitVec.getLsbD_true_ctz_of_ne_zero nonzero
  rw [BitVec.getLsbD_and, Bool.and_eq_true, mask_getLsbD narrow, decide_eq_true_eq] at selected
  have full : ∀ position, position < (~~~bits.getD (cursor / 64) 0 &&&
        BitVec.allOnes 64 <<< (cursor % 64)).ctz.toNat →
      cursor % 64 ≤ position →
      (bits.getD (cursor / 64) 0).getLsbD position = true := by
    intro position below above
    apply Bitmap.full_of_lt_ctz below
    rw [mask_getLsbD (by omega), decide_eq_true above]
  revert narrow selected full
  generalize (~~~bits.getD (cursor / 64) 0 &&&
    BitVec.allOnes 64 <<< (cursor % 64)).ctz.toNat = position
  intro narrow selected full
  by_cases wrapped : other < cursor
  · exact .inl ⟨by omega, wrapped⟩
  · refine .inr ⟨by omega, ?_⟩
    by_contra earlier
    have word : other / 64 = cursor / 64 := by omega
    rw [Bitmap.bit, word, full (other % 64) (by omega) (by omega)] at clear
    cases clear

theorem allocSweep_least {bits : Bitmap} {cursor slot other : Nat}
    (start : cursor / 64 < bits.length)
    (found : allocSweep bits (bits.length + 1) (cursor / 64)
      (BitVec.allOnes 64 <<< (cursor % 64)) = some slot)
    (within : other < 64 * bits.length) (clear : bits.bit other = false) :
    SweptBefore cursor slot other := by
  obtain ⟨slotWithin, slotClear⟩ := allocSweep_clear start found
  unfold allocSweep at found
  dsimp only at found
  split at found
  · rename_i nonzero
    obtain rfl := Option.some.inj found
    exact sweptBefore_of_first_word nonzero clear
  · rename_i zero
    -- the word of the cursor is full from the cursor on
    have beforeCursor : ∀ x, x / 64 = cursor / 64 → bits.bit x = false → x % 64 < cursor % 64 := by
      intro x word xClear
      by_contra after
      have full : (bits.getD (cursor / 64) 0).getLsbD (x % 64) = true :=
        Bitmap.full_of_and_eq_zero (not_not.mp zero)
          (by rw [mask_getLsbD (by omega), decide_eq_true (by omega)])
      rw [Bitmap.bit, word, full] at xClear
      cases xClear
    rw [nextWord_eq_mod start] at found
    obtain ⟨step, probed, word, passed, lower⟩ := allocSweep_first (Nat.mod_lt _ (by omega)) found
    obtain ⟨reach, reachIs⟩ : ∃ reach, reach < bits.length ∧
        other / 64 = ((cursor / 64 + 1) % bits.length + reach) % bits.length := by
      refine ⟨(other / 64 + bits.length - (cursor / 64 + 1) % bits.length) %
        bits.length, Nat.mod_lt _ (by omega), ?_⟩
      have small := Nat.mod_lt (cursor / 64 + 1) (y := bits.length) (by omega)
      rw [Nat.add_mod_mod, Nat.add_sub_of_le (by omega), Nat.add_mod_right,
        Nat.mod_eq_of_lt (by omega)]
    have notPassed : ¬ reach < step := by
      intro before
      have full := passed reach before (other % 64) (by omega)
      rw [← reachIs.2, ← Bitmap.bit, clear] at full
      cases full
    have notLower : other / 64 = slot / 64 → slot % 64 ≤ other % 64 := by
      intro same
      by_contra below
      have full := lower (other % 64) (by omega)
      rw [← same, ← Bitmap.bit, clear] at full
      cases full
    have slotBefore := fun same => beforeCursor slot same slotClear
    have otherBefore := fun same => beforeCursor other same clear
    have first := mod_cases (show cursor / 64 + 1 < 2 * bits.length by omega)
    have small := Nat.mod_lt (cursor / 64 + 1) (y := bits.length) (by omega)
    have slotWord := mod_cases
      (show (cursor / 64 + 1) % bits.length + step < 2 * bits.length by omega)
    have otherWord := mod_cases
      (show (cursor / 64 + 1) % bits.length + reach < 2 * bits.length by omega)
    rw [← word] at slotWord
    rw [← reachIs.2] at otherWord
    unfold SweptBefore
    omega

theorem LeaseInvariant.alloc_first {state : LeasedPool}
    (holds : LeaseInvariant state) (room : state.pool.used ≠ state.pool.size) :
    ∃ slot < state.pool.size, state.pool.bits.bit slot = false ∧
      (∀ other < state.pool.size, state.pool.bits.bit other = false →
        sweepRank state.pool.size state.pool.cursor slot ≤
          sweepRank state.pool.size state.pool.cursor other) ∧
      ippoolAlloc state.pool =
        ({ state.pool with
            bits := state.pool.bits.mark slot
            used := state.pool.used + 1
            cursor := if slot + 1 < state.pool.size then slot + 1 else 0 },
          .ok (slotAddr state.pool slot)) := by
  have words : state.pool.bits.length = (state.pool.size + 63) / 64 := holds.shape.words
  have cursor := holds.cursor
  have start : state.pool.cursor / 64 < state.pool.bits.length := by omega
  obtain ⟨slot, real, clear, swept, allocated⟩ := holds.alloc_swept room
  refine ⟨slot, real, clear, ?_, allocated⟩
  intro other otherReal otherClear
  have order := allocSweep_least start swept (holds.shape.slot_in_words otherReal) otherClear
  unfold SweptBefore at order
  unfold sweepRank
  split <;> split <;> omega

/-- The first free slot in the order cursor, cursor + 1, and so on around the end. -/
def FirstFree (pool : Ippool) (slot : Nat) : Prop :=
  ∃ step < pool.size, slot = (pool.cursor + step) % pool.size ∧ pool.bits.bit slot = false ∧
    ∀ earlier < step, pool.bits.bit ((pool.cursor + earlier) % pool.size) = true

theorem sweepRank_lt {size cursor slot : Nat} (within : cursor < size) (real : slot < size) :
    sweepRank size cursor slot < size ∧ (cursor + sweepRank size cursor slot) % size = slot := by
  unfold sweepRank
  split
  · rw [Nat.add_sub_of_le (by assumption)]
    exact ⟨by omega, Nat.mod_eq_of_lt real⟩
  · rw [show cursor + (size - cursor + slot) = slot + size by omega, Nat.add_mod_right]
    exact ⟨by omega, Nat.mod_eq_of_lt real⟩

theorem sweepRank_mod {size cursor step : Nat} (within : cursor < size) (less : step < size) :
    sweepRank size cursor ((cursor + step) % size) = step := by
  unfold sweepRank
  rcases mod_cases (show cursor + step < 2 * size by omega) with ⟨_, same⟩ | ⟨_, same⟩
  · rw [same]
    split <;> omega
  · rw [same]
    split <;> omega

theorem slotAddr_congr {first second : Ippool} (base : first.base = second.base)
    (slot : Nat) : slotAddr first slot = slotAddr second slot := by
  rw [slotAddr, slotAddr, base]

theorem LeaseInvariant.room_of_free {state : LeasedPool}
    (holds : LeaseInvariant state) {slot : Nat} (real : slot < state.pool.size)
    (clear : state.pool.bits.bit slot = false) :
    state.pool.used ≠ state.pool.size := by
  intro full
  rw [holds.used] at full
  have subset : state.pool.bits.marked state.pool.size ⊆
      Finset.range state.pool.size := Finset.filter_subset _ _
  have all := Finset.eq_of_subset_of_card_le subset (by rw [Finset.card_range, full])
  have member : slot ∈ state.pool.bits.marked state.pool.size := by
    rw [all, Finset.mem_range]
    exact real
  rw [(Bitmap.mem_marked.mp member).2] at clear
  cases clear

def FreeIn (pool : Ippool) (addr : IppoolAddr) : Prop :=
  ippoolIndexOf pool addr ≠ none ∧ ippoolIsAllocated pool addr = false

def IppoolCall.allocated (self : Ippool) : IppoolCall → Option IppoolAddr
  | .alloc => (ippoolAlloc self).2.toOption
  | _ => none

def IppoolCall.taken (self : Ippool) : IppoolCall → Option IppoolAddr
  | .alloc => (ippoolAlloc self).2.toOption
  | .reserve addr => (ippoolReserve self addr).2.toOption.map fun _ => addr
  | _ => none

/-- What every call of a run shows, read in the pool it is made on. -/
def observed (shows : Ippool → IppoolCall → Option IppoolAddr)
    (state : LeasedPool) : List IppoolCall → List IppoolAddr
  | [] => []
  | call :: rest =>
    (shows state.pool call).toList ++ observed shows (leaseStep state call) rest

def allocatedDuring : LeasedPool → List IppoolCall → List IppoolAddr :=
  observed fun pool call => call.allocated pool

def takenDuring : LeasedPool → List IppoolCall → List IppoolAddr :=
  observed fun pool call => call.taken pool

/-- A released address waits: when it is handed out for the first time after
`state`, every other address that was free in `state` has been taken. -/
def Waits (state : LeasedPool) (addr : IppoolAddr) : Prop :=
  ∀ calls : List IppoolCall, IppoolCall.reset ∉ calls → addr ∉ allocatedDuring state calls →
    (ippoolAlloc (run leaseStep state calls).pool).2 = .ok addr →
    ∀ other, other ≠ addr → FreeIn state.pool other → other ∈ takenDuring state calls

theorem PoolShape.freeIn_iff (shape : PoolShape pool) :
    FreeIn pool addr ↔ ∃ slot < pool.size, addr = slotAddr pool slot ∧
        pool.bits.bit slot = false := by
  unfold FreeIn ippoolIsAllocated
  cases found : ippoolIndexOf pool addr with
  | none =>
    simp only [ne_eq, not_true_eq_false, false_and, false_iff, not_exists, not_and]
    intro slot real same
    rw [shape.indexOf_eq_some.mpr ⟨real, same⟩] at found
    cases found
  | some slot =>
    obtain ⟨real, same⟩ := shape.indexOf_eq_some.mp found
    simp only [ne_eq, reduceCtorEq, not_false_eq_true, true_and]
    constructor
    · intro clear
      exact ⟨slot, real, same, clear⟩
    · rintro ⟨other, otherReal, otherSame, clear⟩
      rw [same] at otherSame
      rwa [shape.slotAddr_injective real otherReal otherSame]

/-- The slots that were free next to `slot` in `start` and are not among
`taken` are still free and come before `slot` in the next sweep. -/
structure Behind (start : LeasedPool) (slot : Nat) (taken : List IppoolAddr)
    (state : LeasedPool) : Prop where
  holds : LeaseInvariant state
  base : state.pool.base = start.pool.base
  size : state.pool.size = start.pool.size
  waiting : ∀ other < start.pool.size, other ≠ slot → start.pool.bits.bit other = false →
    slotAddr start.pool other ∉ taken →
    state.pool.bits.bit other = false ∧ sweepRank start.pool.size state.pool.cursor other <
        sweepRank start.pool.size state.pool.cursor slot

section Behind

variable {start state : LeasedPool} {slot : Nat} {taken : List IppoolAddr}

theorem Behind.slotAddr_eq (behind : Behind start slot taken state) (other : Nat) :
    slotAddr state.pool other = slotAddr start.pool other :=
  slotAddr_congr behind.base other

theorem Behind.mark (behind : Behind start slot taken state) (real : other < start.pool.size)
    (clear : state.pool.bits.bit other = false)
    (within : cursor < start.pool.size)
    (order : ∀ rest < start.pool.size, rest ≠ other → state.pool.bits.bit rest = false →
      sweepRank start.pool.size state.pool.cursor rest <
        sweepRank start.pool.size state.pool.cursor slot →
      sweepRank start.pool.size cursor rest < sweepRank start.pool.size cursor slot) :
    Behind start slot (taken ++ [slotAddr start.pool other])
      { pool := { state.pool with
          bits := state.pool.bits.mark other
          used := state.pool.used + 1
          cursor := cursor }
        held := insert (slotAddr state.pool other) state.held } := by
  have stateReal : other < state.pool.size := by rwa [behind.size]
  refine ⟨behind.holds.mark stateReal clear (by rwa [behind.size]), behind.base, behind.size, ?_⟩
  intro rest restReal apart free untaken
  rw [List.mem_append, List.mem_singleton, not_or] at untaken
  obtain ⟨restClear, before⟩ := behind.waiting rest restReal apart free untaken.1
  have different : rest ≠ other := fun same => untaken.2 (by rw [same])
  dsimp only
  rw [Bitmap.bit_mark (behind.holds.shape.slot_in_words stateReal), restClear]
  refine ⟨by simp [Ne.symm different], ?_⟩
  exact order rest restReal different restClear before

theorem Behind.unmark (behind : Behind start slot taken state) (real : other < start.pool.size)
    (set : state.pool.bits.bit other = true) :
    Behind start slot taken
      { pool := { state.pool with
          bits := state.pool.bits.unmark other
          used := state.pool.used - 1 }
        held := state.held.erase (slotAddr state.pool other) } := by
  have stateReal : other < state.pool.size := by rwa [behind.size]
  refine ⟨behind.holds.unmark stateReal set, behind.base, behind.size, ?_⟩
  intro rest restReal apart free untaken
  obtain ⟨restClear, before⟩ := behind.waiting rest restReal apart free untaken
  refine ⟨?_, before⟩
  dsimp only
  rw [Bitmap.bit_unmark (behind.holds.shape.slot_in_words stateReal), restClear]
  simp

theorem Behind.step (behind : Behind start slot taken state)
    (slotReal : slot < start.pool.size) {call : IppoolCall}
    (noReset : call ≠ .reset)
    (notAllocated : call.allocated state.pool ≠ some (slotAddr start.pool slot)) :
    Behind start slot (taken ++ (call.taken state.pool).toList) (leaseStep state call) := by
  have holds := behind.holds
  cases call with
  | alloc =>
    by_cases full : state.pool.used = state.pool.size
    · have refused := LeaseInvariant.alloc_of_full full
      simpa [leaseStep, IppoolCall.exec, IppoolCall.taken, refused, heldAfter,
        Except.map, Except.toOption] using behind
    · obtain ⟨other, real, clear, first, allocated⟩ := holds.alloc_first full
      have different : other ≠ slot := by
        rintro rfl
        apply notAllocated
        simp [IppoolCall.allocated, allocated, Except.toOption, behind.slotAddr_eq]
      rw [behind.size] at real first
      have within : (if other + 1 < start.pool.size then other + 1 else 0) < start.pool.size := by
        split <;> omega
      have cursor := holds.cursor
      rw [behind.size] at cursor
      have marked := behind.mark real clear within (by
        intro rest restReal apart restClear before
        have least := first rest restReal restClear
        have distinct : sweepRank start.pool.size state.pool.cursor other ≠
            sweepRank start.pool.size state.pool.cursor rest := fun same =>
          apart (sweepRank_injective real restReal same).symm
        exact sweepRank_after cursor real restReal slotReal (by omega) before)
      simpa [leaseStep, IppoolCall.exec, IppoolCall.taken, allocated, heldAfter,
        Except.map, Except.toOption, behind.size, behind.slotAddr_eq] using marked
  | reserve addr =>
    rcases holds.reserve_cases addr with
      ⟨error, refused⟩ | ⟨other, real, clear, rfl, reserved⟩
    · simpa [leaseStep, IppoolCall.exec, IppoolCall.taken, refused, heldAfter,
        Except.map, Except.toOption] using behind
    · have cursor := holds.cursor
      rw [behind.size] at real cursor
      have marked := behind.mark real clear cursor (fun _ _ _ _ before => before)
      rw [behind.slotAddr_eq] at reserved
      simpa [leaseStep, IppoolCall.exec, IppoolCall.taken, reserved, heldAfter,
        Except.map, Except.toOption, behind.slotAddr_eq] using marked
  | free addr =>
    rcases holds.free_cases addr with
      ⟨error, refused⟩ | ⟨other, real, set, rfl, freed⟩
    · simpa [leaseStep, IppoolCall.exec, IppoolCall.taken, refused, heldAfter,
        Except.map] using behind
    · rw [behind.size] at real
      simpa [leaseStep, IppoolCall.exec, IppoolCall.taken, freed, heldAfter,
        Except.map] using behind.unmark real set
  | reset => exact absurd rfl noReset

theorem Behind.run (behind : Behind start slot taken state)
    (slotReal : slot < start.pool.size) {calls : List IppoolCall}
    (noReset : IppoolCall.reset ∉ calls)
    (notAllocated : slotAddr start.pool slot ∉ allocatedDuring state calls) :
    Behind start slot (taken ++ takenDuring state calls)
      (Pro2Call.Data.run leaseStep state calls) := by
  induction calls generalizing state taken with
  | nil => simpa [takenDuring, observed] using behind
  | cons call rest ih =>
    simp only [List.mem_cons, not_or] at noReset
    simp only [allocatedDuring, observed, List.mem_append, Option.mem_toList,
      not_or] at notAllocated
    have next := behind.step slotReal (Ne.symm noReset.1)
      (fun same => notAllocated.1 (by rw [same]))
    have last := ih next noReset.2 notAllocated.2
    rw [run_cons, takenDuring, observed, ← List.append_assoc]
    exact last

end Behind

structure Reserved (state : LeasedPool) (slots : List Nat) (final : LeasedPool) :
    Prop where
  holds : LeaseInvariant final
  base : final.pool.base = state.pool.base
  size : final.pool.size = state.pool.size
  cursor : final.pool.cursor = state.pool.cursor
  bits : ∀ slot, final.pool.bits.bit slot = true ↔ state.pool.bits.bit slot = true ∨ slot ∈ slots

theorem LeaseInvariant.reserve_slot {state : LeasedPool}
    (holds : LeaseInvariant state) {slot : Nat} (real : slot < state.pool.size) :
    Reserved state [slot] (leaseStep state (.reserve (slotAddr state.pool slot))) := by
  have found := holds.shape.indexOf_eq_some.mpr ⟨real, rfl⟩
  have kept := holds.step (.reserve (slotAddr state.pool slot))
  cases set : state.pool.bits.bit slot with
  | true =>
    have same : (leaseStep state (.reserve (slotAddr state.pool slot))).pool = state.pool := by
      simp [leaseStep, IppoolCall.exec, ippoolReserve, found, set]
    refine ⟨kept, by rw [same], by rw [same], by rw [same], ?_⟩
    intro other
    rw [same, List.mem_singleton]
    refine ⟨Or.inl, ?_⟩
    rintro (marked | rfl)
    · exact marked
    · exact set
  | false =>
    have marked : (leaseStep state (.reserve (slotAddr state.pool slot))).pool =
        { state.pool with
          bits := state.pool.bits.mark slot
          used := state.pool.used + 1 } := by
      simp [leaseStep, IppoolCall.exec, ippoolReserve, found, set]
    refine ⟨kept, by rw [marked], by rw [marked], by rw [marked], ?_⟩
    intro other
    rw [marked, List.mem_singleton]
    dsimp only
    rw [Bitmap.bit_mark (holds.shape.slot_in_words real)]
    simp only [Bool.or_eq_true, decide_eq_true_eq]
    tauto

theorem LeaseInvariant.reserve_slots {state : LeasedPool}
    (holds : LeaseInvariant state) (real : ∀ slot ∈ slots, slot < state.pool.size) :
    Reserved state slots (run leaseStep state
      (slots.map fun slot => .reserve (slotAddr state.pool slot))) := by
  induction slots generalizing state with
  | nil => exact ⟨holds, rfl, rfl, rfl, by simp⟩
  | cons slot rest ih =>
    have first := holds.reserve_slot (real slot List.mem_cons_self)
    have others := ih first.holds (by
      rw [first.size]
      exact fun other member => real other (List.mem_cons_of_mem slot member))
    have same : ∀ other, slotAddr
        (leaseStep state (.reserve (slotAddr state.pool slot))).pool other =
          slotAddr state.pool other := slotAddr_congr first.base
    simp only [same] at others
    rw [List.map_cons, run_cons]
    refine ⟨others.holds, others.base.trans first.base,
      others.size.trans first.size, others.cursor.trans first.cursor, ?_⟩
    intro other
    rw [others.bits, first.bits, List.mem_singleton, List.mem_cons, or_assoc]

theorem observed_reserves {addrs : List IppoolAddr}
    (only : ∀ pool other, shows pool (.reserve other) = some addr → other = addr)
    {state : LeasedPool}
    (member : addr ∈ observed shows state (addrs.map IppoolCall.reserve)) :
    addr ∈ addrs := by
  induction addrs generalizing state with
  | nil => cases member
  | cons first rest ih =>
    rw [List.map_cons, observed, List.mem_append, Option.mem_toList] at member
    rcases member with here | later
    · rw [only state.pool first here]
      exact List.mem_cons_self
    · exact List.mem_cons_of_mem first (ih later)

def SweptFirst (pool : Ippool) (first second : IppoolAddr) : Prop :=
  ∃ i j, ippoolIndexOf pool first = some i ∧ ippoolIndexOf pool second = some j ∧
    sweepRank pool.size pool.cursor i < sweepRank pool.size pool.cursor j

theorem PoolShape.sweptFirst_iff (shape : PoolShape pool)
    (first : i < pool.size) (second : j < pool.size) :
    SweptFirst pool (slotAddr pool i) (slotAddr pool j) ↔
      sweepRank pool.size pool.cursor i < sweepRank pool.size pool.cursor j := by
  unfold SweptFirst
  rw [shape.indexOf_eq_some.mpr ⟨first, rfl⟩, shape.indexOf_eq_some.mpr ⟨second, rfl⟩]
  simp

section Release

variable {state : LeasedPool} {slot : Nat}

structure Released (state : LeasedPool) (slot : Nat) (start : LeasedPool) :
    Prop where
  holds : LeaseInvariant start
  real : slot < start.pool.size
  base : start.pool.base = state.pool.base
  size : start.pool.size = state.pool.size
  cursor : start.pool.cursor = state.pool.cursor
  bits : ∀ other, start.pool.bits.bit other = false ↔
    other = slot ∨ state.pool.bits.bit other = false

theorem LeaseInvariant.free_released (holds : LeaseInvariant state)
    (done : (ippoolFree state.pool addr).2 = .ok ()) :
    ∃ slot, addr = slotAddr state.pool slot ∧
      Released state slot (leaseStep state (.free addr)) := by
  rcases holds.free_cases addr with
    ⟨error, refused⟩ | ⟨slot, real, set, same, freed⟩
  · rw [refused] at done
    cases done
  · refine ⟨slot, same, ?_⟩
    have kept := holds.step (.free addr)
    have pool : (leaseStep state (.free addr)).pool =
        { state.pool with
          bits := state.pool.bits.unmark slot
          used := state.pool.used - 1 } := by
      simp [leaseStep, IppoolCall.exec, freed]
    refine ⟨kept, by rw [pool]; exact real, by rw [pool], by rw [pool], by rw [pool], ?_⟩
    intro other
    rw [pool]
    dsimp only
    rw [Bitmap.bit_unmark (holds.shape.slot_in_words real)]
    simp only [Bool.and_eq_false_iff, Bool.not_eq_false', decide_eq_true_eq]
    exact or_congr eq_comm Iff.rfl

variable {start : LeasedPool} (released : Released state slot start)

include released

theorem Released.waits (before : ∀ other < start.pool.size, other ≠ slot →
      start.pool.bits.bit other = false →
      sweepRank start.pool.size start.pool.cursor other <
        sweepRank start.pool.size start.pool.cursor slot) :
    Waits start (slotAddr start.pool slot) := by
  intro calls noReset notAllocated handedOut other apart free
  have initial : Behind start slot [] start :=
    ⟨released.holds, rfl, rfl, fun other real different clear _ =>
      ⟨clear, before other real different clear⟩⟩
  have final := initial.run released.real noReset notAllocated
  rw [List.nil_append] at final
  obtain ⟨j, real, rfl, clear⟩ := released.holds.shape.freeIn_iff.mp free
  by_contra untaken
  have different : j ≠ slot := fun same => apart (by rw [same])
  obtain ⟨finalClear, ahead⟩ := final.waiting j real different clear untaken
  have finalReal : j < (run leaseStep start calls).pool.size := by rwa [final.size]
  have room := final.holds.room_of_free finalReal finalClear
  obtain ⟨found, foundReal, _, first, allocated⟩ := final.holds.alloc_first room
  rw [allocated] at handedOut
  have same : found = slot := by
    apply final.holds.shape.slotAddr_injective foundReal (by rw [final.size]; exact released.real)
    rw [final.slotAddr_eq slot]
    exact Except.ok.inj handedOut
  have least := first j finalReal finalClear
  rw [same, final.size] at least
  omega

theorem Released.handed_out :
    ∃ calls, IppoolCall.reset ∉ calls ∧ slotAddr start.pool slot ∉ allocatedDuring start calls ∧
      (ippoolAlloc (run leaseStep start calls).pool).2 = .ok (slotAddr start.pool slot) ∧
      ∀ other < start.pool.size, slotAddr start.pool other ∈ takenDuring start calls →
        sweepRank start.pool.size start.pool.cursor other <
          sweepRank start.pool.size start.pool.cursor slot := by
  let ahead := (List.range start.pool.size).filter fun other =>
    sweepRank start.pool.size start.pool.cursor other <
      sweepRank start.pool.size start.pool.cursor slot
  have mem_ahead : ∀ other, other ∈ ahead ↔ other < start.pool.size ∧
      sweepRank start.pool.size start.pool.cursor other <
        sweepRank start.pool.size start.pool.cursor slot := by
    simp [ahead]
  have shape := released.holds.shape
  have aheadOf : ∀ other < start.pool.size,
      slotAddr start.pool other ∈ ahead.map (slotAddr start.pool) →
      sweepRank start.pool.size start.pool.cursor other <
        sweepRank start.pool.size start.pool.cursor slot := by
    intro other real member
    obtain ⟨listed, inAhead, same⟩ := List.mem_map.mp member
    obtain ⟨listedReal, rank⟩ := (mem_ahead listed).mp inAhead
    rwa [shape.slotAddr_injective listedReal real same] at rank
  have final := released.holds.reserve_slots (fun other member => ((mem_ahead other).mp member).1)
  refine ⟨(ahead.map (slotAddr start.pool)).map .reserve, by simp, ?_, ?_, ?_⟩
  · intro member
    have listed := observed_reserves (fun _ _ impossible => by cases impossible) member
    exact absurd (aheadOf slot released.real listed) (Nat.lt_irrefl _)
  · rw [List.map_map, Function.comp_def]
    have finalReal := released.real
    rw [← final.size] at finalReal
    have stillClear : (run leaseStep start (ahead.map fun slot =>
        .reserve (slotAddr start.pool slot))).pool.bits.bit slot = false := by
      rw [← Bool.not_eq_true, final.bits, not_or, Bool.not_eq_true]
      refine ⟨(released.bits slot).mpr (.inl rfl), ?_⟩
      intro member
      exact absurd ((mem_ahead slot).mp member).2 (Nat.lt_irrefl _)
    obtain ⟨found, foundReal, foundClear, first, allocated⟩ :=
      final.holds.alloc_first (final.holds.room_of_free finalReal stillClear)
    have least := first slot finalReal stillClear
    rw [final.size] at foundReal
    rw [final.size, final.cursor] at least
    have notAhead : found ∉ ahead := by
      intro member
      rw [(final.bits found).mpr (.inr member)] at foundClear
      cases foundClear
    have same : found = slot := by
      apply sweepRank_injective foundReal released.real (Nat.le_antisymm least ?_)
      by_contra earlier
      exact notAhead ((mem_ahead found).mpr ⟨foundReal, by omega⟩)
    rw [allocated, same, slotAddr_congr final.base]
  · intro other real member
    apply aheadOf other real
    apply observed_reserves ?_ member
    intro pool named shown
    simp only [IppoolCall.taken, Option.map_eq_some_iff] at shown
    obtain ⟨_, _, same⟩ := shown
    exact same

end Release

/-- A released address waits for the rest of the free pool exactly when, at
the release, the sweep from the cursor comes to every other free address
first. -/
theorem released_waits_iff {pool : Ippool} (built : IppoolBuilt pool)
    (calls : List IppoolCall) {addr : IppoolAddr}
    (released : (ippoolFree
      (run leaseStep { pool := pool, held := ∅ } calls).pool addr).2 = .ok ()) :
    Waits (leaseStep (run leaseStep { pool := pool, held := ∅ } calls) (.free addr)) addr ↔
      ∀ other, other ≠ addr → FreeIn (run leaseStep { pool := pool, held := ∅ } calls).pool other →
        SweptFirst (run leaseStep { pool := pool, held := ∅ } calls).pool other addr := by
  have holds : LeaseInvariant (run leaseStep { pool := pool, held := ∅ } calls) :=
    run_of_invariant LeaseInvariant
      (fun _ call holds => LeaseInvariant.step call holds) built.leaseInvariant calls
  generalize run leaseStep { pool := pool, held := ∅ } calls = state at *
  obtain ⟨slot, rfl, start⟩ := holds.free_released released
  generalize leaseStep state (.free (slotAddr state.pool slot)) = next at start
  have addrs := slotAddr_congr start.base
  have slotReal : slot < state.pool.size := start.size ▸ start.real
  constructor
  · intro waits other apart free
    obtain ⟨j, real, rfl, clear⟩ := holds.shape.freeIn_iff.mp free
    rw [holds.shape.sweptFirst_iff real slotReal]
    obtain ⟨handed, noReset, notAllocated, handedOut, taken⟩ := start.handed_out
    rw [addrs] at notAllocated handedOut
    have nextReal : j < next.pool.size := by rwa [start.size]
    have nextFree : FreeIn next.pool (slotAddr state.pool j) :=
      start.holds.shape.freeIn_iff.mpr
        ⟨j, nextReal, (addrs j).symm, (start.bits j).mpr (.inr clear)⟩
    have member := waits handed noReset notAllocated handedOut _ apart nextFree
    rw [← addrs] at member
    have rank := taken j nextReal member
    rwa [start.size, start.cursor] at rank
  · intro before
    rw [← addrs]
    apply start.waits
    intro other real different clear
    rw [start.size] at real
    have free : FreeIn state.pool (slotAddr state.pool other) :=
      holds.shape.freeIn_iff.mpr ⟨other, real, rfl,
        ((start.bits other).mp clear).resolve_left different⟩
    have apart : slotAddr state.pool other ≠ slotAddr state.pool slot := fun same =>
      different (holds.shape.slotAddr_injective real slotReal same)
    rw [start.size, start.cursor]
    exact (holds.shape.sweptFirst_iff real slotReal).mp (before _ apart free)

def scopePool : Ippool := freshPool (beBytes 4 0x0A2D0709) 6

theorem scopePool_built : IppoolBuilt scopePool := by
  have built : ippoolCreate (ippoolAddr4 0x0A2D0709) 29 = .ok scopePool := by
    decide
  exact .create built

theorem released_waits_iff_of_scope : (ippoolFree (run leaseStep { pool := scopePool, held := ∅ }
        [.alloc, .alloc]).pool (ippoolAddr4 0x0A2D0709)).2 = .ok () ∧
      (Waits (leaseStep (run leaseStep { pool := scopePool, held := ∅ }
          [.alloc, .alloc]) (.free (ippoolAddr4 0x0A2D0709)))
          (ippoolAddr4 0x0A2D0709) ↔
        ∀ other, other ≠ ippoolAddr4 0x0A2D0709 →
          FreeIn (run leaseStep { pool := scopePool, held := ∅ } [.alloc, .alloc]).pool other →
          SweptFirst (run leaseStep { pool := scopePool, held := ∅ }
            [.alloc, .alloc]).pool other (ippoolAddr4 0x0A2D0709)) := by
  have done : (ippoolFree (run leaseStep { pool := scopePool, held := ∅ }
      [.alloc, .alloc]).pool (ippoolAddr4 0x0A2D0709)).2 = .ok () := by
    decide +kernel
  exact ⟨done, released_waits_iff scopePool_built [.alloc, .alloc] done⟩

/-- The first host, reserved in a fresh pool and released, is handed out by the
next allocation while five addresses have been free all along. -/
theorem reserved_address_returns_at_once :
    (ippoolFree (run leaseStep { pool := scopePool, held := ∅ }
        [.reserve (ippoolAddr4 0x0A2D0709)]).pool
        (ippoolAddr4 0x0A2D0709)).2 = .ok () ∧
      ¬ Waits (leaseStep (run leaseStep { pool := scopePool, held := ∅ }
        [.reserve (ippoolAddr4 0x0A2D0709)])
        (.free (ippoolAddr4 0x0A2D0709))) (ippoolAddr4 0x0A2D0709) := by
  refine ⟨by decide, ?_⟩
  intro waits
  have taken := waits [] (by simp) (by simp [allocatedDuring, observed])
    (by decide +kernel) (ippoolAddr4 0x0A2D070A) (by decide)
    (by unfold FreeIn; decide)
  simp [takenDuring, observed] at taken

/-- The address an allocation takes is that of the first free slot from the cursor
on, and the cursor moves behind it. -/
theorem alloc_first_free {pool : Ippool} (built : IppoolBuilt pool) (calls : List IppoolCall)
    {state : LeasedPool} (reached : state = run leaseStep { pool := pool, held := ∅ } calls)
    (room : ippoolAvail state.pool ≠ 0) :
    ∃ slot, FirstFree state.pool slot ∧
      (ippoolAlloc state.pool).2 = .ok (slotAddr state.pool slot) ∧
      (ippoolAlloc state.pool).1.cursor = (slot + 1) % state.pool.size := by
  have holds : LeaseInvariant state := reached ▸ run_of_invariant LeaseInvariant
    (fun _ call holds => holds.step call) built.leaseInvariant calls
  have cursor := holds.cursor
  obtain ⟨slot, real, clear, least, allocated⟩ := holds.alloc_first fun full => room (by
    rw [ippoolAvail, full, Nat.sub_self])
  obtain ⟨below, there⟩ := sweepRank_lt cursor real
  refine ⟨slot, ⟨_, below, there.symm, clear, fun earlier before => ?_⟩, ?_, ?_⟩
  · by_contra set
    have rank := least _ (Nat.mod_lt _ cursor.pos) (Bool.eq_false_iff.mpr set)
    rw [sweepRank_mod cursor (before.trans below)] at rank
    omega
  · rw [allocated]
  · rw [allocated]
    dsimp only
    split
    · exact (Nat.mod_eq_of_lt (by assumption)).symm
    · rw [show slot + 1 = state.pool.size by omega, Nat.mod_self]

theorem alloc_first_free_of_scope :
    ∃ slot, FirstFree (run leaseStep { pool := scopePool, held := ∅ } [.alloc]).pool slot ∧
      (ippoolAlloc (run leaseStep { pool := scopePool, held := ∅ } [.alloc]).pool).2 =
        .ok (slotAddr (run leaseStep { pool := scopePool, held := ∅ } [.alloc]).pool slot) ∧
      (ippoolAlloc (run leaseStep { pool := scopePool, held := ∅ } [.alloc]).pool).1.cursor =
        (slot + 1) % (run leaseStep { pool := scopePool, held := ∅ } [.alloc]).pool.size :=
  alloc_first_free scopePool_built [.alloc] rfl (by decide)

end Pro2Call.Task

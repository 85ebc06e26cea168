import Mathlib.Data.Finset.Card
import Mathlib.Data.Finset.Insert
import Mathlib.Data.Finset.Range

namespace Pro2Call.Data

/-! Sets of slots packed into 64-bit words: slot `i` is bit `i % 64` of word
`i / 64`. -/

abbrev Bitmap := List (BitVec 64)

variable {words : Bitmap} {slot : Nat} {word : BitVec 64}

namespace Bitmap

def bit (words : Bitmap) (slot : Nat) : Bool := (words.getD (slot / 64) 0).getLsbD (slot % 64)

def mark (words : Bitmap) (slot : Nat) : Bitmap :=
  List.set words (slot / 64) (words.getD (slot / 64) 0 ||| BitVec.twoPow 64 (slot % 64))

def unmark (words : Bitmap) (slot : Nat) : Bitmap :=
  List.set words (slot / 64) (words.getD (slot / 64) 0 &&& ~~~BitVec.twoPow 64 (slot % 64))

def marked (words : Bitmap) (size : Nat) : Finset Nat :=
  (Finset.range size).filter fun slot => words.bit slot = true

@[simp] theorem length_mark (words : Bitmap) (slot : Nat) :
    (words.mark slot).length = words.length :=
  List.length_set

@[simp] theorem length_unmark (words : Bitmap) (slot : Nat) :
    (words.unmark slot).length = words.length :=
  List.length_set

theorem getD_set (word : BitVec 64) (inside : index < words.length) (other : Nat) :
    (List.set words index word).getD other 0 =
      if index = other then word else words.getD other 0 := by
  rw [List.getD_eq_getElem?_getD, List.getElem?_set, List.getD_eq_getElem?_getD]
  by_cases same : index = other
  · simp [same, same ▸ inside]
  · simp [same]

theorem bit_mark (inside : slot < 64 * words.length) (other : Nat) :
    (words.mark slot).bit other = (decide (slot = other) || words.bit other) := by
  have index : slot / 64 < words.length := by omega
  unfold bit mark
  rw [getD_set _ index]
  by_cases word : slot / 64 = other / 64
  · have position : slot = other ↔ slot % 64 = other % 64 := by omega
    have narrow : slot % 64 < 64 := by omega
    rw [if_pos word, word]
    simp [BitVec.getLsbD_or, BitVec.getLsbD_twoPow, narrow, position, Bool.or_comm]
  · have apart : slot ≠ other := by
      intro same
      exact word (same ▸ rfl)
    rw [if_neg word]
    simp [apart]

theorem bit_unmark (inside : slot < 64 * words.length) (other : Nat) :
    (words.unmark slot).bit other = (!decide (slot = other) && words.bit other) := by
  have index : slot / 64 < words.length := by omega
  unfold bit unmark
  rw [getD_set _ index]
  by_cases word : slot / 64 = other / 64
  · have position : slot = other ↔ slot % 64 = other % 64 := by omega
    have narrow : slot % 64 < 64 := by omega
    have otherNarrow : other % 64 < 64 := by omega
    rw [if_pos word, word, BitVec.getLsbD_and, BitVec.getLsbD_not, BitVec.getLsbD_twoPow]
    simp only [narrow, otherNarrow, position, decide_true, Bool.true_and]
    exact Bool.and_comm _ _
  · have apart : slot ≠ other := by
      intro same
      exact word (same ▸ rfl)
    rw [if_neg word]
    simp [apart]

theorem mem_marked {size : Nat} :
    slot ∈ words.marked size ↔ slot < size ∧ words.bit slot = true := by
  simp [marked]

theorem marked_mark {size : Nat} (real : slot < size) (inside : slot < 64 * words.length) :
    (words.mark slot).marked size = insert slot (words.marked size) := by
  ext other
  rw [Finset.mem_insert, mem_marked, mem_marked, bit_mark inside]
  simp only [Bool.or_eq_true, decide_eq_true_eq]
  constructor
  · rintro ⟨below, same | set⟩
    · exact Or.inl same.symm
    · exact Or.inr ⟨below, set⟩
  · rintro (same | ⟨below, set⟩)
    · exact ⟨same ▸ real, Or.inl same.symm⟩
    · exact ⟨below, Or.inr set⟩

theorem marked_unmark (size : Nat) (inside : slot < 64 * words.length) :
    (words.unmark slot).marked size = (words.marked size).erase slot := by
  ext other
  rw [Finset.mem_erase, mem_marked, mem_marked, bit_unmark inside]
  simp only [Bool.and_eq_true, Bool.not_eq_true', decide_eq_false_iff_not]
  constructor
  · rintro ⟨below, apart, set⟩
    exact ⟨Ne.symm apart, below, set⟩
  · rintro ⟨apart, below, set⟩
    exact ⟨below, Ne.symm apart, set⟩

theorem exists_clear_of_ne_zero (found : ~~~word &&& mask ≠ 0) :
    (~~~word &&& mask).ctz.toNat < 64 ∧ word.getLsbD (~~~word &&& mask).ctz.toNat = false := by
  have set := BitVec.getLsbD_true_ctz_of_ne_zero found
  rw [BitVec.getLsbD_and, BitVec.getLsbD_not] at set
  simp only [Bool.and_eq_true, decide_eq_true_eq, Bool.not_eq_true'] at set
  exact set.1

theorem full_of_and_eq_zero (unset : ~~~word &&& mask = 0)
    (selected : mask.getLsbD position = true) :
    word.getLsbD position = true := by
  have narrow := BitVec.lt_of_getLsbD selected
  have clear := congrArg (fun word => word.getLsbD position) unset
  simp only [BitVec.getLsbD_and, BitVec.getLsbD_not, narrow, decide_true,
    Bool.true_and, selected, Bool.and_true] at clear
  simpa using clear

theorem full_of_eq_zero (unset : ~~~word &&& BitVec.allOnes 64 = 0) (narrow : position < 64) :
    word.getLsbD position = true :=
  full_of_and_eq_zero unset (by rw [BitVec.getLsbD_allOnes, decide_eq_true narrow])

theorem full_of_lt_ctz (below : position < (~~~word &&& mask).ctz.toNat)
    (selected : mask.getLsbD position = true) :
    word.getLsbD position = true := by
  have narrow := BitVec.lt_of_getLsbD selected
  have clear := BitVec.getLsbD_false_of_lt_ctz below
  simp only [BitVec.getLsbD_and, BitVec.getLsbD_not, narrow, decide_true,
    Bool.true_and, selected, Bool.and_true, Bool.not_eq_false'] at clear
  exact clear

end Bitmap

end Pro2Call.Data

import Mathlib.Data.List.Basic
import Mathlib.Order.Lattice
import Mathlib.Tactic.Common

namespace Pro2Call.Data

/-! A table in the order of a key, the rows of one key in their given order, and the
search in it by halving. -/

variable {α β K : Type*}

def sliceStable (less : α → α → Bool) (rows : List α) : List α :=
  rows.mergeSort fun a b => !less b a

def lowerBound (below : Nat → Bool) (lo hi : Nat) : Nat :=
  if lo < hi then
    let mid := lo + (hi - lo) / 2
    if below mid then lowerBound below (mid + 1) hi else lowerBound below lo mid
  else lo
termination_by hi - lo

def searchTable (below hit : α → Bool) (table : List α) : Option α :=
  table[lowerBound (fun i => table[i]?.any below) 0 table.length]?.filter hit

theorem lowerBound_spec {below : Nat → Bool} (closed : ∀ i j, i ≤ j → below j → below i)
    (le : lo ≤ hi) :
    lowerBound below lo hi ≤ hi ∧ (∀ i, lo ≤ i → i < lowerBound below lo hi → below i) ∧
      ∀ i, lowerBound below lo hi ≤ i → i < hi → ¬ below i := by
  fun_induction lowerBound below lo hi with
  | case1 lo hi less mid small ih =>
    obtain ⟨inside, before, behind⟩ := ih (by omega)
    refine ⟨inside, ?_, behind⟩
    intro i from_lo under
    by_cases later : mid + 1 ≤ i
    · exact before i later under
    · exact closed i mid (by omega) small
  | case2 lo hi less mid small ih =>
    obtain ⟨inside, before, behind⟩ := ih (by omega)
    refine ⟨by omega, before, ?_⟩
    intro i above under reached
    by_cases later : mid ≤ i
    · exact small (closed mid i later reached)
    · exact behind i above (by omega) reached
  | case3 lo hi empty =>
    exact ⟨le, fun i from_lo under => by omega, fun i above under => by omega⟩

section Searching

variable [LinearOrder K] {key : α → K} {k : K} {below hit : β → Bool} {f : α → β} {table : List α}

theorem any_below_closed (sorted : table.Pairwise fun a b => key a ≤ key b)
    (belowIff : ∀ a ∈ table, below (f a) ↔ key a < k) (i j : Nat) (le : i ≤ j)
    (reached : (table.map f)[j]?.any below) : (table.map f)[i]?.any below := by
  simp only [List.getElem?_map, Option.any_map] at reached ⊢
  obtain ⟨b, found, small⟩ := (Option.any_eq_true _ _).mp reached
  obtain ⟨inside, rfl⟩ := List.getElem?_eq_some_iff.mp found
  have here : i < table.length := by omega
  have last := (belowIff _ (List.getElem_mem inside)).mp small
  rw [List.getElem?_eq_getElem here, Option.any_some]
  refine (belowIff _ (List.getElem_mem here)).mpr ?_
  rcases Nat.lt_or_eq_of_le le with before | rfl
  · exact lt_of_le_of_lt (List.pairwise_iff_getElem.mp sorted i j here inside before) last
  · exact last

theorem searchTable_map (sorted : table.Pairwise fun a b => key a ≤ key b)
    (belowIff : ∀ a ∈ table, below (f a) ↔ key a < k)
    (hitIff : ∀ a ∈ table, hit (f a) ↔ key a = k) :
    searchTable below hit (table.map f) = (table.find? fun a => key a = k).map f := by
  obtain ⟨inside, before, behind⟩ :=
    lowerBound_spec (any_below_closed sorted belowIff) (Nat.zero_le (table.map f).length)
  unfold searchTable
  generalize lowerBound (fun i => (table.map f)[i]?.any below) 0 (table.map f).length = lo at *
  rw [List.length_map] at inside behind
  have early : (table.take lo).find? (fun a => key a = k) = none := by
    rw [List.find?_eq_none]
    intro a member found
    obtain ⟨i, under, rfl⟩ := List.mem_iff_getElem.mp member
    rw [List.length_take] at under
    have present : i < table.length := by omega
    have small := before i (Nat.zero_le i) (by omega)
    rw [List.getElem?_map, List.getElem?_eq_getElem present, Option.map_some, Option.any_some,
      belowIff _ (List.getElem_mem present)] at small
    rw [List.getElem_take, decide_eq_true_eq] at found
    exact ne_of_lt small found
  conv_rhs => rw [← List.take_append_drop lo table, List.find?_append, early, Option.none_or]
  rcases Nat.lt_or_eq_of_le inside with within | rfl
  · have member := List.getElem_mem within
    rw [List.getElem?_map, List.getElem?_eq_getElem within, List.drop_eq_getElem_cons within,
      Option.map_some, Option.filter_some, List.find?_cons]
    by_cases first : key table[lo] = k
    · rw [if_pos ((hitIff _ member).mpr first), decide_eq_true first, Option.map_some]
    · -- every later row is above the key as well
      have above : k < key table[lo] := by
        have reached := behind lo (Nat.le_refl lo) within
        rw [List.getElem?_map, List.getElem?_eq_getElem within, Option.map_some, Option.any_some,
          belowIff _ member, not_lt] at reached
        exact lt_of_le_of_ne reached (Ne.symm first)
      have later : (table.drop (lo + 1)).find? (fun a => key a = k) = none := by
        rw [List.find?_eq_none]
        intro a behind found
        have ordered := sorted.sublist (List.drop_sublist lo table)
        rw [List.drop_eq_getElem_cons within, List.pairwise_cons] at ordered
        exact ne_of_gt (lt_of_lt_of_le above (ordered.1 a behind)) (decide_eq_true_eq.mp found)
      rw [if_neg (mt (hitIff _ member).mp first), decide_eq_false first, later, Option.map_none]
  · simp

end Searching

section Sorting

variable [LinearOrder K] {key : α → K} {less : α → α → Bool}
  (lessIff : ∀ a b, less a b ↔ key a < key b)

include lessIff

theorem not_less_iff (a b : α) : (!less b a) = true ↔ key a ≤ key b := by
  rw [Bool.not_eq_true', ← Bool.not_eq_true, lessIff, not_lt]

theorem not_less_trans (a b c : α) (ab : !less b a) (bc : !less c b) : !less c a := by
  rw [not_less_iff lessIff] at ab bc ⊢
  exact le_trans ab bc

theorem not_less_total (a b : α) : (!less b a) || !less a b := by
  rw [Bool.or_eq_true, not_less_iff lessIff, not_less_iff lessIff]
  exact le_total _ _

theorem sorted_sliceStable (rows : List α) :
    (sliceStable less rows).Pairwise fun a b => key a ≤ key b := by
  have sorted : (sliceStable less rows).Pairwise fun a b => !less b a :=
    List.pairwise_mergeSort (not_less_trans lessIff) (not_less_total lessIff) rows
  exact sorted.imp fun {a b} le => (not_less_iff lessIff a b).mp le

theorem find_sliceStable (k : K) (rows : List α) :
    (sliceStable less rows).find? (fun a => key a = k) = rows.find? fun a => key a = k := by
  have even : (rows.filter fun a => key a = k).Pairwise fun a b => !less b a := by
    rw [List.pairwise_filter]
    refine List.pairwise_of_forall fun a b hitA hitB => ?_
    rw [not_less_iff lessIff, decide_eq_true_eq.mp hitA, decide_eq_true_eq.mp hitB]
  have kept : (rows.filter fun a => key a = k).Sublist (sliceStable less rows) :=
    List.sublist_mergeSort (not_less_trans lessIff) (not_less_total lessIff) even
      List.filter_sublist
  have hits := kept.filter fun a => key a = k
  simp only [List.filter_filter, Bool.and_self] at hits
  have same := hits.eq_of_length
    ((List.mergeSort_perm rows _).filter fun a => key a = k).length_eq.symm
  rw [← List.head?_filter, ← List.head?_filter, same]

theorem searchTable_sliceStable {k : K} {below hit : β → Bool} {f : α → β}
    (belowIff : ∀ a ∈ rows, below (f a) ↔ key a < k)
    (hitIff : ∀ a ∈ rows, hit (f a) ↔ key a = k) :
    searchTable below hit ((sliceStable less rows).map f) =
      (rows.find? fun a => key a = k).map f := by
  have sorted := sorted_sliceStable lessIff rows
  have members : ∀ a ∈ sliceStable less rows, a ∈ rows := fun a => List.mem_mergeSort.mp
  rw [searchTable_map sorted (fun a member => belowIff a (members a member))
    (fun a member => hitIff a (members a member)), find_sliceStable lessIff]

end Sorting

theorem map_sliceStable (less : β → β → Bool) (f : α → β) (rows : List α) :
    (sliceStable (fun a b => less (f a) (f b)) rows).map f = sliceStable less (rows.map f) :=
  List.map_mergeSort fun _ _ _ _ => rfl

end Pro2Call.Data

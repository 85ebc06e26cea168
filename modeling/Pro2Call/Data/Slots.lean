import Mathlib.Data.List.Nodup

namespace Pro2Call.Data.Slots

/-! Tables whose entries stay in place: an entry is dropped by freeing its slot,
and a new one takes the first free slot or a slot at the end. -/

variable {α : Type*} (occupied : α → Bool)

def live (slots : List α) : List α := slots.filter occupied

def nextSlot (slots : List α) : Nat :=
  (slots.findIdx? fun entry => !occupied entry).getD slots.length

def place (entry : α) (slots : List α) : List α :=
  match slots.findIdx? fun entry => !occupied entry with
  | some index => slots.set index entry
  | none => slots ++ [entry]

variable {occupied} {slots : List α} {entry : α}

theorem mem_live {other : α} :
    other ∈ live occupied slots ↔ other ∈ slots ∧ occupied other = true :=
  List.mem_filter

theorem place_cut (occupied : α → Bool) (slots : List α) (entry : α) :
    ∃ front old back, slots = front ++ old ++ back ∧ live occupied old = [] ∧
      front.length = nextSlot occupied slots ∧
      place occupied entry slots = front ++ [entry] ++ back := by
  unfold place nextSlot
  cases found : slots.findIdx? fun entry => !occupied entry with
  | none => exact ⟨slots, [], [], by simp, rfl, rfl, by simp⟩
  | some index =>
    obtain ⟨inside, free, _⟩ := List.findIdx?_eq_some_iff_getElem.mp found
    refine ⟨slots.take index, [slots[index]], slots.drop (index + 1), ?_, ?_, ?_, ?_⟩
    · rw [List.append_assoc, List.singleton_append, List.getElem_cons_drop, List.take_append_drop]
    · simpa [live] using free
    · simp only [List.length_take, Option.getD_some]
      omega
    · simp only
      rw [List.set_eq_take_append_cons_drop, if_pos inside, List.append_assoc,
        List.singleton_append]

theorem getElem?_place_cases {index : Nat} {other : α}
    (there : (place occupied entry slots)[index]? = some other) :
    other = entry ∨ slots[index]? = some other := by
  unfold place at there
  cases found : slots.findIdx? fun entry => !occupied entry with
  | none =>
    rw [found] at there
    rcases List.getElem?_eq_some_iff.mp there with ⟨inside, same⟩
    by_cases before : index < slots.length
    · right
      rw [← there, List.getElem?_append_left before]
    · left
      rw [List.getElem_append_right (by omega), List.getElem_singleton] at same
      exact same.symm
  | some slot =>
    rw [found] at there
    by_cases filled : slot = index
    · left
      subst filled
      rw [List.getElem?_set_self'] at there
      obtain ⟨old, _, same⟩ := Option.map_eq_some_iff.mp there
      exact same.symm
    · right
      rwa [List.getElem?_set_ne filled] at there

theorem mem_drop_iff {cut : Nat} {other : α} :
    other ∈ slots.drop cut ↔ ∃ index, cut ≤ index ∧ slots[index]? = some other := by
  rw [List.mem_iff_getElem?]
  constructor
  · rintro ⟨index, there⟩
    rw [List.getElem?_drop] at there
    exact ⟨cut + index, Nat.le_add_right _ _, there⟩
  · rintro ⟨index, late, there⟩
    refine ⟨index - cut, ?_⟩
    rwa [List.getElem?_drop, Nat.add_sub_cancel' late]

theorem mem_drop_place {cut : Nat} {other : α}
    (member : other ∈ (place occupied entry slots).drop cut) :
    other = entry ∨ other ∈ slots.drop cut := by
  obtain ⟨index, late, there⟩ := mem_drop_iff.mp member
  apply (getElem?_place_cases there).imp_right
  intro before
  exact mem_drop_iff.mpr ⟨index, late, before⟩

theorem mem_take_place {cut : Nat} {other : α}
    (member : other ∈ (place occupied entry slots).take cut) :
    other = entry ∨ other ∈ slots.take cut := by
  obtain ⟨index, there⟩ := List.mem_iff_getElem?.mp member
  rw [List.getElem?_take] at there
  split at there
  · rename_i early
    apply (getElem?_place_cases there).imp_right
    intro before
    rw [← List.getElem?_take_of_lt early] at before
    exact List.mem_of_getElem? before
  · cases there

theorem live_append (first second : List α) :
    live occupied (first ++ second) = live occupied first ++ live occupied second :=
  List.filter_append ..

theorem live_singleton (taken : occupied entry = true) : live occupied [entry] = [entry] := by
  simp [live, taken]

theorem live_place_of_last (taken : occupied entry = true)
    (last : live occupied (slots.drop (nextSlot occupied slots)) = []) :
    live occupied (place occupied entry slots) = live occupied slots ++ [entry] := by
  obtain ⟨front, old, back, rfl, free, position, placed⟩ := place_cut occupied slots entry
  rw [← position, List.append_assoc, List.drop_left, live_append, free, List.nil_append] at last
  rw [placed, live_append, live_append, live_append, live_append, live_singleton taken,
    free, last, List.append_nil, List.append_nil, List.append_nil]

theorem live_set_sublist {free : α} (empty : occupied free = false) (index : Nat) :
    (live occupied (slots.set index free)).Sublist (live occupied slots) := by
  induction slots generalizing index with
  | nil => exact List.Sublist.refl _
  | cons head rest ih =>
    cases index with
    | zero =>
      rw [List.set_cons_zero, live, List.filter_cons_of_neg (by simp [empty])]
      exact (List.sublist_cons_self head rest).filter occupied
    | succ index =>
      have later := ih index
      cases taken : occupied head with
      | false => simpa [live, taken] using later
      | true => simpa [live, taken] using later

section Freed

variable {free other : α} {index cut : Nat} (empty : occupied free = false)
  (taken : occupied other = true)

include empty taken

theorem mem_of_mem_set (member : other ∈ slots.set index free) : other ∈ slots := by
  rcases List.mem_or_eq_of_mem_set member with before | rfl
  · exact before
  · rw [empty] at taken
    cases taken

theorem mem_drop_of_mem_set (member : other ∈ (slots.set index free).drop cut) :
    other ∈ slots.drop cut := by
  rw [List.drop_set] at member
  split at member
  · exact member
  · exact mem_of_mem_set empty taken member

theorem mem_take_of_mem_set (member : other ∈ (slots.set index free).take cut) :
    other ∈ slots.take cut := by
  rw [List.take_set] at member
  exact mem_of_mem_set empty taken member

end Freed

theorem live_live : live occupied (live occupied slots) = live occupied slots := by
  simp [live]

end Pro2Call.Data.Slots

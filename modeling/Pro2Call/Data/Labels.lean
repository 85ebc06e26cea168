import Mathlib.Data.List.TakeWhile

namespace Pro2Call.Data

/-! Texts made of labels with a separator between them, and perhaps one more
separator at the end. -/

variable {α : Type*}

def joined (sep : α) (labels : List (List α)) : List α := [sep].intercalate labels

section Joined

variable {sep : α} {labels : List (List α)}

@[simp] theorem joined_nil : joined sep [] = [] := rfl

@[simp] theorem joined_singleton (label : List α) : joined sep [label] = label := by
  simp [joined, List.intercalate]

theorem joined_cons (label : List α) (more : labels ≠ []) :
    joined sep (label :: labels) = label ++ sep :: joined sep labels := by
  rw [joined, List.intercalate_cons_of_ne_nil more, List.append_assoc]
  rfl

theorem map_joined (f : α → β) :
    (joined sep labels).map f = joined (f sep) (labels.map (List.map f)) := by
  induction labels with
  | nil => rfl
  | cons label rest ih =>
    by_cases more : rest = []
    · subst more
      simp
    · rw [joined_cons label more, List.map_append, List.map_cons, ih,
        List.map_cons, joined_cons _ (by simpa using more)]

theorem joined_injective (plain : ∀ label ∈ labels, sep ∉ label)
    (full : ∀ label ∈ labels, label ≠ []) (plain' : ∀ label ∈ others, sep ∉ label)
    (full' : ∀ label ∈ others, label ≠ []) (same : joined sep labels = joined sep others) :
    labels = others := by
  classical
  have empty : ∀ names : List (List α), (∀ label ∈ names, label ≠ []) →
      joined sep names = [] → names = [] := by
    intro names full nothing
    cases names with
    | nil => rfl
    | cons label rest =>
      have filled := full label List.mem_cons_self
      by_cases more : rest = []
      · subst more
        exact absurd (by simpa using nothing) filled
      · simp [joined_cons label more] at nothing
  by_cases unlabelled : labels = []
  · subst unlabelled
    exact (empty others full' same.symm).symm
  · have none' : others ≠ [] := by
      rintro rfl
      exact unlabelled (empty labels full same)
    have split := congrArg (List.splitOn sep) same
    rwa [joined, joined, List.splitOn_intercalate sep plain unlabelled,
      List.splitOn_intercalate sep plain' none'] at split

theorem mem_joined {label : List α} (member : label ∈ labels)
    (inside : element ∈ label) : element ∈ joined sep labels := by
  induction labels with
  | nil => cases member
  | cons first rest ih =>
    by_cases more : rest = []
    · subst more
      rw [List.mem_singleton.mp member] at inside
      simpa using inside
    · rw [joined_cons first more, List.mem_append, List.mem_cons]
      rcases List.mem_cons.mp member with rfl | later
      · exact .inl inside
      · exact .inr (.inr (ih later))

theorem eq_or_mem_of_mem_joined (member : element ∈ joined sep labels) :
    element = sep ∨ ∃ label ∈ labels, element ∈ label := by
  induction labels with
  | nil => cases member
  | cons first rest ih =>
    by_cases more : rest = []
    · subst more
      rw [joined_singleton] at member
      exact .inr ⟨first, List.mem_cons_self, member⟩
    · rw [joined_cons first more, List.mem_append, List.mem_cons] at member
      rcases member with inside | rfl | later
      · exact .inr ⟨first, List.mem_cons_self, inside⟩
      · exact .inl rfl
      · apply (ih later).imp_right
        rintro ⟨label, held, inside⟩
        exact ⟨label, List.mem_cons_of_mem first held, inside⟩

theorem getLast?_joined (plain : ∀ label ∈ labels, sep ∉ label)
    (full : ∀ label ∈ labels, label ≠ []) : (joined sep labels).getLast? ≠ some sep := by
  induction labels with
  | nil => simp
  | cons label rest ih =>
    by_cases more : rest = []
    · subst more
      rw [joined_singleton]
      intro last
      exact plain label List.mem_cons_self (List.mem_of_getLast? last)
    · have later := ih (fun l member => plain l (List.mem_cons_of_mem label member))
        (fun l member => full l (List.mem_cons_of_mem label member))
      obtain ⟨next, behind, rfl⟩ := List.exists_cons_of_ne_nil more
      have filled : joined sep (next :: behind) ≠ [] := by
        obtain ⟨element, tail, named⟩ := List.exists_cons_of_ne_nil
          (full next (List.mem_cons_of_mem label List.mem_cons_self))
        have member : element ∈ joined sep (next :: behind) :=
          mem_joined List.mem_cons_self (named ▸ List.mem_cons_self)
        exact List.ne_nil_of_mem member
      obtain ⟨element, tail, named⟩ := List.exists_cons_of_ne_nil filled
      rw [joined_cons label more, named]
      rw [named] at later
      simpa [List.getLast?_append] using later

end Joined

variable [DecidableEq α]

/-- The labels of a text: what stands between the separators, but for nothing behind
the last. -/
def labelsOf (sep : α) (text : List α) : List (List α) :=
  match text with
  | [] => []
  | first :: rest =>
    let label := (first :: rest).takeWhile (· ≠ sep)
    label :: labelsOf sep ((first :: rest).drop (label.length + 1))
termination_by text.length
decreasing_by
  simp only [List.length_drop]
  have : 0 < (first :: rest).length := Nat.succ_pos _
  omega

theorem not_mem_labelsOf {sep : α} {text label : List α}
    (member : label ∈ labelsOf sep text) : sep ∉ label := by
  fun_induction labelsOf sep text with
  | case1 => cases member
  | case2 first rest word ih =>
    rcases List.mem_cons.mp member with rfl | later
    · intro inside
      have kept := List.mem_takeWhile_imp inside
      simp at kept
    · exact ih later

theorem joined_labelsOf (sep : α) (text : List α) :
    text = joined sep (labelsOf sep text) ++
      if text.getLast? = some sep then [sep] else [] := by
  fun_induction labelsOf sep text with
  | case1 => rfl
  | case2 first rest label ih =>
    have cut : first :: rest = label ++ (first :: rest).dropWhile (· ≠ sep) :=
      (List.takeWhile_append_dropWhile ..).symm
    have plain : sep ∉ label := by
      intro inside
      have kept := List.mem_takeWhile_imp inside
      simp at kept
    cases found : (first :: rest).dropWhile (· ≠ sep) with
    | nil =>
      -- the last label, with nothing behind it
      rw [found, List.append_nil] at cut
      have ended : (first :: rest).drop (label.length + 1) = [] := by
        rw [cut]
        exact List.drop_eq_nil_of_le (Nat.le_succ _)
      rw [ended, labelsOf, joined_singleton, cut, if_neg, List.append_nil]
      exact fun last => plain (List.mem_of_getLast? last)
    | cons stop behind =>
      have stops : stop = sep := by
        have head := List.head?_dropWhile_not (· ≠ sep) (first :: rest)
        rw [found] at head
        simpa using head
      subst stops
      rw [found] at cut
      have next : (first :: rest).drop (label.length + 1) = behind := by
        rw [cut, ← List.drop_drop, List.drop_left]
        rfl
      rw [next] at ih ⊢
      by_cases nothing : behind = []
      · subst nothing
        rw [labelsOf, joined_singleton, if_pos]
        · exact cut
        · rw [cut, List.getLast?_append]
          rfl
      · have more : labelsOf stop behind ≠ [] := by
          obtain ⟨head, tail, rfl⟩ := List.exists_cons_of_ne_nil nothing
          rw [labelsOf]
          exact List.cons_ne_nil _ _
        have last : (first :: rest).getLast? = behind.getLast? := by
          obtain ⟨head, tail, rfl⟩ := List.exists_cons_of_ne_nil nothing
          rw [cut, List.getLast?_append, List.getLast?_cons_cons,
            List.getLast?_eq_some_getLast (List.cons_ne_nil head tail), Option.some_or]
        rw [joined_cons label more, List.append_assoc, List.cons_append, last, ← ih]
        exact cut

end Pro2Call.Data

import Mathlib.Data.List.Nodup

namespace Pro2Call.Data.Keyed

variable {Record Key : Type*}

def Distinct (key : Record → Key) (table : List Record) : Prop := (table.map key).Nodup

section Distinct

variable {key : Record → Key} {table : List Record}

@[simp] theorem distinct_nil : Distinct key ([] : List Record) := List.nodup_nil

theorem Distinct.eq_of_key (distinct : Distinct key table) (firstMember : first ∈ table)
    (secondMember : second ∈ table) (same : key first = key second) :
    first = second :=
  List.inj_on_of_nodup_map distinct firstMember secondMember same

theorem Distinct.sublist {smaller : List Record}
    (distinct : Distinct key table) (sub : smaller.Sublist table) :
    Distinct key smaller :=
  List.Nodup.sublist (sub.map key) distinct

theorem Distinct.append (distinct : Distinct key table) {record : Record}
    (absent : ∀ other ∈ table, key other ≠ key record) :
    Distinct key (table ++ [record]) := by
  unfold Distinct
  rw [List.map_append, List.nodup_append]
  refine ⟨distinct, List.nodup_singleton _, ?_⟩
  intro left leftMember right rightMember same
  obtain ⟨other, otherMember, rfl⟩ := List.mem_map.mp leftMember
  obtain rfl : right = key record := by simpa using rightMember
  exact absent other otherMember same

end Distinct

variable [DecidableEq Key] (key : Record → Key)

def find (table : List Record) (wanted : Key) : Option Record :=
  table.find? fun record => key record = wanted

def erase (table : List Record) (unwanted : Key) : List Record :=
  table.filter fun record => key record ≠ unwanted

def put (table : List Record) (record : Record) : List Record :=
  erase key table (key record) ++ [record]

def modify (table : List Record) (wanted : Key) (change : Record → Record) : List Record :=
  table.map fun record => if key record = wanted then change record else record

variable {key} {table : List Record}

theorem find_eq_none : find key table wanted = none ↔ ∀ record ∈ table, key record ≠ wanted := by
  simp [find]

theorem mem_of_find {record : Record} (found : find key table wanted = some record) :
    record ∈ table ∧ key record = wanted :=
  ⟨List.mem_of_find?_eq_some found, by simpa using List.find?_some found⟩

theorem Distinct.find_eq_some (distinct : Distinct key table) {record : Record} :
    find key table wanted = some record ↔ record ∈ table ∧ key record = wanted := by
  constructor
  · exact mem_of_find
  · rintro ⟨member, rfl⟩
    cases found : find key table (key record) with
    | none => exact absurd rfl (find_eq_none.mp found record member)
    | some other =>
      obtain ⟨otherMember, same⟩ := mem_of_find found
      rw [distinct.eq_of_key otherMember member same]

@[simp] theorem mem_erase {record : Record} :
    record ∈ erase key table unwanted ↔ record ∈ table ∧ key record ≠ unwanted := by
  simp [erase]

@[simp] theorem mem_put {stored record : Record} :
    record ∈ put key table stored ↔
      (record ∈ table ∧ key record ≠ key stored) ∨ record = stored := by
  simp [put]

theorem mem_modify {record : Record} :
    record ∈ modify key table wanted change ↔ (record ∈ table ∧ key record ≠ wanted) ∨
        ∃ before ∈ table, key before = wanted ∧ change before = record := by
  constructor
  · intro member
    obtain ⟨before, beforeMember, image⟩ := List.mem_map.mp member
    by_cases same : key before = wanted
    · rw [if_pos same] at image
      exact .inr ⟨before, beforeMember, same, image⟩
    · rw [if_neg same] at image
      subst image
      exact .inl ⟨beforeMember, same⟩
  · rintro (⟨member, other⟩ | ⟨before, member, same, rfl⟩)
    · exact List.mem_map.mpr ⟨record, member, if_neg other⟩
    · exact List.mem_map.mpr ⟨before, member, if_pos same⟩

theorem Distinct.mem_modify (distinct : Distinct key table) (member : before ∈ table)
    {record : Record} :
    record ∈ modify key table (key before) change ↔
      (record ∈ table ∧ key record ≠ key before) ∨ record = change before := by
  rw [Keyed.mem_modify]
  refine or_congr_right ⟨?_, ?_⟩
  · rintro ⟨other, otherMember, same, rfl⟩
    rw [distinct.eq_of_key otherMember member same]
  · rintro rfl
    exact ⟨before, member, rfl, rfl⟩

theorem erase_of_absent (absent : ∀ record ∈ table, key record ≠ unwanted) :
    erase key table unwanted = table := by
  simpa [erase] using absent

theorem Distinct.erase (distinct : Distinct key table) (unwanted : Key) :
    Distinct key (erase key table unwanted) :=
  distinct.sublist List.filter_sublist

theorem Distinct.put (distinct : Distinct key table) (record : Record) :
    Distinct key (put key table record) := by
  refine (distinct.erase (key record)).append ?_
  intro other member
  exact (mem_erase.mp member).2

theorem map_modify {view : Record → Image} (keeps : ∀ record, view (change record) = view record) :
    (modify key table wanted change).map view = table.map view := by
  unfold modify
  rw [List.map_map]
  refine List.map_congr_left ?_
  intro record _
  show view (if key record = wanted then change record else record) = _
  split
  · exact keeps record
  · rfl

end Pro2Call.Data.Keyed

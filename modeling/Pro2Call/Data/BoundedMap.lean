import Mathlib.Data.Finmap

namespace Pro2Call.Data

inductive UpdateFlag where
  | any
  | noexist
  | exist
  deriving DecidableEq, Repr

inductive MapError where
  | exists
  | missing
  | full
  deriving DecidableEq, Repr

/-- A finite map that never holds more than `maxEntries` keys. -/
structure BoundedMap (Key Value : Type) [DecidableEq Key] where
  entries : Finmap fun _ : Key => Value
  maxEntries : Nat
  within : entries.keys.card ≤ maxEntries

namespace BoundedMap

variable {Key Value : Type} [DecidableEq Key]

instance [DecidableEq Value] : DecidableEq (BoundedMap Key Value) :=
  fun left right => decidable_of_iff
    (left.entries = right.entries ∧ left.maxEntries = right.maxEntries)
    ⟨fun equal => by
      cases left
      cases right
      simp_all,
      fun equal => by simp [equal]⟩

def empty (maxEntries : Nat) : BoundedMap Key Value where
  entries := ∅
  maxEntries := maxEntries
  within := by simp

def lookup (map : BoundedMap Key Value) (key : Key) : Option Value := map.entries.lookup key

def Full (map : BoundedMap Key Value) : Prop := map.maxEntries ≤ map.entries.keys.card

instance (map : BoundedMap Key Value) : Decidable map.Full := inferInstanceAs (Decidable (_ ≤ _))

private theorem keys_insert (entries : Finmap fun _ : Key => Value) (key : Key) (value : Value) :
    (entries.insert key value).keys = insert key entries.keys := by
  ext candidate
  simp [Finmap.mem_keys, Finmap.mem_insert]

def put (map : BoundedMap Key Value) (key : Key) (value : Value)
    (room : (map.lookup key).isSome ∨ ¬ map.Full) : BoundedMap Key Value where
  entries := map.entries.insert key value
  maxEntries := map.maxEntries
  within := by
    rw [keys_insert]
    rcases room with present | room
    · have member : key ∈ map.entries.keys :=
        Finmap.mem_keys.mpr (Finmap.lookup_isSome.mp present)
      rw [Finset.insert_eq_of_mem member]
      exact map.within
    · have bound := Finset.card_insert_le key map.entries.keys
      unfold Full at room
      omega

def remove (map : BoundedMap Key Value) (key : Key) :
    BoundedMap Key Value where
  entries := map.entries.erase key
  maxEntries := map.maxEntries
  within := by
    rw [Finmap.keys_erase]
    exact le_trans (Finset.card_le_card (Finset.erase_subset _ _)) map.within

def update (map : BoundedMap Key Value) (key : Key) (value : Value)
    (flag : UpdateFlag) : Except MapError (BoundedMap Key Value) :=
  if present : (map.lookup key).isSome then
    if flag = .noexist then .error .exists
    else .ok (map.put key value (.inl present))
  else if flag = .exist then .error .missing
  else if room : map.Full then .error .full
  else .ok (map.put key value (.inr room))

def delete (map : BoundedMap Key Value) (key : Key) : Except MapError (BoundedMap Key Value) :=
  if (map.lookup key).isSome then .ok (map.remove key) else .error .missing

theorem ext_lookup {left right : BoundedMap Key Value}
    (capacity : left.maxEntries = right.maxEntries)
    (contents : ∀ key, left.lookup key = right.lookup key) : left = right := by
  have entries : left.entries = right.entries := Finmap.ext_lookup contents
  cases left
  cases right
  simp_all

@[simp] theorem lookup_empty (maxEntries : Nat) (key : Key) :
    (empty maxEntries : BoundedMap Key Value).lookup key = none :=
  Finmap.lookup_empty key

@[simp] theorem lookup_put_self (map : BoundedMap Key Value) (key : Key)
    (value : Value) (room : (map.lookup key).isSome ∨ ¬ map.Full) :
    (map.put key value room).lookup key = some value :=
  Finmap.lookup_insert map.entries

theorem lookup_put_of_ne (map : BoundedMap Key Value) {key other : Key}
    (value : Value) (room : (map.lookup key).isSome ∨ ¬ map.Full)
    (distinct : other ≠ key) :
    (map.put key value room).lookup other = map.lookup other :=
  Finmap.lookup_insert_of_ne map.entries distinct

theorem lookup_put (map : BoundedMap Key Value) (key other : Key)
    (value : Value) (room : (map.lookup key).isSome ∨ ¬ map.Full) :
    (map.put key value room).lookup other =
      if other = key then some value else map.lookup other := by
  by_cases same : other = key
  · subst other
    simp
  · simp [same, lookup_put_of_ne map value room same]

@[simp] theorem lookup_remove_self (map : BoundedMap Key Value) (key : Key) :
    (map.remove key).lookup key = none :=
  Finmap.lookup_erase key map.entries

theorem lookup_remove_of_ne (map : BoundedMap Key Value) {key other : Key}
    (distinct : other ≠ key) :
    (map.remove key).lookup other = map.lookup other :=
  Finmap.lookup_erase_ne distinct

theorem lookup_remove (map : BoundedMap Key Value) (key other : Key) :
    (map.remove key).lookup other =
      if other = key then none else map.lookup other := by
  by_cases same : other = key
  · subst other
    simp
  · simp [same, lookup_remove_of_ne map same]

theorem remove_put_of_missing (map : BoundedMap Key Value) {key : Key}
    (value : Value) (room : (map.lookup key).isSome ∨ ¬ map.Full)
    (missing : map.lookup key = none) :
    (map.put key value room).remove key = map := by
  refine ext_lookup rfl ?_
  intro other
  rw [lookup_remove]
  by_cases same : other = key
  · subst other
    simp [missing]
  · simp [same, lookup_put_of_ne map value room same]

theorem put_eq_self_iff (map : BoundedMap Key Value) {key : Key} (value : Value)
    (room : (map.lookup key).isSome ∨ ¬ map.Full)
    (present : map.lookup key = some old) :
    map.put key value room = map ↔ old = value := by
  constructor
  · intro equal
    have value_eq := congrArg (fun result => result.lookup key) equal
    simp only [lookup_put_self, present, Option.some.injEq] at value_eq
    exact value_eq.symm
  · rintro rfl
    refine ext_lookup rfl ?_
    intro other
    rw [lookup_put]
    by_cases same : other = key
    · subst other
      simp [present]
    · simp [same]

theorem remove_ne_self (map : BoundedMap Key Value) {key : Key}
    (present : (map.lookup key).isSome) : map.remove key ≠ map := by
  intro equal
  have absent := congrArg (fun result => result.lookup key) equal
  simp only [lookup_remove_self] at absent
  simp [← absent] at present

theorem delete_of_present {map : BoundedMap Key Value} {key : Key}
    (present : (map.lookup key).isSome) :
    map.delete key = .ok (map.remove key) := by
  simp [delete, present]

theorem delete_of_missing {map : BoundedMap Key Value} {key : Key}
    (missing : map.lookup key = none) :
    map.delete key = .error .missing := by
  simp [delete, missing]

theorem update_ok {map result : BoundedMap Key Value} {key : Key}
    {value : Value} {flag : UpdateFlag}
    (accepted : map.update key value flag = .ok result) :
    ∃ room, result = map.put key value room := by
  unfold update at accepted
  split at accepted
  · split at accepted
    · cases accepted
    · exact ⟨_, (Except.ok.inj accepted).symm⟩
  · split at accepted
    · cases accepted
    · split at accepted
      · cases accepted
      · exact ⟨_, (Except.ok.inj accepted).symm⟩

theorem missing_of_update_noexist_ok {map result : BoundedMap Key Value} {key : Key} {value : Value}
    (accepted : map.update key value .noexist = .ok result) :
    map.lookup key = none := by
  unfold update at accepted
  split at accepted
  · simp at accepted
  · next absent => simpa using absent

end BoundedMap

end Pro2Call.Data

import Mathlib.Data.List.Induction

/-! Cells written one after another: the last write to a cell stays. -/

namespace Pro2Call.Data

variable {Key Value Event : Type*} [DecidableEq Key]

def write (cells : Key → Option Value) (key : Key) (value : Value) : Key → Option Value :=
  fun other => if other = key then some value else cells other

@[simp] theorem write_same (cells : Key → Option Value) (key : Key)
    (value : Value) : write cells key value key = some value :=
  if_pos rfl

theorem write_other (cells : Key → Option Value) {key other : Key}
    (value : Value) (differs : other ≠ key) :
    write cells key value other = cells other :=
  if_neg differs

def writeTo (target : Event → Option Key) (value : Event → Value)
    (cells : Key → Option Value) (event : Event) : Key → Option Value :=
  match target event with
  | some key => write cells key (value event)
  | none => cells

variable {target : Event → Option Key} {value : Event → Value}

theorem writeTo_hit {key : Key} (hit : target event = some key) :
    writeTo target value cells event key = some (value event) := by
  simp [writeTo, hit]

theorem writeTo_miss {key : Key} (miss : target event ≠ some key) :
    writeTo target value cells event key = cells key := by
  unfold writeTo
  cases aimed : target event with
  | none => rfl
  | some other =>
    apply write_other
    rintro rfl
    exact miss aimed

theorem foldl_writeTo (events : List Event) (key : Key) :
    events.foldl (writeTo target value) (fun _ => none) key =
      ((events.filter fun event => target event = some key).getLast?).map value := by
  induction events using List.reverseRecOn with
  | nil => rfl
  | append_singleton events event ih =>
    rw [List.foldl_append, List.filter_append]
    simp only [List.foldl_cons, List.foldl_nil]
    by_cases hit : target event = some key
    · rw [writeTo_hit hit]
      simp [hit]
    · rw [writeTo_miss hit, ih]
      simp [hit]

theorem getLast?_filter_and {keep also : Event → Bool} {events : List Event}
    (meets : ∀ event, (events.filter keep).getLast? = some event → also event = true) :
    (events.filter fun event => keep event && also event).getLast? =
      (events.filter keep).getLast? := by
  induction events using List.reverseRecOn with
  | nil => rfl
  | append_singleton events event ih =>
    by_cases kept : keep event = true
    · have last : also event = true := meets event (by simp [kept])
      simp [List.filter_append, kept, last]
    · rw [List.filter_append, List.filter_cons_of_neg kept, List.filter_nil,
        List.append_nil] at meets
      simp [List.filter_append, kept, ih meets]

end Pro2Call.Data

import Mathlib.Data.List.Basic
import Pro2Call.Data.Run

/-! A buffer that is filled from the front. A write that does not fit is
refused, and with it every later one. -/

namespace Pro2Call.Data

variable {α : Type}

structure OutBuf (α : Type) where
  cap : Nat
  out : List α := []
  overflow : Bool := false
  within : out.length ≤ cap := by simp
  deriving DecidableEq

namespace OutBuf

def put (w : OutBuf α) (text : List α) : OutBuf α :=
  if full : w.overflow = true ∨ w.cap - w.out.length < text.length then
    { w with overflow := true }
  else
    { w with
      out := w.out ++ text
      within := by
        have room := w.within
        rw [List.length_append]
        omega }

/-- Unless it overflowed, `w'` is `w` with `text` behind. -/
def Extends (w w' : OutBuf α) (text : List α) : Prop :=
  w'.cap = w.cap ∧ (w'.overflow = false → w.overflow = false ∧ w'.out = w.out ++ text)

theorem extends_refl (w : OutBuf α) : Extends w w [] :=
  ⟨rfl, fun fits => ⟨fits, (List.append_nil _).symm⟩⟩

theorem Extends.trans {text more : List α}
    (before : Extends first second text) (after : Extends second third more) :
    Extends first third (text ++ more) := by
  refine ⟨after.1.trans before.1, fun fits => ?_⟩
  obtain ⟨middle, out⟩ := after.2 fits
  obtain ⟨start, front⟩ := before.2 middle
  exact ⟨start, by rw [out, front, List.append_assoc]⟩

theorem extends_put (w : OutBuf α) (text : List α) : Extends w (w.put text) text := by
  unfold OutBuf.put
  split
  · exact ⟨rfl, fun fits => by cases fits⟩
  · exact ⟨rfl, fun fits => ⟨fits, rfl⟩⟩

theorem Extends.put {w w' : OutBuf α} {text : List α} (before : Extends w w' text)
    (more : List α) : Extends w (w'.put more) (text ++ more) :=
  before.trans (extends_put w' more)

variable {Error Result Call : Type}

def checked (done : OutBuf α × Except Error Result) : Except Error (OutBuf α × Result) :=
  done.2.map fun result => (done.1, result)

theorem checked_ok {done : OutBuf α × Except Error Result} (ok : checked done = .ok (w, result)) :
    done = (w, .ok result) := by
  obtain ⟨value, returned, same⟩ := exists_of_map_ok ok
  cases same
  exact Prod.ext rfl returned

def putAll (put : OutBuf α → Call → OutBuf α × Except Error Unit) :
    OutBuf α → List Call → Except Error (OutBuf α)
  | w, [] => .ok w
  | w, call :: calls => do
      let (w, _) ← checked (put w call)
      putAll put w calls

theorem putAll_ok {put : OutBuf α → Call → OutBuf α × Except Error Unit} {valid : Call → Prop}
    {text : Call → List α}
    (puts : ∀ w w' call, put w call = (w', .ok ()) → valid call ∧ Extends w w' (text call))
    {calls : List Call} (ok : putAll put w calls = .ok w') :
    (∀ call ∈ calls, valid call) ∧ Extends w w' (calls.flatMap text) := by
  induction calls generalizing w with
  | nil =>
    cases ok
    exact ⟨by simp, extends_refl _⟩
  | cons call calls ih =>
    obtain ⟨⟨middle, _⟩, first, ok⟩ := exists_of_bind_ok ok
    obtain ⟨sound, wrote⟩ := puts _ _ _ (checked_ok first)
    obtain ⟨others, after⟩ := ih ok
    exact ⟨List.forall_mem_cons.mpr ⟨sound, others⟩, wrote.trans after⟩

end OutBuf

end Pro2Call.Data

import Pro2Call.Task.TlvForest

namespace Pro2Call.Task

inductive TlvLevel : TlvIter → List TlvView → TlvIter → Prop
  | start (it : TlvIter) : TlvLevel it [] it
  | next {it later last : TlvIter} {v : TlvView} {vs : List TlvView}
      (read : tlvIterNext it = some (v, later)) (others : TlvLevel later vs last) :
      TlvLevel it (v :: vs) last

/-- The iterators over `payload` and over the entries below it, at any depth. -/
inductive TlvReached (prof : TlvProf) (payload : List UInt8) : TlvIter → Prop
  | init : TlvReached prof payload (tlvIterInit prof payload)
  | grouped {it last : TlvIter} {v : TlvView} {vs : List TlvView}
      (above : TlvReached prof payload it) (level : TlvLevel it vs last) (yielded : v ∈ vs) :
      TlvReached prof payload (tlvIterGrouped it prof v)

/-- One call of a walk with the iterators of the open entries, the innermost
first. The walk may descend into the entry it was given, and at the end of an
entry it goes on behind it. -/
def tlvWalkStep (prof : TlvProf) (descend : Bool) : List TlvIter → List TlvIter
  | [] => []
  | it :: outer =>
    match tlvIterNext it with
    | none => outer
    | some (v, next) =>
      if descend then tlvIterGrouped it prof v :: next :: outer else next :: outer

def tlvWalk (prof : TlvProf) (payload : List UInt8) (descend : Nat → Bool) : Nat → List TlvIter
  | 0 => [tlvIterInit prof payload]
  | n + 1 => tlvWalkStep prof (descend n) (tlvWalk prof payload descend n)

structure TlvIter.Inside (prof : TlvProf) (it : TlvIter) : Prop where
  prof_eq : it.prof = prof
  ordered : it.cur ≤ it.stop

theorem TlvFormat.le_hdrLen (format : TlvFormat) : 4 ≤ format.prof.hdrLen := by
  cases format <;> decide

theorem inside_init (prof : TlvProf) (payload : List UInt8) :
    (tlvIterInit prof payload).Inside prof :=
  ⟨rfl, Nat.zero_le _⟩

theorem inside_grouped (it : TlvIter) (prof : TlvProf) (v : TlvView) :
    (tlvIterGrouped it prof v).Inside prof :=
  ⟨rfl, Nat.le_add_right _ _⟩

theorem TlvReached.inside {prof : TlvProf} {it : TlvIter}
    (reached : TlvReached prof payload it) : it.Inside prof := by
  cases reached with
  | init => exact inside_init prof payload
  | grouped above level yielded => exact inside_grouped _ prof _

section Calls

variable {prof : TlvProf} {it next last : TlvIter} {v : TlvView} {vs : List TlvView}

theorem tlvIterNext_bounds (inside : it.Inside prof) (read : tlvIterNext it = some (v, next)) :
    next.Inside prof ∧ next.stop = it.stop ∧ v.value = it.cur + prof.hdrLen ∧
      v.value + v.len ≤ next.cur := by
  obtain ⟨rfl, ordered⟩ := inside
  simp only [tlvIterNext] at read
  split at read
  · cases read
  next header =>
    split at read
    · cases read
    generalize (if it.prof.lenInclHdr = true then tlvLoad it.mem (it.cur + it.prof.lenOff)
        it.prof.lenSize it.prof.bigEndian - it.prof.hdrLen
      else tlvLoad it.mem (it.cur + it.prof.lenOff) it.prof.lenSize it.prof.bigEndian) = vlen
      at read
    split at read
    · cases read
    next room =>
      obtain ⟨rfl, rfl⟩ := Prod.mk.inj (Option.some.inj read)
      have aligned := tlvAlign_ge it.prof.align (it.prof.hdrLen + vlen)
      exact ⟨⟨rfl, by dsimp only; omega⟩, rfl, rfl, by dsimp only; omega⟩

theorem TlvLevel.bounds (inside : it.Inside prof) (level : TlvLevel it vs last) :
    ∀ v ∈ vs, it.cur + prof.hdrLen ≤ v.value ∧ v.value + v.len ≤ it.stop := by
  induction level with
  | start => simp
  | next read others ih =>
    obtain ⟨inner, stop, value, room⟩ := tlvIterNext_bounds inside read
    have ordered := inner.ordered
    intro w member
    rcases List.mem_cons.mp member with rfl | member
    · omega
    · have := ih inner w member
      omega

theorem TlvLevel.ordered (inside : it.Inside prof) (level : TlvLevel it vs last) :
    vs.Pairwise fun v w => v.value + v.len + prof.hdrLen ≤ w.value := by
  induction level with
  | start => exact .nil
  | next read others ih =>
    obtain ⟨inner, -, -, room⟩ := tlvIterNext_bounds inside read
    refine .cons (fun w member => ?_) (ih inner)
    have := (others.bounds inner w member).1
    omega

end Calls

/-- The bytes that a walk has still to look at, and one for the end of each entry. -/
def tlvWalkLeft (stack : List TlvIter) : Nat := (stack.map fun it => it.stop - it.cur + 1).sum

theorem tlvWalkStep_left (format : TlvFormat) (descend : Bool)
    (inside : ∀ it ∈ stack, it.Inside format.prof) :
    (∀ it ∈ tlvWalkStep format.prof descend stack, it.Inside format.prof) ∧
      tlvWalkLeft (tlvWalkStep format.prof descend stack) ≤ tlvWalkLeft stack - 1 := by
  cases stack with
  | nil => exact ⟨inside, Nat.le_refl _⟩
  | cons it outer =>
    obtain ⟨here, around⟩ := List.forall_mem_cons.mp inside
    have header := format.le_hdrLen
    rw [tlvWalkStep]
    split
    · refine ⟨around, ?_⟩
      simp only [tlvWalkLeft, List.map_cons, List.sum_cons]
      omega
    next v next read =>
      obtain ⟨inner, stop, value, room⟩ := tlvIterNext_bounds here read
      have ordered := inner.ordered
      cases descend with
      | true =>
        refine ⟨List.forall_mem_cons.mpr ⟨inside_grouped it _ v,
          List.forall_mem_cons.mpr ⟨inner, around⟩⟩, ?_⟩
        simp only [if_true, tlvWalkLeft, tlvIterGrouped, List.map_cons, List.sum_cons]
        omega
      | false =>
        refine ⟨List.forall_mem_cons.mpr ⟨inner, around⟩, ?_⟩
        simp only [Bool.false_eq_true, if_false, tlvWalkLeft, List.map_cons, List.sum_cons]
        omega

theorem tlvWalk_left (format : TlvFormat) (payload : List UInt8) (descend : Nat → Bool) (n : Nat) :
    (∀ it ∈ tlvWalk format.prof payload descend n, it.Inside format.prof) ∧
      tlvWalkLeft (tlvWalk format.prof payload descend n) ≤ payload.length + 1 - n := by
  induction n with
  | zero =>
    exact ⟨List.forall_mem_singleton.mpr (inside_init _ payload), by
      simp [tlvWalk, tlvWalkLeft, tlvIterInit]⟩
  | succ n ih =>
    obtain ⟨inside, left⟩ := tlvWalkStep_left format (descend n) ih.1
    exact ⟨inside, left.trans (by omega)⟩

/-- Whatever the bytes and wherever the walk descends, it ends after at most one
call more than there are bytes. The entries of a level lie in the value of the
entry around them, each with its header behind the one before. -/
theorem tlvWalk_ends_nested (format : TlvFormat) (payload : List UInt8) :
    (∀ descend, tlvWalk format.prof payload descend (payload.length + 1) = []) ∧
      ∀ it, TlvReached format.prof payload it → ∀ vs last, TlvLevel it vs last →
        (∀ v ∈ vs, it.cur ≤ v.value ∧ v.value + v.len ≤ it.stop) ∧
          vs.Pairwise fun v w => v.value + v.len + format.prof.hdrLen ≤ w.value := by
  constructor
  · intro descend
    have left := (tlvWalk_left format payload descend (payload.length + 1)).2
    rw [Nat.sub_self, Nat.le_zero] at left
    cases rest : tlvWalk format.prof payload descend (payload.length + 1) with
    | nil => rfl
    | cons it outer =>
      rw [rest] at left
      simp [tlvWalkLeft] at left
  · intro it reached vs last level
    refine ⟨fun v member => ?_, level.ordered reached.inside⟩
    have bounds := level.bounds reached.inside v member
    omega

end Pro2Call.Task

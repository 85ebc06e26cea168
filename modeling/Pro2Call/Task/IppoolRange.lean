import Pro2Call.Task.Ippool

namespace Pro2Call.Task

open Pro2Call.Data

structure SameFamily (first last : IppoolAddr) : Prop where
  len : first.len = last.len
  valid : first.len = ippoolV4 ∨ first.len = ippoolV6

/-- The pool's addresses are the `count` consecutive ones from `first` on. -/
structure StartsAt (pool : Ippool) (first : IppoolAddr) (count : Nat) :
    Prop where
  size : pool.size = count
  addr : ∀ slot < pool.size, ∃ addr, ippoolAddrAt pool slot = .ok addr ∧
    addr.len = first.len ∧ addr.value = first.value + slot

/-- What a caller asks of a range: there is a pool exactly for an ordered
range, and it covers the range up to the largest pool. -/
structure RangeServed (first last : IppoolAddr) : Prop where
  built_iff : (∃ pool, ippoolCreateRange first last = .ok pool) ↔ first.value ≤ last.value
  covers : ∀ pool, ippoolCreateRange first last = .ok pool →
    StartsAt pool first (min (last.value - first.value + 1) ippoolMaxSize)

theorem SameFamily.accepted {first last : IppoolAddr} (family : SameFamily first last) :
    ¬ (first.len ≠ last.len ∨ (first.len ≠ ippoolV4 ∧ first.len ≠ ippoolV6)) := by
  rintro (apart | ⟨notV4, notV6⟩)
  · exact apart family.len
  · exact family.valid.elim notV4 notV6

theorem createRange_of_narrow {first last : IppoolAddr}
    (family : SameFamily first last) (ordered : first.value ≤ last.value)
    (narrow : last.value - first.value < 2 ^ 64) :
    ippoolCreateRange first last = .ok (freshPool first.b
      (min (last.value - first.value + 1) ippoolMaxSize)) := by
  have delta : addrDelta last.b first.b = some (last.value - first.value) := by
    rw [addrDelta_eq family.len.symm, if_pos ⟨ordered, narrow⟩]
    rfl
  rw [ippoolCreateRange, if_neg family.accepted, delta]
  dsimp only
  split
  · rename_i whole
    rw [poolNew_of_pos _ (by decide), whole]
    rfl
  · exact poolNew_of_pos _ (Nat.succ_pos _)

theorem createRange_of_not_narrow {first last : IppoolAddr} (family : SameFamily first last)
    (refused : ¬ (first.value ≤ last.value ∧ last.value - first.value < 2 ^ 64)) :
    ippoolCreateRange first last = .error "ippool: range end precedes its start" := by
  have delta : addrDelta last.b first.b = none := by
    rw [addrDelta_eq family.len.symm]
    exact if_neg refused
  rw [ippoolCreateRange, if_neg family.accepted, delta]

theorem startsAt_freshPool {first : IppoolAddr} {count : Nat}
    (inside : first.value + count ≤ 256 ^ first.len) :
    StartsAt (freshPool first.b count) first count where
  size := rfl
  addr := by
    intro slot below
    have below' : slot < count := below
    refine ⟨slotAddr (freshPool first.b count) slot, ?_, ?_, ?_⟩
    · exact if_neg (Nat.not_le_of_lt below)
    · exact len_slotAddr _ _
    · apply value_slotAddr
      calc
        beNat first.b + slot < first.value + count := Nat.add_lt_add_left below' _
        _ ≤ 256 ^ first.len := inside

/-- A range is served as asked, except when it is ordered and spans more than
64 bits. -/
theorem range_served_iff {first last : IppoolAddr} (family : SameFamily first last) :
    RangeServed first last ↔ last.value < first.value ∨ last.value - first.value < 2 ^ 64 := by
  by_cases narrow : first.value ≤ last.value ∧ last.value - first.value < 2 ^ 64
  · have built := createRange_of_narrow family narrow.1 narrow.2
    refine ⟨fun _ => Or.inr narrow.2, fun _ => ⟨?_, ?_⟩⟩
    · exact ⟨fun _ => narrow.1, fun _ => ⟨_, built⟩⟩
    · intro pool same
      rw [built] at same
      obtain rfl := Except.ok.inj same
      apply startsAt_freshPool
      have bounded := last.value_lt
      rw [← family.len] at bounded
      omega
  · have refused := createRange_of_not_narrow family narrow
    constructor
    · intro served
      by_cases ordered : first.value ≤ last.value
      · obtain ⟨pool, built⟩ := served.built_iff.mpr ordered
        rw [refused] at built
        exact absurd built (by simp)
      · exact Or.inl (Nat.lt_of_not_le ordered)
    · intro condition
      refine ⟨⟨?_, ?_⟩, ?_⟩
      · rintro ⟨pool, built⟩
        rw [refused] at built
        exact absurd built (by simp)
      · intro ordered
        rcases condition with reversed | span
        · omega
        · exact absurd ⟨ordered, span⟩ narrow
      · intro pool built
        rw [refused] at built
        exact absurd built (by simp)

theorem range_served_of_scope :
    SameFamily (ippoolAddr4 0x0A2D0064) (ippoolAddr4 0x0A2D00C8) ∧
      RangeServed (ippoolAddr4 0x0A2D0064) (ippoolAddr4 0x0A2D00C8) := by
  have family : SameFamily (ippoolAddr4 0x0A2D0064)
      (ippoolAddr4 0x0A2D00C8) := ⟨by decide, by decide⟩
  exact ⟨family, (range_served_iff family).mpr (Or.inr (by decide))⟩

def zeroAddr6 : IppoolAddr := ⟨List.replicate 16 0⟩
def wideAddr6 : IppoolAddr := ⟨[0, 0, 0, 0, 0, 0, 0, 1] ++ List.replicate 8 0⟩

theorem wide_range_refused :
    SameFamily zeroAddr6 wideAddr6 ∧ zeroAddr6.value ≤ wideAddr6.value ∧
      ippoolCreateRange zeroAddr6 wideAddr6 = .error "ippool: range end precedes its start" ∧
      ¬ RangeServed zeroAddr6 wideAddr6 := by
  have refused : ippoolCreateRange zeroAddr6 wideAddr6 =
      .error "ippool: range end precedes its start" := by
    decide
  refine ⟨⟨by decide, by decide⟩, by decide, refused, ?_⟩
  intro served
  obtain ⟨pool, built⟩ := served.built_iff.mpr (by decide)
  rw [refused] at built
  exact absurd built (by simp)

end Pro2Call.Task

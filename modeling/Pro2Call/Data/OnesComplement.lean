import Pro2Call.Data.Bytes

namespace Pro2Call.Data

def onesAdd (first second : Nat) : Nat := (first + second) % 65536 + (first + second) / 65536

def onesSumFrom : Nat → List UInt8 → Nat
  | sum, [] => sum
  | sum, [last] => onesAdd sum (256 * last.toNat)
  | sum, high :: low :: rest =>
    onesSumFrom (onesAdd sum (256 * high.toNat + low.toNat)) rest

/-- The one's-complement sum of the 16-bit words of a byte string in network
order, with a zero byte appended to an odd one. -/
def onesSum (bytes : List UInt8) : Nat := onesSumFrom 0 bytes

def leWordSum : List UInt8 → Nat
  | [] => 0
  | [last] => last.toNat
  | low :: high :: rest => low.toNat + 256 * high.toNat + leWordSum rest

def foldCarry (sum : Nat) : Nat := sum % 65536 + sum / 65536

/-- Two sums that carry down to the same 16-bit value. -/
structure SameOnes (first second : Nat) : Prop where
  mod_eq : first % 65535 = second % 65535
  zero_iff : first = 0 ↔ second = 0

theorem SameOnes.refl (sum : Nat) : SameOnes sum sum := ⟨rfl, Iff.rfl⟩

theorem SameOnes.trans (same : SameOnes first second) (same' : SameOnes second third) :
    SameOnes first third :=
  ⟨same.mod_eq.trans same'.mod_eq, same.zero_iff.trans same'.zero_iff⟩

theorem SameOnes.add (same : SameOnes first second)
    (third : Nat) : SameOnes (first + third) (second + third) := by
  have mod := same.mod_eq
  have zero := same.zero_iff
  constructor <;> omega

theorem sameOnes_foldCarry (sum : Nat) : SameOnes (foldCarry sum) sum := by
  unfold foldCarry
  constructor <;> omega

theorem sameOnes_onesAdd (first second : Nat) :
    SameOnes (onesAdd first second) (first + second) := by
  unfold onesAdd
  constructor <;> omega

theorem onesAdd_le (firstWord : first ≤ 65535)
    (secondWord : second ≤ 65535) : onesAdd first second ≤ 65535 := by
  unfold onesAdd
  omega

theorem foldCarry_twice_le (narrow : sum < 2 ^ 32) : foldCarry (foldCarry sum) ≤ 65535 := by
  unfold foldCarry
  omega

theorem SameOnes.eq_full_iff {value sum : Nat} (same : SameOnes value sum)
    (narrow : value ≤ 65535) :
    value = 65535 ↔ sum ≠ 0 ∧ sum % 65535 = 0 := by
  have mod := same.mod_eq
  have zero := same.zero_iff
  omega

/-- The 16-bit value that a sum carries down to. -/
def onesFold (sum : Nat) : Nat := if sum ≤ 65535 then sum else onesFold (foldCarry sum)
termination_by sum
decreasing_by
  unfold foldCarry
  omega

theorem onesFold_spec (sum : Nat) : onesFold sum ≤ 65535 ∧ SameOnes (onesFold sum) sum := by
  fun_induction onesFold sum with
  | case1 sum narrow => exact ⟨narrow, SameOnes.refl sum⟩
  | case2 sum _ ih => exact ⟨ih.1, ih.2.trans (sameOnes_foldCarry sum)⟩

theorem SameOnes.eq_onesFold {value sum : Nat} (same : SameOnes value sum)
    (narrow : value ≤ 65535) : value = onesFold sum := by
  obtain ⟨bound, folded⟩ := onesFold_spec sum
  have mod := same.mod_eq.trans folded.mod_eq.symm
  have zero := same.zero_iff.trans folded.zero_iff.symm
  omega

def beWordSum : List UInt8 → Nat
  | [] => 0
  | [last] => 256 * last.toNat
  | high :: low :: rest => 256 * high.toNat + low.toNat + beWordSum rest

theorem beWordSum_swap (bytes : List UInt8) :
    beWordSum bytes % 65535 = 256 * leWordSum bytes % 65535 ∧
      (beWordSum bytes = 0 ↔ leWordSum bytes = 0) := by
  fun_induction beWordSum bytes with
  | case1 => simp [leWordSum]
  | case2 last =>
    refine ⟨rfl, ?_⟩
    simp only [leWordSum]
    omega
  | case3 high low rest ih =>
    simp only [leWordSum]
    omega

theorem onesSumFrom_spec (narrow : sum ≤ 65535) (bytes : List UInt8) :
    onesSumFrom sum bytes ≤ 65535 ∧ SameOnes (onesSumFrom sum bytes) (sum + beWordSum bytes) := by
  fun_induction onesSumFrom sum bytes with
  | case1 sum => exact ⟨narrow, by simpa [beWordSum] using SameOnes.refl sum⟩
  | case2 sum last =>
    have octet := last.toNat_lt
    exact ⟨onesAdd_le narrow (by omega), sameOnes_onesAdd _ _⟩
  | case3 sum high low rest ih =>
    have highOctet := high.toNat_lt
    have lowOctet := low.toNat_lt
    obtain ⟨bound, same⟩ := ih (onesAdd_le narrow (by omega))
    refine ⟨bound, same.trans ?_⟩
    have added := (sameOnes_onesAdd sum (256 * high.toNat + low.toNat)).add (beWordSum rest)
    rwa [Nat.add_assoc] at added

theorem onesSum_eq_full_iff (bytes : List UInt8) :
    onesSum bytes = 65535 ↔ leWordSum bytes ≠ 0 ∧ leWordSum bytes % 65535 = 0 := by
  obtain ⟨narrow, same⟩ := onesSumFrom_spec (Nat.zero_le 65535) bytes
  have swapped := beWordSum_swap bytes
  rw [Nat.zero_add] at same
  rw [onesSum, same.eq_full_iff narrow]
  omega

theorem leWordSum_append {first : List UInt8} (even : first.length % 2 = 0) (second : List UInt8) :
    leWordSum (first ++ second) = leWordSum first + leWordSum second := by
  fun_induction leWordSum first with
  | case1 => simp
  | case2 last => simp at even
  | case3 low high rest ih =>
    have shorter : rest.length % 2 = 0 := by
      simp only [List.length_cons] at even
      omega
    simp only [List.cons_append, leWordSum, ih shorter]
    omega

theorem leWordSum_eq_zero {bytes : List UInt8} (zero : leWordSum bytes = 0)
    (member : byte ∈ bytes) : byte = 0 := by
  have octet : ∀ value : UInt8, value.toNat = 0 → value = 0 := by
    intro value zero
    exact UInt8.toNat_inj.mp zero
  fun_induction leWordSum bytes with
  | case1 => cases member
  | case2 last => exact List.mem_singleton.mp member ▸ octet last zero
  | case3 low high rest ih =>
    rcases List.mem_cons.mp member with rfl | member
    · exact octet byte (by omega)
    · rcases List.mem_cons.mp member with rfl | member
      · exact octet byte (by omega)
      · exact ih (by omega) member

theorem leWordSum_replicate_zero :
    ∀ count, leWordSum (List.replicate count 0) = 0
  | 0 => rfl
  | 1 => rfl
  | count + 2 => by
    rw [List.replicate_succ, List.replicate_succ, leWordSum, leWordSum_replicate_zero count]
    rfl

theorem leWordSum_append_zeros (bytes : List UInt8) (count : Nat) :
    leWordSum (bytes ++ List.replicate count 0) = leWordSum bytes := by
  fun_induction leWordSum bytes with
  | case1 => exact leWordSum_replicate_zero count
  | case2 last =>
    cases count with
    | zero => rfl
    | succ count =>
      rw [List.replicate_succ, List.singleton_append, leWordSum, leWordSum_replicate_zero]
      rfl
  | case3 low high rest ih =>
    simp only [List.cons_append, leWordSum, ih]

theorem leWordSum_leBytes {value : Nat} (word : value < 65536) :
    leWordSum (leBytes 2 value) = value := by
  simp only [leBytes, beBytes, List.nil_append, List.cons_append,
    List.reverse_cons, List.reverse_nil, leWordSum, UInt8.toNat_ofNat']
  omega

end Pro2Call.Data

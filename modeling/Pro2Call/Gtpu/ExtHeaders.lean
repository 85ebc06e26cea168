import Pro2Call.Gtp1.Wire
import Pro2Call.Gtpu.Decap

namespace Pro2Call.Gtpu

open Pro2Call.Data
open Pro2Call.Task

/-! The two walks over extension headers: the one of the decapsulation program,
with its bound on the headers, and the one of the message codec. -/

def ExtHeaderAt (msg : List UInt8) (off : Nat) : Prop :=
  off < msg.length ∧ (msg.getD off 0).toNat ≠ 0 ∧ off + (msg.getD off 0).toNat * 4 ≤ msg.length

/-- There are at most `n` extension headers from `off` on, of which the first has
the type `next`: the chain ends, or it breaks off. -/
def ChainWithin (msg : List UInt8) : Nat → Nat → UInt8 → Prop
  | 0, _, next => next = 0
  | n + 1, off, next => next ≠ 0 → ExtHeaderAt msg off →
      ChainWithin msg n (off + (msg.getD off 0).toNat * 4)
        (msg.getD (off + (msg.getD off 0).toNat * 4 - 1) 0)

variable {msg : List UInt8} {off : Nat} {next : UInt8}

theorem skipExtensions_of_header (more : next ≠ 0) (header : ExtHeaderAt msg off) :
    Gtp1.skipExtensions msg msg.length off next =
      Gtp1.skipExtensions msg msg.length (off + (msg.getD off 0).toNat * 4)
        (msg.getD (off + (msg.getD off 0).toNat * 4 - 1) 0) := by
  obtain ⟨inside, nonempty, whole⟩ := header
  rw [Gtp1.skipExtensions, if_neg more, if_neg (by omega)]
  simp only
  rw [if_neg (by omega)]

theorem skipExtensions_of_broken (more : next ≠ 0) (broken : ¬ ExtHeaderAt msg off) :
    Gtp1.skipExtensions msg msg.length off next = .error Gtp1.gtp1ELength := by
  rw [Gtp1.skipExtensions, if_neg more]
  split
  · rfl
  next inside =>
    simp only
    rw [if_pos]
    by_contra whole
    exact broken ⟨by omega, by omega, by omega⟩

theorem getElem?_behind (front : List UInt8) (inside : pos < msg.length) :
    (front ++ msg)[front.length + pos]? = some (msg.getD pos 0) := by
  simp [inside]

theorem extWalk_of_header (front : List UInt8)
    (hops : Nat) (more : next ≠ 0) (header : ExtHeaderAt msg off) :
    extWalk (front ++ msg) (hops + 1) (front.length + off) next =
      extWalk (front ++ msg) hops (front.length + (off + (msg.getD off 0).toNat * 4))
        (msg.getD (off + (msg.getD off 0).toNat * 4 - 1) 0) := by
  obtain ⟨inside, nonempty, whole⟩ := header
  have positive : msg.getD off 0 ≠ 0 := fun empty => nonempty (by rw [empty]; rfl)
  have last : front.length + off + (msg.getD off 0).toNat * 4 - 1 =
      front.length + (off + (msg.getD off 0).toNat * 4 - 1) := by omega
  rw [extWalk, if_neg more, getElem?_behind front inside]
  simp only
  rw [if_neg positive, last, getElem?_behind front (by omega), Nat.add_assoc]

theorem extWalk_of_broken (front : List UInt8)
    (hops : Nat) (more : next ≠ 0) (broken : ¬ ExtHeaderAt msg off) :
    extWalk (front ++ msg) (hops + 1) (front.length + off) next = none := by
  rw [extWalk, if_neg more, List.getElem?_append_right (by omega), Nat.add_sub_cancel_left]
  split
  · rfl
  next words found =>
    obtain ⟨inside, rfl⟩ := List.getElem?_eq_some_iff.mp found
    have same : msg.getD off 0 = msg[off] := by simp [inside]
    split
    · rfl
    next nonempty =>
      rw [List.getElem?_eq_none]
      rw [List.length_append]
      by_contra short
      refine broken ⟨inside, fun empty => nonempty (UInt8.toNat_inj.mp ?_), by rw [same]; omega⟩
      rw [← same, empty]
      rfl

theorem extWalk_eq_skipExtensions (front msg : List UInt8)
    (within : ChainWithin msg hops off next) :
    extWalk (front ++ msg) hops (front.length + off) next =
      (Gtp1.skipExtensions msg msg.length off next).toOption.map (front.length + ·) := by
  by_cases ended : next = 0
  · subst ended
    rw [Gtp1.skipExtensions, if_pos rfl]
    cases hops <;> simp [extWalk, Except.toOption]
  induction hops generalizing off next with
  | zero => exact absurd within ended
  | succ hops ih =>
    by_cases header : ExtHeaderAt msg off
    · rw [extWalk_of_header front hops ended header, skipExtensions_of_header ended header]
      have further := within ended header
      by_cases last : msg.getD (off + (msg.getD off 0).toNat * 4 - 1) 0 = 0
      · rw [last, Gtp1.skipExtensions, if_pos rfl]
        cases hops <;> simp [extWalk, Except.toOption]
      · exact ih further last
    · rw [extWalk_of_broken front hops ended header, skipExtensions_of_broken ended header]
      rfl

/-- The payload of a GTP-U message begins where the message codec says, if the
message has at most as many extension headers as the program follows. -/
theorem payloadOff_eq_hdrDecode (front : List UInt8) {msg : List UInt8}
    (version : msg.getD 0 0 &&& 0xf0 = gtpuFVersionPt)
    (flagged : msg.getD 0 0 &&& gtpuFExt ≠ 0)
    (length : gtpuHdrMin + (be16Load msg 2).toNat = msg.length)
    (within : ChainWithin msg gtpuExtMaxHops (gtpuHdrMin + gtpuHdrOpt) (msg.getD 11 0)) :
    payloadOff (front ++ msg) front.length (msg.getD 0 0) =
      (Gtp1.gtp1HdrDecode msg).toOption.map fun decoded => front.length + decoded.2 := by
  have flags : ∀ octet : UInt8, octet &&& 0xf0 = gtpuFVersionPt → octet &&& gtpuFExt ≠ 0 →
      octet &&& (gtpuFExt ||| gtpuFSeq ||| gtpuFNpdu) ≠ 0 ∧ octet >>> 5 = Gtp1.gtp1Version ∧
        (octet &&& Gtp1.flagPt != 0) = true ∧ (octet &&& Gtp1.flagE != 0) = true :=
    forall_octet (by decide +kernel)
  obtain ⟨optional, one, pt, e⟩ := flags _ version flagged
  have total : Gtp1.gtp1HdrMin + (be16Load msg 2).toNat = msg.length := length
  rw [payloadOff, if_pos optional, if_pos flagged, Gtp1.gtp1HdrDecode,
    if_neg (show ¬ msg.length < Gtp1.gtp1HdrMin by omega)]
  simp only [one, pt, e, total, ne_eq, not_true_eq_false, if_false, Bool.not_true,
    Bool.false_eq_true, gt_iff_lt, Nat.lt_irrefl, Bool.true_or, if_true]
  by_cases short : msg.length < Gtp1.gtp1HdrCtrl
  · rw [if_pos short, List.getElem?_eq_none]
    · rfl
    · rw [List.length_append]
      exact Nat.add_le_add_left (Nat.le_of_lt_succ short) _
  · rw [if_neg short, getElem?_behind front (Nat.not_lt.mp short), Nat.add_assoc]
    simp only
    rw [extWalk_eq_skipExtensions front msg within]
    have optional : gtpuHdrMin + gtpuHdrOpt = Gtp1.gtp1HdrCtrl := rfl
    rw [optional]
    cases Gtp1.skipExtensions msg msg.length Gtp1.gtp1HdrCtrl (msg.getD 11 0) <;> rfl

def extendedGpdu : List UInt8 :=
  [0x34, 0xFF, 0, 10, 0, 0, 0, 7, 0, 0, 0, 0x85, 1, 0x10, 9, 0, 0x45, 0]

theorem payloadOff_extendedGpdu :
    payloadOff ([1, 2] ++ extendedGpdu) 2 0x34 =
      (Gtp1.gtp1HdrDecode extendedGpdu).toOption.map fun decoded => 2 + decoded.2 :=
  payloadOff_eq_hdrDecode [1, 2] (by decide) (by decide) (by decide) fun _ _ more => absurd rfl more

end Pro2Call.Gtpu

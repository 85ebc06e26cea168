import Pro2Call.Data.Run
import Pro2Call.Sms.Concat

namespace Pro2Call.Sms

open Pro2Call.Data

/-- The reference a header carries: the 8-bit form holds its low octet. -/
def wireRef (ref : UInt16) (ref16 : Bool) : UInt16 :=
  if ref16 then ref else ref &&& 0xFF

theorem toNat_ref_low (ref : UInt16) : (ref &&& 0xFF).toUInt8.toUInt16.toNat = ref.toNat % 256 := by
  have low (v : Nat) : v &&& 0xFF = v % 256 := Nat.and_two_pow_sub_one_eq_mod v 8
  simp [UInt16.toNat_and, low]

theorem toNat_ref_high (ref : UInt16) :
    ((ref >>> 8).toUInt8.toUInt16 <<< 8).toNat = (ref.toNat / 256) <<< 8 := by
  have small := ref.toNat_lt
  have value : ((ref >>> 8).toUInt8.toUInt16 <<< 8).toNat =
      (ref.toNat >>> 8 % 256) <<< 8 % 65536 := rfl
  rw [value, Nat.shiftRight_eq_div_pow, Nat.shiftLeft_eq, Nat.shiftLeft_eq]
  omega

theorem ref_octets (ref : UInt16) :
    (ref >>> 8).toUInt8.toUInt16 <<< 8 ||| (ref &&& 0xFF).toUInt8.toUInt16 = ref := by
  have low : ref.toNat % 256 < 2 ^ 8 := Nat.mod_lt _ (by decide)
  rw [← UInt16.toNat_inj, UInt16.toNat_or, toNat_ref_high, toNat_ref_low, or_low _ 8 low]
  omega

theorem ref_low_octet (ref : UInt16) : (ref &&& 0xFF).toUInt8.toUInt16 = ref &&& 0xFF := by
  have low : (ref &&& 0xFF).toNat = ref.toNat % 256 := Nat.and_two_pow_sub_one_eq_mod ref.toNat 8
  rw [← UInt16.toNat_inj, toNat_ref_low, low]

theorem smsUdhNext_first (udhl iei : UInt8) {len : UInt8} {data : Bytes}
    (sized : len.toNat = data.length) (rest : Bytes) :
    ∃ next, smsUdhNext ⟨udhl :: iei :: len :: data ++ rest, data.length + 3, 1⟩ =
      some (⟨iei, len, data⟩, next) := by
  have read : slice (udhl :: iei :: len :: data ++ rest) (1 + 2) len.toNat = data := by
    rw [sized]
    exact slice_append_length [udhl, iei, len] data rest
  unfold smsUdhNext
  dsimp only
  rw [if_neg (by omega)]
  simp only [List.cons_append, List.getD_cons_succ, List.getD_cons_zero]
  rw [if_neg (by omega)]
  exact ⟨_, congrArg (fun data => some (UdhIe.mk iei len data, _)) read⟩

theorem smsConcatGet_first {udhl iei len : UInt8} {data : Bytes}
    (agrees : udhl.toNat = data.length + 2) (sized : len.toNat = data.length)
    (element : concatOfIe ⟨iei, len, data⟩ = some c) (rest : Bytes) :
    smsConcatGet (udhl :: iei :: len :: data ++ rest) = some c := by
  have size : smsUdhLen (udhl :: iei :: len :: data ++ rest) = data.length + 3 := by
    rw [smsUdhLen, if_neg (by simp)]
    simp only [List.cons_append, List.getD_cons_zero, agrees, List.length_cons, List.length_append]
    exact if_neg (by omega)
  obtain ⟨next, found⟩ := smsUdhNext_first udhl iei sized rest
  rw [smsConcatGet, smsUdhBegin, size]
  dsimp only
  rw [if_pos (decide_eq_true (by omega)), concatGetLoop]
  split
  next none =>
    rw [found] at none
    contradiction
  next other after more =>
    rw [found] at more
    cases more
    rw [element]

theorem smsConcatGet_udh (built : smsConcatUdh cap c = .ok udh) (rest : Bytes) :
    smsConcatGet (udh ++ rest) = some { c with ref := wireRef c.ref c.ref16 } := by
  obtain ⟨ref, total, seq, ref16⟩ := c
  unfold smsConcatUdh at built
  split at built
  · contradiction
  cases ref16 with
  | true =>
    rw [if_pos rfl] at built
    split at built
    · contradiction
    cases built
    apply smsConcatGet_first rfl rfl
    exact congrArg (fun ref => some (Concat.mk ref total seq true)) (ref_octets ref)
  | false =>
    rw [if_neg Bool.false_ne_true] at built
    split at built
    · contradiction
    cases built
    apply smsConcatGet_first rfl rfl
    exact congrArg (fun ref => some (Concat.mk ref total seq false)) (ref_low_octet ref)

theorem splitAtLoop_ok {s : Bytes} {alphabet : Alphabet} {budget i used : Nat}
    (loop : splitAtLoop s alphabet budget i used = .ok result) :
    i ≤ result.1 ∧ (used ≤ budget → result.2 ≤ budget) ∧ (s.length ≤ result.1 →
        eachChar s (fun k cp => (charUnits alphabet cp).map fun w => k + w) i used =
          .ok result.2) := by
  fun_induction splitAtLoop s alphabet budget i used with
  | case1 i used more next => contradiction
  | case2 i used more cp j next e failed => contradiction
  | case3 i used more cp j next w width full =>
    cases loop
    exact ⟨Nat.le_refl _, id, fun whole => absurd more (Nat.not_lt.mpr whole)⟩
  | case4 i used more cp j next w width room ih =>
    obtain ⟨later, within, whole⟩ := ih loop
    have behind := smsUtf8Next_lt next
    refine ⟨by omega, fun _ => within (Nat.not_lt.mp room), ?_⟩
    intro all
    rw [eachChar, if_pos more]
    split
    next none =>
      rw [next] at none
      contradiction
    next more =>
      rw [next] at more
      cases more
      rw [width]
      exact whole all
  | case5 i used done =>
    cases loop
    refine ⟨Nat.le_refl _, id, fun _ => ?_⟩
    rw [eachChar, if_neg done]

theorem splitAt_ok {s : Bytes} {start stop budget : Nat} {alphabet : Alphabet}
    (split : splitAt s start alphabet budget = .ok stop) :
    (alphabet = .bit8 ∧ stop = start + min (s.length - start) budget) ∨ (alphabet ≠ .bit8 ∧
        ∃ used, splitAtLoop s alphabet budget start 0 = .ok (stop, used)) := by
  have take : (if s.length - start < budget then s.length - start else budget) =
      min (s.length - start) budget := by
    split <;> omega
  unfold splitAt at split
  rw [take] at split
  split at split
  next raw =>
    dsimp only at split
    split at split
    · cases split
      exact .inl ⟨raw, rfl⟩
    · contradiction
  next text =>
    split at split
    · contradiction
    next i used loop =>
    split at split
    · cases split
      exact .inr ⟨text, used, loop⟩
    · contradiction

theorem le_splitAt {s : Bytes} {start stop budget : Nat} {alphabet : Alphabet}
    (split : splitAt s start alphabet budget = .ok stop) : start ≤ stop := by
  obtain ⟨-, rfl⟩ | ⟨-, used, loop⟩ := splitAt_ok split
  · exact Nat.le_add_right _ _
  · exact (splitAtLoop_ok loop).1

theorem wireUnits_le_of_whole {s : Bytes} {stop budget : Nat} {alphabet : Alphabet}
    (small : budget < 2 ^ 31) (split : splitAt s 0 alphabet budget = .ok stop)
    (whole : s.length ≤ stop) : wireUnits s alphabet ≤ budget := by
  unfold wireUnits
  obtain ⟨rfl, rfl⟩ | ⟨text, used, loop⟩ := splitAt_ok split
  · rw [if_neg (by decide), if_pos rfl, if_neg (by omega)]
    omega
  · obtain ⟨-, within, walk⟩ := splitAtLoop_ok loop
    have fits : used ≤ budget := within (Nat.zero_le _)
    have total : eachChar s _ 0 0 = .ok used := walk whole
    by_cases septets : alphabet = .gsm7
    · simp only [charUnits, if_pos septets] at total
      have small : used < 2 ^ 31 := Nat.lt_of_le_of_lt fits small
      rw [if_pos septets, smsGsm7Septets, total, intOf_ok small]
      omega
    · rw [if_neg septets, if_neg text]
      simp only [charUnits, if_neg septets, Except.map] at total
      rw [total]
      dsimp only
      rw [if_neg (by omega)]
      omega

def Part.userData (p : Part) : Bytes := p.ud.take p.udLen.toNat

/-- What the receiver of a part reads; a header is there when there are several
parts. -/
def Part.text (cap : Nat) (p : Part) : Except SmsErr Bytes :=
  smsUdToUtf8 p.dcs (decide (1 < p.total)) p.userData p.udl cap

variable {holds : Nat → Part → Bytes → Prop} {parts : List Part}

section Parts

variable {s : Bytes} {alphabet : Alphabet} {ref : UInt16} {ref16 : Bool}
variable {budget count : Nat} {max : Int}

structure Holds (alphabet : Alphabet) (ref : UInt16) (ref16 : Bool) (count seq : Nat)
    (p : Part) (t : Bytes) : Prop where
  octets : p.udLen.toNat ≤ smsUdMax
  number : p.seq.toNat = seq
  total : p.total.toNat = count
  header : 1 < count → smsConcatGet p.userData = some ⟨wireRef ref ref16, p.total, p.seq, ref16⟩
  size : t.length ≤ 3 * 160
  whole : alphabet ≠ .bit8 → ∃ chars, t = utf8Text chars
  text : ∀ cap, t.length < cap → p.text cap = .ok t

theorem fillPart_holds (fill : fillPart s alphabet udh seq count = .ok p) (within : seq ≤ count)
    (octet : count ≤ 255) (several : udh.length ≠ 0 ↔ 1 < count)
    (header : 1 < count →
      smsConcatUdh 7 ⟨ref, UInt8.ofNat count, UInt8.ofNat seq, ref16⟩ = .ok udh) :
    Holds alphabet ref ref16 count seq p s := by
  unfold fillPart at fill
  obtain ⟨ud, built, done⟩ := exists_of_bind_ok fill
  cases done
  obtain ⟨carries, whole⟩ := smsUdFromUtf8_carries built
  have small : ud.len ≤ 140 := carries.fits
  have value (v : Nat) (low : v ≤ 255) : (UInt8.ofNat v).toNat = v := by
    rw [UInt8.toNat_ofNat']
    omega
  have len := value ud.len (by omega)
  have total := value count octet
  have udhi : decide (1 < UInt8.ofNat count) = decide (udh.length ≠ 0) := by
    rw [decide_eq_decide, several, UInt8.lt_iff_toNat_lt, total]
    rfl
  constructor
  case octets =>
    show (UInt8.ofNat ud.len).toNat ≤ smsUdMax
    rw [len]
    exact carries.fits
  case number => exact value seq (by omega)
  case total => exact total
  case header =>
    intro many
    show smsConcatGet (ud.out.take (UInt8.ofNat ud.len).toNat) = _
    rw [len, ← List.take_append_drop udh.length (ud.out.take ud.len), carries.header]
    exact smsConcatGet_udh (header many) _
  case size => exact carries.size
  case whole => exact whole
  case text =>
    intro cap fits
    show smsUdToUtf8 ud.dcs (decide (1 < UInt8.ofNat count))
      (ud.out.take (UInt8.ofNat ud.len).toNat) ud.udl cap = _
    rw [len, udhi]
    exact carries.reads cap fits

inductive Numbered (holds : Nat → Part → Bytes → Prop) :
    Nat → List Part → List Bytes → Prop
  | nil {seq : Nat} : Numbered holds seq [] []
  | cons {seq : Nat} {p : Part} {parts : List Part} {t : Bytes} {texts : List Bytes} :
      holds seq p t → Numbered holds (seq + 1) parts texts →
      Numbered holds seq (p :: parts) (t :: texts)

theorem Numbered.get (numbered : Numbered holds seq parts texts) (found : parts[i]? = some p) :
    ∃ t ∈ texts, holds (seq + i) p t := by
  induction numbered generalizing i with
  | nil => simp at found
  | cons first rest ih =>
    cases i with
    | zero =>
      cases found
      exact ⟨_, List.mem_cons_self, first⟩
    | succ i =>
      obtain ⟨t, member, later⟩ := ih found
      rw [Nat.add_assoc, Nat.add_comm 1] at later
      exact ⟨t, List.mem_cons_of_mem _ member, later⟩

theorem Numbered.mapM {read : Part → Except SmsErr Bytes}
    (numbered : Numbered holds seq parts texts)
    (reads : ∀ seq p, ∀ t ∈ texts, holds seq p t → read p = .ok t) :
    parts.mapM read = .ok texts := by
  induction numbered with
  | nil => rfl
  | cons first rest ih =>
    rw [List.mapM_cons, reads _ _ _ List.mem_cons_self first,
      ih fun seq p t member => reads seq p t (List.mem_cons_of_mem _ member)]
    rfl

theorem Numbered.forall_mem (numbered : Numbered holds seq parts texts)
    {property : Bytes → Prop} (gives : ∀ seq p t, holds seq p t → property t) :
    ∀ t ∈ texts, property t := by
  induction numbered with
  | nil => simp
  | cons first rest ih =>
    exact List.forall_mem_cons.mpr ⟨gives _ _ _ first, ih⟩

theorem countParts_le {i done : Nat}
    (walk : countParts s alphabet budget max i done = .ok count) (octet : done ≤ 255) :
    done ≤ count ∧ count ≤ 255 ∧ (i < s.length → done < count) := by
  fun_induction countParts s alphabet budget max i done with
  | case1 i done more e failed => contradiction
  | case2 i done more stop split full => contradiction
  | case3 i done more stop split room ih =>
    obtain ⟨later, last, -⟩ := ih walk (by omega)
    exact ⟨by omega, last, fun _ => by omega⟩
  | case4 i done finished =>
    cases walk
    exact ⟨Nat.le_refl _, octet, fun more => absurd more finished⟩

theorem length_buildParts
    (build : buildParts s alphabet budget ref ref16 count left part i = .ok parts) :
    parts.length = left := by
  induction left generalizing part i parts with
  | zero =>
    cases build
    rfl
  | succ left ih =>
    obtain ⟨stop, -, build⟩ := exists_of_bind_ok build
    obtain ⟨udh, -, build⟩ := exists_of_bind_ok build
    obtain ⟨first, -, build⟩ := exists_of_bind_ok build
    obtain ⟨rest, later, build⟩ := exists_of_bind_ok build
    cases build
    rw [List.length_cons, ih later]

theorem smsConcatUdh_length (built : smsConcatUdh cap c = .ok udh) : udh.length ≠ 0 := by
  unfold smsConcatUdh at built
  split_ifs at built <;> cases built <;> simp

theorem buildParts_numbered {i done : Nat} (several : 1 < count)
    (octet : count ≤ 255) (walk : countParts s alphabet budget max i done = .ok count)
    (build : buildParts s alphabet budget ref ref16 count (count - done) (done + 1) i = .ok parts) :
    ∃ texts, texts.flatten = s.drop i ∧
      Numbered (Holds alphabet ref ref16 count) (done + 1) parts texts := by
  fun_induction countParts s alphabet budget max i done generalizing parts with
  | case1 i done more e failed => contradiction
  | case2 i done more stop split full => contradiction
  | case3 i done more stop split room ih =>
    have later := (countParts_le walk (by omega)).1
    rw [show count - done = count - (done + 1) + 1 by omega] at build
    obtain ⟨stop', again, build⟩ := exists_of_bind_ok build
    obtain rfl : stop = stop' := Except.ok.inj (split.symm.trans again)
    obtain ⟨udh, header, build⟩ := exists_of_bind_ok build
    obtain ⟨first, fill, build⟩ := exists_of_bind_ok build
    obtain ⟨rest, tail, ends⟩ := exists_of_bind_ok build
    cases ends
    obtain ⟨texts, text, numbered⟩ := ih walk tail
    refine ⟨slice s i (stop - i) :: texts, ?_, .cons ?_ numbered⟩
    · have behind := le_splitAt split
      rw [List.flatten_cons, text, slice,
        show s.drop stop = (s.drop i).drop (stop - i) by
          rw [List.drop_drop, Nat.add_sub_cancel' behind],
        List.take_append_drop]
    · exact fillPart_holds fill later octet
        ⟨fun _ => several, fun _ => smsConcatUdh_length header⟩ fun _ => header
  | case4 i done finished =>
    cases walk
    rw [Nat.sub_self] at build
    cases build
    exact ⟨[], (List.drop_eq_nil_of_le (Nat.not_lt.mp finished)).symm, .nil⟩

theorem wireUnits_nil (alphabet : Alphabet) : wireUnits [] alphabet = 0 := by
  cases alphabet <;> decide +kernel

theorem partBudget_le (alphabet : Alphabet) (ref16 : Bool) :
    partBudget alphabet ref16 ≤ if alphabet = .gsm7 then 153 else 134 := by
  cases alphabet <;> cases ref16 <;> decide

theorem one_lt_countParts (long : ¬oneOctets s alphabet ≤ smsUdMax)
    (walk : countParts s alphabet (partBudget alphabet ref16) max 0 0 = .ok count) :
    1 < count := by
  by_contra few
  have most : smsUdMax = 140 := rfl
  have budget := partBudget_le alphabet ref16
  unfold oneOctets at long
  rw [countParts] at walk
  split at walk
  next more =>
    split at walk
    · contradiction
    next stop split =>
    split at walk
    · contradiction
    · obtain ⟨-, -, later⟩ := countParts_le walk (by decide)
      have whole : s.length ≤ stop := by
        by_contra more
        have := later (Nat.not_le.mp more)
        omega
      have units := wireUnits_le_of_whole (by split at budget <;> omega) split whole
      by_cases septets : alphabet = .gsm7
      · rw [if_pos septets] at long budget
        omega
      · rw [if_neg septets] at long budget
        omega
  next none =>
    have empty : s = [] := List.length_eq_zero_iff.mp (by omega)
    rw [empty, wireUnits_nil] at long
    split at long <;> exact long (by decide)

end Parts

theorem mapError_ok {outcome : Except SmsErr α} (done : outcome.mapError SmsErr.code = .ok result) :
    outcome = .ok result := by
  cases outcome with
  | error e => cases done
  | ok value =>
    cases done
    rfl

theorem smsConcatSplit_numbered {s : Bytes} {alphabet : Alphabet} {ref : UInt16} {ref16 : Bool}
    {max : Int}
    (split : smsConcatSplit s alphabet ref ref16 max = .ok parts) :
    ∃ texts, texts.flatten = s ∧
      Numbered (Holds (alphabet.resolve s) ref ref16 parts.length) 1 parts texts := by
  unfold smsConcatSplit at split
  split at split
  · contradiction
  dsimp only at split
  split at split
  · contradiction
  split at split
  · contradiction
  split at split
  · have one := mapError_ok split
    cases fill : fillPart s (alphabet.resolve s) [] 1 1 with
    | error e =>
      rw [fill] at one
      contradiction
    | ok part =>
      rw [fill] at one
      cases one
      refine ⟨[s], List.append_nil s, .cons ?_ .nil⟩
      show Holds _ ref ref16 1 1 part s
      exact fillPart_holds fill (Nat.le_refl 1) (by decide) (by simp) (by simp)
  next long =>
    obtain ⟨count, walk, build⟩ := exists_of_bind_ok (mapError_ok split)
    have octet := (countParts_le walk (by decide)).2.1
    have several := one_lt_countParts long walk
    obtain ⟨texts, text, numbered⟩ := buildParts_numbered several octet walk build
    rw [length_buildParts build]
    exact ⟨texts, text, numbered⟩

/-- A split that succeeds: its parts fit, are numbered through under one reference,
and read in order give the text, with every character in one part. -/
theorem smsConcatSplit_reassembles {s : Bytes} {alphabet : Alphabet} {ref : UInt16}
    {ref16 : Bool} {max : Int} {parts : List Part}
    (split : smsConcatSplit s alphabet ref ref16 max = .ok parts) :
    (∀ i p, parts[i]? = some p →
      p.userData.length ≤ 140 ∧ p.seq.toNat = i + 1 ∧ p.total.toNat = parts.length ∧
        (1 < parts.length →
          smsConcatGet p.userData = some ⟨wireRef ref ref16, p.total, p.seq, ref16⟩)) ∧
      ∀ cap, min s.length 480 < cap →
        ∃ texts, parts.mapM (Part.text cap) = .ok texts ∧ texts.flatten = s ∧
          (alphabet ≠ .bit8 → ∀ t ∈ texts, ∃ chars, t = utf8Text chars) := by
  obtain ⟨texts, text, numbered⟩ := smsConcatSplit_numbered split
  constructor
  · intro i p found
    obtain ⟨t, -, holds⟩ := numbered.get found
    refine ⟨?_, ?_, holds.total, holds.header⟩
    · rw [Part.userData, List.length_take]
      exact Nat.le_trans (Nat.min_le_left _ _) holds.octets
    · rw [holds.number, Nat.add_comm]
  · intro cap room
    refine ⟨texts, numbered.mapM ?_, text, ?_⟩
    · intro seq p t member holds
      apply holds.text
      have size := holds.size
      have part : t.length ≤ s.length := by
        rw [← text]
        exact (List.sublist_flatten_of_mem member).length_le
      omega
    · intro characters
      refine numbered.forall_mem fun seq p t holds => holds.whole fun chosen => ?_
      exact characters (Alphabet.resolve_eq_bit8 chosen)

/-- 152 plain characters and five escaped ones: the first part ends one septet
short of its 153. -/
theorem smsConcatSplit_escapes :
    ∃ parts texts,
      smsConcatSplit (List.replicate 152 0x40 ++ List.replicate 5 0x7B) .auto 0x2A false 8 =
        .ok parts ∧
      parts.length = 2 ∧ parts.mapM (Part.text 560) = .ok texts ∧
      texts.flatten = List.replicate 152 0x40 ++ List.replicate 5 0x7B := by
  have two : (smsConcatSplit (List.replicate 152 0x40 ++ List.replicate 5 0x7B) .auto 0x2A
      false 8).map List.length = .ok 2 := by
    decide +kernel
  cases split : smsConcatSplit (List.replicate 152 0x40 ++ List.replicate 5 0x7B) .auto
      0x2A false 8 with
  | error code =>
    rw [split] at two
    contradiction
  | ok parts =>
    rw [split] at two
    obtain ⟨-, read⟩ := smsConcatSplit_reassembles split
    obtain ⟨texts, decoded, text, -⟩ :=
      read 560 (Nat.lt_of_le_of_lt (Nat.min_le_right _ _) (by decide))
    exact ⟨parts, texts, rfl, Except.ok.inj two, decoded, text⟩

end Pro2Call.Sms

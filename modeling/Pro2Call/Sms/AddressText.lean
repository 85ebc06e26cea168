import Pro2Call.Sms.Address
import Pro2Call.Sms.UserDataText

namespace Pro2Call.Sms

open Pro2Call.Data

/-! An originator that is a text and not a number. -/

def smsAddrSetText (text : Bytes) : Except Int Addr :=
  let septets := smsGsm7Septets text
  if septets < 0 then .error septets
  else if 11 < septets then .error SmsErr.length.code
  else if smsAddrMaxText + 1 ≤ text.length then .error SmsErr.length.code
  else .ok { ton := tonAlphanum, npi := 0, digits := text }

theorem gsm7Width_le (width : gsm7Width c = .ok w) : w ≤ 2 := by
  unfold gsm7Width at width
  split at width
  · contradiction
  · cases width
    split <;> decide

theorem gsm7Put_of_width {septets : Bytes} (width : gsm7Width c = .ok w)
    (room : septets.length + w ≤ cap) :
    ∃ written, gsm7Put cap septets c = .ok written ∧ written.length = septets.length + w := by
  unfold gsm7Width at width
  unfold gsm7Put
  split at width
  · contradiction
  next g found =>
    cases width
    by_cases escaped : g &&& 0x1B00 ≠ 0
    · rw [if_pos escaped] at room ⊢
      rw [if_neg (by omega), if_pos escaped]
      exact ⟨_, rfl, List.length_append⟩
    · rw [if_neg escaped] at room ⊢
      rw [if_neg (by omega), if_neg escaped]
      exact ⟨_, rfl, List.length_append⟩

theorem eachChar_of_width {i used count : Nat}
    (walk : eachChar s (fun k c => (gsm7Width c).map fun w => k + w) i used = .ok count) :
    used ≤ count ∧ count ≤ used + 2 * (s.length - i) ∧
      ∀ (cap : Nat) (septets : Bytes), septets.length = used → count ≤ cap →
        ∃ written, eachChar s (gsm7Put cap) i septets = .ok written ∧ written.length = count := by
  fun_induction eachChar s (fun k c => (gsm7Width c).map fun w => k + w) i used with
  | case1 i used more next => contradiction
  | case2 i used more c j next e failed => contradiction
  | case3 i used more c j next used' stepped ih =>
    obtain ⟨w, width, rfl⟩ := exists_of_map_ok stepped
    obtain ⟨most, small, writes⟩ := ih walk
    have behind := smsUtf8Next_lt next
    have narrow := gsm7Width_le width
    refine ⟨by omega, by omega, ?_⟩
    intro cap septets length room
    have fits : septets.length + w ≤ cap := by omega
    obtain ⟨first, put, size⟩ := gsm7Put_of_width width fits
    obtain ⟨written, rest, whole⟩ := writes cap first (by omega) room
    refine ⟨written, ?_, whole⟩
    rw [eachChar, if_pos more]
    split
    next none =>
      rw [next] at none
      contradiction
    next more =>
      rw [next] at more
      cases more
      rw [put]
      exact rest
  | case4 i used done =>
    cases walk
    refine ⟨Nat.le_refl _, Nat.le_add_right _ _, ?_⟩
    intro cap septets length room
    refine ⟨septets, ?_, length⟩
    rw [eachChar, if_neg done]

theorem smsAddrSetText_ok {text : Bytes} (accepted : smsAddrSetText text = .ok a) :
    a = ⟨tonAlphanum, 0, text⟩ ∧ text.length ≤ smsAddrMaxText ∧ ∃ septets,
      smsGsm7FromUtf8 text smsAddrMaxDigits = .ok septets ∧ septets.length ≤ 11 ∧
        smsGsm7Septets text = septets.length := by
  unfold smsAddrSetText at accepted
  dsimp only at accepted
  split at accepted
  · contradiction
  next positive =>
  split at accepted
  · contradiction
  next few =>
  split at accepted
  · contradiction
  next short =>
  cases accepted
  refine ⟨rfl, Nat.le_of_lt_succ (Nat.not_le.mp short), ?_⟩
  rw [smsAddrMaxText] at short
  unfold smsGsm7Septets at positive few ⊢
  cases walk : eachChar text (fun k c => (gsm7Width c).map fun w => k + w) 0 0 with
  | error e =>
    rw [walk] at positive
    cases e <;> exact absurd (by decide) positive
  | ok count =>
    obtain ⟨-, small, writes⟩ := eachChar_of_width walk
    have counted : intOf (.ok count) = count := intOf_ok (by omega)
    rw [walk, counted] at few
    obtain ⟨septets, written, length⟩ := writes smsAddrMaxDigits [] rfl (by
      rw [smsAddrMaxDigits]
      omega)
    refine ⟨septets, written, by omega, ?_⟩
    rw [length, ← counted]

theorem bitAt_replicate_zero (n k : Nat) : bitAt (List.replicate n 0) k = false := by
  have octet : (List.replicate n (0 : UInt8)).getD (k / 8) 0 = 0 := by
    rw [List.getD_eq_getElem?_getD, List.getElem?_replicate]
    split <;> rfl
  rw [bitAt, octet]
  exact Nat.zero_testBit _

theorem gsm7Put_narrow {septets written : Bytes}
    (put : gsm7Put cap septets c = .ok written) (narrow : ∀ x ∈ septets, x ≤ 0x7F) :
    ∀ x ∈ written, x ≤ 0x7F := by
  have escapes : ∀ entry ∈ gsm7Ext, entry.1 ≤ 0x7F := List.all_iff_forall_prop.mp (by decide)
  have letters : ∀ g < 128, UInt8.ofNat g ≤ 0x7F := by decide
  obtain ⟨g, ⟨small, -⟩, rfl⟩ | ⟨entry, member, -, rfl⟩ := gsm7Put_cases put
  · exact List.forall_mem_append.mpr ⟨narrow, List.forall_mem_singleton.mpr (letters g small)⟩
  · refine List.forall_mem_append.mpr ⟨narrow, List.forall_mem_cons.mpr ⟨by decide, ?_⟩⟩
    exact List.forall_mem_singleton.mpr (escapes entry member)

theorem foldlM_gsm7Put {chars : List Char}
    (fold : chars.foldlM (fun septets c => gsm7Put cap septets c.toNat) [] = .ok septets) :
    (∀ x ∈ septets, x ≤ 0x7F) ∧ SpellsText gsm7ToUtf8Loop septets chars := by
  obtain ⟨narrow, units, same, spells⟩ := foldlM_spells id (fun septets => ∀ x ∈ septets, x ≤ 0x7F)
    (fun _ _ => rfl) (fun _ _ _ narrow put => ⟨gsm7Put_narrow put narrow, gsm7Put_ok put⟩)
    (by simp) fold
  rw [id, id, List.nil_append] at same
  exact ⟨narrow, same ▸ spells⟩

theorem addrText_packed {septets value : Bytes} (packed : Packed septets 0 out value)
    (spells : SpellsText gsm7ToUtf8Loop septets chars)
    (count : value.length * 8 / 7 = septets.length) (few : septets.length ≤ 16)
    (short : (utf8Text chars).length ≤ smsAddrMaxText) :
    addrText value = .ok (utf8Text chars) := by
  have whole := smsGsm7Unpack_packed packed few (by omega) (Nat.le_refl value.length)
  rw [List.take_length] at whole
  rw [addrText, count, if_neg (by omega), whole]
  show smsGsm7ToUtf8 septets (smsAddrMaxText + 1) = _
  rw [smsGsm7ToUtf8, if_neg (by decide)]
  exact spells.reads _ [] (by simpa using Nat.lt_succ_of_le short)

theorem smsAddrEncode_text {text septets : Bytes}
    (read : smsGsm7FromUtf8 text smsAddrMaxDigits = .ok septets) (few : septets.length ≤ 11) :
    ∃ chars value, text = utf8Text chars ∧
      chars.foldlM (fun septets c => gsm7Put smsAddrMaxDigits septets c.toNat) [] = .ok septets ∧
      value.length = (septets.length * 7 + 7) / 8 ∧
      Packed septets 0 (List.replicate value.length 0) value ∧
      (∀ k, septets.length * 7 ≤ k → bitAt value k = false) ∧
      ∀ cap, smsAddrMaxOctets ≤ cap → smsAddrEncode cap ⟨tonAlphanum, 0, text⟩ =
        .ok (UInt8.ofNat (value.length * 2) :: toaOctet tonAlphanum 0 :: value) := by
  obtain ⟨chars, text, fold⟩ := eachChar_sound (Nat.zero_le _) read
  rw [List.drop_zero] at text
  obtain ⟨value, pack⟩ := packLoop_of_narrow (foldlM_gsm7Put fold).1 0
    (List.replicate ((septets.length * 7 + 7) / 8) 0)
  have room : (0 + septets.length) * 7 ≤
      8 * (List.replicate ((septets.length * 7 + 7) / 8) (0 : UInt8)).length := by
    rw [List.length_replicate]
    omega
  have packed := packLoop_ok pack room
  have length : value.length = (septets.length * 7 + 7) / 8 := by
    rw [packed.length, List.length_replicate]
  refine ⟨chars, value, text, fold, length, length ▸ packed, ?_, ?_⟩
  · have zeros := fun k behind => packLoop_behind pack room behind (bitAt_replicate_zero _ k)
    rwa [Nat.zero_add] at zeros
  · intro cap enough
    rw [smsAddrMaxOctets] at enough
    have ton : ¬(7 < tonAlphanum ∨ (15 : UInt8) < 0) := by decide
    have total : ((0 + septets.length) * 7 + 7) / 8 = (septets.length * 7 + 7) / 8 := by
      rw [Nat.zero_add]
    rw [smsAddrEncode, if_neg ton, if_pos rfl, read]
    show (if smsAddrMaxOctets - 2 < _ then _ else _) = _
    rw [if_neg (by rw [smsAddrMaxOctets]; omega), if_neg (by omega), smsGsm7Pack, total, pack,
      if_neg (by rw [List.length_replicate]; omega), length]
    rfl

theorem smsAddrDecode_text {value digits : Bytes} (few : value.length ≤ 10)
    (text : addrText value = .ok digits) :
    smsAddrDecode (UInt8.ofNat (value.length * 2) :: toaOctet tonAlphanum 0 :: value) =
      .ok (⟨tonAlphanum, 0, digits⟩, 2 + value.length) := by
  have first : (UInt8.ofNat (value.length * 2)).toNat = value.length * 2 :=
    toNat_ofNat_small (by omega)
  have half : (value.length * 2 + 1) / 2 = value.length := by omega
  have read : slice (UInt8.ofNat (value.length * 2) :: toaOctet tonAlphanum 0 :: value) 2
      value.length = value := by
    simpa using
      slice_append_length [UInt8.ofNat (value.length * 2), toaOctet tonAlphanum 0] value []
  obtain ⟨ton, npi⟩ := toaOctet_read (show tonAlphanum ≤ 7 by decide) (show 0 ≤ 15 by decide)
  rw [smsAddrDecode, if_neg (by simp)]
  simp only [List.getD_cons_zero, List.getD_cons_succ, List.length_cons, first, half, ton, npi]
  rw [if_neg (by rw [smsAddrMaxDigits]; omega), if_neg (by omega), read, addrDigits, if_pos rfl,
    text]
  rfl

theorem addrText_seven {text septets value : Bytes} (read : text = utf8Text chars)
    (fold : chars.foldlM
      (fun septets c => gsm7Put smsAddrMaxDigits septets c.toNat) [] = .ok septets)
    (seven : septets.length = 7) (length : value.length = 7)
    (packed : Packed septets 0 (List.replicate value.length 0) value)
    (zeros : ∀ k, septets.length * 7 ≤ k → bitAt value k = false) :
    addrText value = .ok (text ++ [0x40]) := by
  have at_sign : gsm7Put smsAddrMaxDigits septets 0x40 = .ok (septets ++ [0]) := by
    have found : smsGsm7FromUcs 0x40 = some 0 := by decide
    rw [gsm7Put, found, seven]
    rfl
  have more : (chars ++ ['@']).foldlM
      (fun septets c => gsm7Put smsAddrMaxDigits septets c.toNat) [] = .ok (septets ++ [0]) := by
    rw [List.foldlM_append, fold]
    show (gsm7Put smsAddrMaxDigits septets 0x40 >>= _) = _
    rw [at_sign]
    rfl
  have spells := (foldlM_gsm7Put more).2
  have whole : Packed (septets ++ [0]) 0 (List.replicate value.length 0) value := by
    refine { packed with narrow := ?_, septet := ?_ }
    · exact List.forall_mem_append.mpr ⟨packed.narrow, by simp⟩
    · intro i inside j low
      rw [List.length_append, List.length_singleton] at inside
      by_cases within : i < septets.length
      · rw [List.getElem_append_left within]
        exact packed.septet i within j low
      · rw [List.getElem_append_right (Nat.not_lt.mp within), zeros _ (by omega)]
        simp
  have size := spells.size
  rw [List.length_append, seven, List.length_singleton] at size
  have spelled : utf8Text (chars ++ ['@']) = text ++ [0x40] := by
    rw [read, utf8Text, utf8Text, List.flatMap_append]
    rfl
  rw [addrText_packed whole spells (by rw [length, List.length_append, seven]; rfl)
    (by rw [List.length_append, seven]; decide) (by rw [smsAddrMaxText]; omega), spelled]

/-- Every text that is accepted is encoded, and is read back; one that takes seven
septets is followed by an `@`. -/
theorem smsAddrSetText_reads_back {text : Bytes} {a : Addr}
    (accepted : smsAddrSetText text = .ok a) :
    a.digits = text ∧
    ∃ octets, (∀ cap, smsAddrMaxOctets ≤ cap → smsAddrEncode cap a = .ok octets) ∧
      smsAddrDecode octets = .ok
        (if smsGsm7Septets text = 7 then { a with digits := text ++ [0x40] } else a,
          octets.length) := by
  obtain ⟨rfl, short, septets, read, few, count⟩ := smsAddrSetText_ok accepted
  obtain ⟨chars, value, spelled, fold, length, packed, zeros, encoded⟩ :=
    smsAddrEncode_text read few
  refine ⟨rfl, _, encoded, ?_⟩
  rw [count, List.length_cons, List.length_cons, Nat.add_assoc, Nat.add_comm value.length]
  by_cases seven : septets.length = 7
  · have value7 : value.length = 7 := by omega
    rw [smsAddrDecode_text (by omega) (addrText_seven spelled fold seven value7 packed zeros),
      if_pos (by rw [seven]; rfl)]
  · have spells := (foldlM_gsm7Put fold).2
    have fitting : value.length * 8 / 7 = septets.length := by
      obtain less | more : septets.length < 7 ∨ 7 < septets.length := by omega
      · rw [show value.length = septets.length by omega]
        omega
      · rw [show value.length = septets.length - 1 by omega]
        omega
    rw [smsAddrDecode_text (by omega) (addrText_packed packed spells fitting (by omega)
      (spelled ▸ short)), ← spelled, if_neg (by omega)]

/-- `Pro2Call` takes eight. -/
theorem smsAddrSetText_reads_back_eight :
    ∃ octets, smsAddrEncode 12 ⟨5, 0, [0x50, 0x72, 0x6F, 0x32, 0x43, 0x61, 0x6C, 0x6C]⟩ =
        .ok octets ∧
      smsAddrDecode octets =
        .ok (⟨5, 0, [0x50, 0x72, 0x6F, 0x32, 0x43, 0x61, 0x6C, 0x6C]⟩, octets.length) := by
  obtain ⟨_, octets, encoded, decoded⟩ := smsAddrSetText_reads_back
    (show smsAddrSetText [0x50, 0x72, 0x6F, 0x32, 0x43, 0x61, 0x6C, 0x6C] =
      .ok ⟨5, 0, [0x50, 0x72, 0x6F, 0x32, 0x43, 0x61, 0x6C, 0x6C]⟩ by decide +kernel)
  rw [if_neg (by decide +kernel)] at decoded
  exact ⟨octets, encoded 12 (by decide), decoded⟩

/-- `Pro2Cal` comes back as `Pro2Cal@`. -/
theorem smsAddrSetText_seven :
    smsAddrSetText [0x50, 0x72, 0x6F, 0x32, 0x43, 0x61, 0x6C] =
        .ok ⟨5, 0, [0x50, 0x72, 0x6F, 0x32, 0x43, 0x61, 0x6C]⟩ ∧
      (do
        let octets ← smsAddrEncode 12 ⟨5, 0, [0x50, 0x72, 0x6F, 0x32, 0x43, 0x61, 0x6C]⟩
        smsAddrDecode octets) =
        .ok (⟨5, 0, [0x50, 0x72, 0x6F, 0x32, 0x43, 0x61, 0x6C, 0x40]⟩, 9) := by
  decide +kernel

end Pro2Call.Sms

import Pro2Call.Data.Run
import Pro2Call.Sms.UserData

namespace Pro2Call.Sms

open Pro2Call.Data

theorem ucs2Octets_value (small : u < 0x10000) :
    (UInt8.ofNat (u >>> 8)).toNat <<< 8 ||| (UInt8.ofNat (u &&& 0xFF)).toNat = u := by
  have low : u &&& 0xFF = u % 256 := Nat.and_two_pow_sub_one_eq_mod u 8
  have octet : u % 256 < 2 ^ 8 := Nat.mod_lt _ (by decide)
  rw [low, UInt8.toNat_ofNat', UInt8.toNat_ofNat', Nat.mod_eq_of_lt octet,
    or_low _ 8 octet, Nat.shiftRight_eq_div_pow]
  omega

@[simp] theorem length_ucs2Octets (u : Nat) : (ucs2Octets u).length = 2 := rfl

theorem utf16Next_plain (plain : u < 0xD800 ∨ 0xDBFF < u) (rest : Bytes) :
    utf16Next u rest = (u, rest) := by
  unfold utf16Next
  split
  · exact if_neg (by omega)
  · rfl

theorem utf16Next_pair (first : 0xD800 ≤ u ∧ u ≤ 0xDBFF)
    (second : 0xDC00 ≤ low ∧ low ≤ 0xDFFF) (rest : Bytes) :
    utf16Next u (ucs2Octets low ++ rest) =
      (0x10000 + (u - 0xD800) * 1024 + (low - 0xDC00), rest) := by
  rw [ucs2Octets, List.cons_append, List.singleton_append, utf16Next,
    ucs2Octets_value (by omega), if_pos (by omega), Nat.shiftLeft_eq]

theorem ucs2ToUtf8Loop_round (cap : Nat) (small : u < 0x10000)
    {rest after : Bytes} (next : utf16Next u rest = (v, after))
    (scalar : v < 0xD800 ∨ 0xDFFF < v) (out : Bytes) :
    ucs2ToUtf8Loop cap (ucs2Octets u ++ rest) out =
      putChar cap out v >>= ucs2ToUtf8Loop cap after := by
  rw [ucs2Octets, List.cons_append, List.singleton_append, ucs2ToUtf8Loop,
    ucs2Octets_value small, next]
  dsimp only
  rw [if_neg (by omega)]
  cases putChar cap out v <;> rfl

theorem ucs2ToUtf8Loop_nil (cap : Nat) (out : Bytes) : ucs2ToUtf8Loop cap [] out = .ok out := by
  unfold ucs2ToUtf8Loop
  rfl

theorem char_cases (c : Char) :
    (c.toNat < 0x10000 ∧ (c.toNat < 0xD800 ∨ 0xDFFF < c.toNat)) ∨
      (0x10000 ≤ c.toNat ∧ c.toNat < 0x110000) := by
  have scalar : c.toNat.isValidChar := c.valid
  unfold Nat.isValidChar at scalar
  omega

theorem spells_utf16Units (c : Char) : Spells ucs2ToUtf8Loop (utf16Units c.toNat) c := by
  unfold utf16Units
  obtain ⟨small, scalar⟩ | ⟨large, top⟩ := char_cases c
  · rw [if_pos small]
    refine ⟨Nat.le_trans (length_utf8EncodeChar_le small) (by simp), ?_⟩
    intro cap rest out
    exact ucs2ToUtf8Loop_round cap small (utf16Next_plain (by omega) rest) scalar out
  · rw [if_neg (Nat.not_lt.mpr large)]
    dsimp only
    refine ⟨by simp [utf8EncodeChar_four large], ?_⟩
    intro cap rest out
    have split : (c.toNat - 0x10000) &&& 0x3FF = (c.toNat - 0x10000) % 1024 :=
      Nat.and_two_pow_sub_one_eq_mod _ 10
    rw [split, Nat.shiftRight_eq_div_pow, List.append_assoc]
    have pair := utf16Next_pair (show 0xD800 ≤ 0xD800 + (c.toNat - 0x10000) / 2 ^ 10 ∧ _ by omega)
      (show 0xDC00 ≤ 0xDC00 + (c.toNat - 0x10000) % 1024 ∧ _ by omega) rest
    have value : 0x10000 + (0xD800 + (c.toNat - 0x10000) / 2 ^ 10 - 0xD800) * 1024 +
        (0xDC00 + (c.toNat - 0x10000) % 1024 - 0xDC00) = c.toNat := by omega
    rw [value] at pair
    exact ucs2ToUtf8Loop_round cap (by omega) pair (by omega) out

/-- `ud` holds the header `udh`, and behind it the text `s`. -/
structure Carries (s udh : Bytes) (ud : UserData) : Prop where
  fits : ud.len ≤ smsUdMax
  inside : ud.len ≤ ud.out.length
  header : (ud.out.take ud.len).take udh.length = udh
  size : s.length ≤ 3 * 160
  reads : ∀ cap, s.length < cap →
    smsUdToUtf8 ud.dcs (decide (udh.length ≠ 0)) (ud.out.take ud.len) ud.udl cap = .ok s

theorem smsUdhLen_header {ud udh : Bytes} (starts : ud.take udh.length = udh)
    (agrees : udh.length ≠ 0 → (udh.getD 0 0).toNat + 1 = udh.length) :
    (if decide (udh.length ≠ 0) then smsUdhLen ud else 0) = udh.length := by
  by_cases empty : udh.length = 0
  · simp [empty]
  · have long : udh.length ≤ ud.length := by
      have size := congrArg List.length starts
      rw [List.length_take] at size
      omega
    have first : ud.getD 0 0 = udh.getD 0 0 := by
      rw [← starts, List.getD_eq_getElem?_getD, List.getD_eq_getElem?_getD,
        List.getElem?_take, if_pos (Nat.pos_of_ne_zero empty)]
    have measured := agrees empty
    rw [if_pos (decide_eq_true empty), smsUdhLen, if_neg (by omega)]
    dsimp only
    rw [first, if_neg (by omega), measured]

theorem smsUdToUtf8_header {ud udh : Bytes} (starts : ud.take udh.length = udh)
    (agrees : udh.length ≠ 0 → (udh.getD 0 0).toNat + 1 = udh.length)
    (dcs : UInt8) (octet : total ≤ 255) (room : 0 < cap) :
    smsUdToUtf8 dcs (decide (udh.length ≠ 0)) ud (UInt8.ofNat total) cap =
      if total = 0 then .ok []
      else udBody (smsDcsAlphabet dcs) udh.length ud total cap := by
  have value : (UInt8.ofNat total).toNat = total := by
    rw [UInt8.toNat_ofNat']
    omega
  have zero : UInt8.ofNat total = 0 ↔ total = 0 := by
    rw [← UInt8.toNat_inj, value]
    rfl
  rw [smsUdToUtf8, if_neg (by omega), smsUdhLen_header starts agrees]
  dsimp only
  rw [if_neg (by simp), value]
  simp only [zero]

section Alphabets

variable {s udh out : Bytes} {ud : UserData}

theorem slice_behind (front part : Bytes) :
    slice (front ++ part) front.length (front.length + part.length - front.length) = part := by
  rw [Nat.add_sub_cancel_left]
  have whole := slice_append_length front part []
  rwa [List.append_nil] at whole

theorem udBit8_carries (starts : out.take udh.length = udh) (inside : udh.length ≤ out.length)
    (agrees : udh.length ≠ 0 → (udh.getD 0 0).toNat + 1 = udh.length)
    (built : udBit8 s udh.length out = .ok ud) : Carries s udh ud := by
  unfold udBit8 at built
  split at built
  · contradiction
  next short =>
  split at built
  · contradiction
  next room =>
  cases built
  have small : udh.length + s.length ≤ 140 := Nat.not_lt.mp short
  have text : (splice out udh.length s).take (udh.length + s.length) = udh ++ s := by
    rw [take_splice inside, starts]
  constructor
  case fits => exact small
  case inside =>
    dsimp only
    rw [length_splice (Nat.not_lt.mp room)]
    exact Nat.not_lt.mp room
  case header =>
    dsimp only
    rw [text, List.take_left]
  case size => omega
  case reads =>
    intro cap fits
    dsimp only
    rw [text, smsUdToUtf8_header List.take_left agrees _ (by omega) (by omega)]
    split
    next empty => rw [List.length_eq_zero_iff.mp (show s.length = 0 by omega)]
    next =>
      rw [show smsDcsAlphabet (smsDcsMake .bit8 (-1)) = .bit8 from rfl, udBody]
      rw [if_neg (by rw [List.length_append]; omega), if_neg (by omega), slice_behind]

theorem ucs2Put_ok {state next : Nat × Bytes}
    (before : state.1 ≤ smsUdMax ∧ state.1 ≤ state.2.length)
    (put : ucs2Put state u = .ok next) :
    (next.1 ≤ smsUdMax ∧ next.1 ≤ next.2.length) ∧
      next.2.take next.1 = state.2.take state.1 ++ utf16Units u := by
  unfold ucs2Put at put
  dsimp only at put
  split at put
  · contradiction
  next room =>
  split at put
  · contradiction
  next short =>
  cases put
  refine ⟨⟨Nat.not_lt.mp short, ?_⟩, take_splice before.2⟩
  dsimp only
  rw [length_splice (Nat.not_lt.mp room)]
  exact Nat.not_lt.mp room

theorem udUcs2_carries (starts : out.take udh.length = udh)
    (inside : udh.length ≤ out.length) (short : udh.length ≤ smsUdMax)
    (agrees : udh.length ≠ 0 → (udh.getD 0 0).toNat + 1 = udh.length)
    (built : udUcs2 s udh.length out = .ok ud) :
    Carries s udh ud ∧ ∃ chars, s = utf8Text chars := by
  unfold udUcs2 at built
  cases walk : eachChar s ucs2Put 0 (udh.length, out) with
  | error e =>
    rw [walk] at built
    contradiction
  | ok final =>
  rw [walk] at built
  cases built
  obtain ⟨⟨fits, whole⟩, chars, units, rfl, wrote, spells⟩ :=
    eachChar_spells (fun state => state.2.take state.1)
      (fun state => state.1 ≤ smsUdMax ∧ state.1 ≤ state.2.length)
      ucs2ToUtf8Loop_nil
      (fun state c next before put => by
        obtain ⟨after, text⟩ := ucs2Put_ok before put
        exact ⟨after, _, text, spells_utf16Units c⟩)
      ⟨short, inside⟩ walk
  dsimp only at wrote
  rw [starts] at wrote
  have count : final.1 = udh.length + units.length := by
    have size := congrArg List.length wrote
    rwa [List.length_take_of_le whole, List.length_append] at size
  have small : final.1 ≤ 140 := fits
  have size := spells.size
  refine ⟨?_, chars, rfl⟩
  constructor
  case fits => exact fits
  case inside => exact whole
  case header =>
    dsimp only
    rw [wrote, List.take_left]
  case size => omega
  case reads =>
    intro cap room
    dsimp only
    rw [wrote, smsUdToUtf8_header List.take_left agrees _ (by omega) (by omega)]
    split
    next empty => rw [List.length_eq_zero_iff.mp (show (utf8Text chars).length = 0 by omega)]
    next =>
      rw [show smsDcsAlphabet (smsDcsMake .ucs2 (-1)) = .ucs2 from rfl, udBody,
        if_neg (by rw [List.length_append]; omega), count, slice_behind]
      exact spells.reads cap [] room

theorem smsGsm7Pack_ok (pack : smsGsm7Pack septets off out = .ok result) :
    result.1 = ((off + septets.length) * 7 + 7) / 8 ∧ result.1 ≤ out.length ∧
      Packed septets off out result.2 := by
  unfold smsGsm7Pack at pack
  dsimp only at pack
  split at pack
  · contradiction
  next room =>
  cases loop : packLoop septets off out with
  | error e =>
    rw [loop] at pack
    contradiction
  | ok packed =>
    rw [loop] at pack
    cases pack
    exact ⟨rfl, Nat.not_lt.mp room, packLoop_ok loop (by omega)⟩

theorem udGsm7_carries (starts : out.take udh.length = udh) (inside : udh.length ≤ out.length)
    (agrees : udh.length ≠ 0 → (udh.getD 0 0).toNat + 1 = udh.length)
    (built : udGsm7 s udh.length out = .ok ud) :
    Carries s udh ud ∧ ∃ chars, s = utf8Text chars := by
  unfold udGsm7 at built
  split at built
  · contradiction
  · contradiction
  next septets read =>
  obtain ⟨chars, rfl, spells⟩ := smsGsm7FromUtf8_ok read
  dsimp only at built
  split at built
  · contradiction
  next octet =>
  split at built
  · contradiction
  next short =>
  split at built
  · contradiction
  next room =>
  -- the text starts at the first septet behind the header
  have start : udh.length * 8 ≤ smsGsm7SeptetOff udh.length * 7 := by
    unfold smsGsm7SeptetOff
    omega
  generalize offset : smsGsm7SeptetOff udh.length = off at *
  generalize zeroed : splice out udh.length
    (List.replicate (((off + septets.length) * 7 + 7) / 8 - udh.length) 0) = clean at built
  have size : clean.length = out.length := by
    rw [← zeroed]
    exact length_splice (by rw [List.length_replicate]; omega)
  cases pack : smsGsm7Pack septets off clean with
  | error e =>
    rw [pack] at built
    contradiction
  | ok result =>
  rw [pack] at built
  cases built
  obtain ⟨len, within, packed⟩ := smsGsm7Pack_ok pack
  have small : result.1 ≤ 140 := by
    rw [len]
    exact Nat.not_lt.mp short
  have whole : result.1 ≤ result.2.length := by rwa [packed.length]
  have front : result.2.take udh.length = udh := by
    rw [packed.take _ (by omega), ← zeroed, take_splice_of_le (Nat.le_refl _) inside, starts]
  have header : (result.2.take result.1).take udh.length = udh := by
    rw [List.take_take, Nat.min_eq_left (by omega), front]
  have spelled := spells.size
  refine ⟨⟨small, whole, header, by omega, ?_⟩, chars, rfl⟩
  intro cap fits
  dsimp only
  rw [smsUdToUtf8_header header agrees _ (by omega) (by omega)]
  split
  next empty => rw [List.length_eq_zero_iff.mp (show (utf8Text chars).length = 0 by omega)]
  next =>
    have room : septets.length ≤ septetRoom := by
      show septets.length ≤ 162
      omega
    rw [show smsDcsAlphabet (smsDcsMake .gsm7 (-1)) = .gsm7 from rfl, udBody, offset,
      if_neg (by omega), Nat.add_sub_cancel_left, if_neg (Nat.not_lt.mpr room),
      smsGsm7Unpack_packed packed room (by omega) whole]
    show smsGsm7ToUtf8 septets cap = _
    rw [smsGsm7ToUtf8, if_neg (by omega)]
    exact spells.reads cap [] fits

end Alphabets

theorem Alphabet.resolve_eq_bit8 {s : Bytes} {alphabet : Alphabet}
    (chosen : alphabet.resolve s = .bit8) : alphabet = .bit8 := by
  unfold Alphabet.resolve at chosen
  split at chosen
  · split at chosen <;> contradiction
  · exact chosen

theorem smsUdFromUtf8_carries {s udh out : Bytes} {ud : UserData}
    (built : smsUdFromUtf8 s alphabet udh out = .ok ud) :
    Carries s udh ud ∧ (alphabet ≠ .bit8 → ∃ chars, s = utf8Text chars) := by
  unfold smsUdFromUtf8 at built
  split at built
  · contradiction
  next agreed =>
  split at built
  · contradiction
  next short =>
  split at built
  · contradiction
  next room =>
  have agrees : udh.length ≠ 0 → (udh.getD 0 0).toNat + 1 = udh.length := by omega
  have fits : 0 + udh.length ≤ out.length := by omega
  have inside : udh.length ≤ (splice out 0 udh).length := by
    rw [length_splice fits]
    omega
  have starts : (splice out 0 udh).take udh.length = udh := by
    have front : (splice out 0 udh).take (0 + udh.length) = _ := take_splice (Nat.zero_le _)
    rwa [Nat.zero_add, List.take_zero, List.nil_append] at front
  split at built
  next =>
    obtain ⟨carries, text⟩ := udGsm7_carries starts inside agrees built
    exact ⟨carries, fun _ => text⟩
  next =>
    obtain ⟨carries, text⟩ := udUcs2_carries starts inside (Nat.not_lt.mp short) agrees built
    exact ⟨carries, fun _ => text⟩
  next chosen =>
    exact ⟨udBit8_carries starts inside agrees built,
      fun text => absurd (Alphabet.resolve_eq_bit8 chosen) text⟩
  next => contradiction

theorem smsUdFromUtf8_reads_back (s udh out : Bytes) (alphabet : Alphabet) (ud : UserData)
    (built : smsUdFromUtf8 s alphabet udh out = .ok ud) :
    (ud.out.take ud.len).take udh.length = udh ∧ ud.len ≤ 140 ∧ ud.len ≤ ud.out.length ∧
      ∀ cap, s.length < cap →
        smsUdToUtf8 ud.dcs (decide (udh.length ≠ 0)) (ud.out.take ud.len) ud.udl cap = .ok s := by
  obtain ⟨carries, -⟩ := smsUdFromUtf8_carries built
  exact ⟨carries.header, carries.fits, carries.inside, carries.reads⟩

/-- A part of a message behind its header: six octets and one bit of fill. -/
theorem smsUdFromUtf8_reads_back_part : ∃ ud,
    smsUdFromUtf8 [0x7B, 0x68, 0x69] .auto [5, 0, 3, 42, 2, 1] (List.replicate 140 0xFF) = .ok ud ∧
      ud.udl = 11 ∧ (ud.out.take ud.len).take 6 = [5, 0, 3, 42, 2, 1] ∧ ud.len ≤ 140 ∧
        smsUdToUtf8 ud.dcs true (ud.out.take ud.len) ud.udl 4 = .ok [0x7B, 0x68, 0x69] := by
  have length : (smsUdFromUtf8 [0x7B, 0x68, 0x69] .auto [5, 0, 3, 42, 2, 1]
      (List.replicate 140 0xFF)).map UserData.udl = .ok 11 := by
    decide +kernel
  obtain ⟨ud, built, udl⟩ := exists_of_map_ok length
  obtain ⟨header, fits, -, reads⟩ := smsUdFromUtf8_reads_back [0x7B, 0x68, 0x69]
    [5, 0, 3, 42, 2, 1] (List.replicate 140 0xFF) .auto ud built
  exact ⟨ud, built, udl, header, fits, reads 4 (by decide)⟩

end Pro2Call.Sms

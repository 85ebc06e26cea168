import Pro2Call.Data.BitStream
import Pro2Call.Sms.Utf8

namespace Pro2Call.Sms

open Pro2Call.Data

def gsm7Basic : List Nat := [ 0x0040, 0x00A3, 0x0024, 0x00A5, 0x00E8, 0x00E9, 0x00F9, 0x00EC,
    0x00F2, 0x00C7, 0x000A, 0x00D8, 0x00F8, 0x000D, 0x00C5, 0x00E5,
    0x0394, 0x005F, 0x03A6, 0x0393, 0x039B, 0x03A9, 0x03A0, 0x03A8,
    0x03A3, 0x0398, 0x039E, 0x001B, 0x00C6, 0x00E6, 0x00DF, 0x00C9,
    0x0020, 0x0021, 0x0022, 0x0023, 0x00A4, 0x0025, 0x0026, 0x0027,
    0x0028, 0x0029, 0x002A, 0x002B, 0x002C, 0x002D, 0x002E, 0x002F,
    0x0030, 0x0031, 0x0032, 0x0033, 0x0034, 0x0035, 0x0036, 0x0037,
    0x0038, 0x0039, 0x003A, 0x003B, 0x003C, 0x003D, 0x003E, 0x003F,
    0x00A1, 0x0041, 0x0042, 0x0043, 0x0044, 0x0045, 0x0046, 0x0047,
    0x0048, 0x0049, 0x004A, 0x004B, 0x004C, 0x004D, 0x004E, 0x004F,
    0x0050, 0x0051, 0x0052, 0x0053, 0x0054, 0x0055, 0x0056, 0x0057,
    0x0058, 0x0059, 0x005A, 0x00C4, 0x00D6, 0x00D1, 0x00DC, 0x00A7,
    0x00BF, 0x0061, 0x0062, 0x0063, 0x0064, 0x0065, 0x0066, 0x0067,
    0x0068, 0x0069, 0x006A, 0x006B, 0x006C, 0x006D, 0x006E, 0x006F,
    0x0070, 0x0071, 0x0072, 0x0073, 0x0074, 0x0075, 0x0076, 0x0077,
    0x0078, 0x0079, 0x007A, 0x00E4, 0x00F6, 0x00F1, 0x00FC, 0x00E0]

def gsm7Ext : List (UInt8 × Nat) := [
    (0x0A, 0x000C), (0x14, 0x005E), (0x28, 0x007B), (0x29, 0x007D), (0x2F, 0x005C),
    (0x3C, 0x005B), (0x3D, 0x007E), (0x3E, 0x005D), (0x40, 0x007C), (0x65, 0x20AC)]

/-- The septet, or `0x1B00 | septet` for the extension table. -/
def smsGsm7FromUcs (ucs : Nat) : Option Nat :=
  match (List.range 128).find? fun i => i ≠ 0x1B ∧ gsm7Basic.getD i 0 = ucs with
  | some i => some i
  | none =>
    (gsm7Ext.find? fun entry => entry.2 = ucs).map fun entry =>
      0x1B00 ||| entry.1.toNat

def extToUcs (septet : UInt8) : Option Nat :=
  (gsm7Ext.find? fun entry => entry.1 = septet).map fun entry => entry.2

/-- The body of `sms_gsm7_from_utf8`; `septets` are those written so far. -/
def gsm7Put (cap : Nat) (septets : Bytes) (c : Nat) : Except SmsErr Bytes :=
  match smsGsm7FromUcs c with
  | none => .error .alphabet
  | some g =>
    if g &&& 0x1B00 ≠ 0 then
      if cap < septets.length + 2 then .error .overflow
      else .ok (septets ++ [0x1B, UInt8.ofNat (g &&& 0x7F)])
    else
      if cap < septets.length + 1 then .error .overflow
      else .ok (septets ++ [UInt8.ofNat g])

def smsGsm7FromUtf8 (s : Bytes) (cap : Nat) : Except SmsErr Bytes := eachChar s (gsm7Put cap) 0 []

def gsm7Width (c : Nat) : Except SmsErr Nat :=
  match smsGsm7FromUcs c with
  | none => .error .alphabet
  | some g => .ok (if g &&& 0x1B00 ≠ 0 then 2 else 1)

def gsm7ToUtf8Loop (cap : Nat) : Bytes → Bytes → Except SmsErr Bytes
  | [], out => .ok out
  | septet :: rest, out =>
    if septet = 0x1B then
      match rest with
      | [] => putChar cap out 0x20
      | second :: rest => do
          let out ← putChar cap out ((extToUcs second).getD 0x20)
          gsm7ToUtf8Loop cap rest out
    else if 0x7F < septet then .error .inval
    else do
      let out ← putChar cap out (gsm7Basic.getD septet.toNat 0)
      gsm7ToUtf8Loop cap rest out

def smsGsm7ToUtf8 (septets : Bytes) (cap : Nat) : Except SmsErr Bytes :=
  if cap = 0 then .error .inval else gsm7ToUtf8Loop cap septets []

theorem smsGsm7FromUcs_cases (found : smsGsm7FromUcs c = some g) :
    (g < 128 ∧ g ≠ 0x1B ∧ gsm7Basic.getD g 0 = c) ∨
      ∃ entry ∈ gsm7Ext, entry.2 = c ∧ g = 0x1B00 ||| entry.1.toNat := by
  unfold smsGsm7FromUcs at found
  split at found
  next i first =>
    cases found
    have member := List.mem_of_find?_eq_some first
    have holds := List.find?_some first
    rw [decide_eq_true_eq] at holds
    exact .inl ⟨List.mem_range.mp member, holds⟩
  next =>
    obtain ⟨entry, second, rfl⟩ := Option.map_eq_some_iff.mp found
    have holds := List.find?_some second
    rw [decide_eq_true_eq] at holds
    exact .inr ⟨entry, List.mem_of_find?_eq_some second, holds, rfl⟩

theorem gsm7Basic_plain : ∀ g < 128, g ≠ 0x1B →
    g &&& 0x1B00 = 0 ∧ UInt8.ofNat g ≠ 0x1B ∧ gsm7Basic.getD g 0 < 0x10000 := by
  decide

theorem gsm7Ext_escaped : ∀ entry ∈ gsm7Ext, (0x1B00 ||| entry.1.toNat) &&& 0x1B00 ≠ 0 ∧
      UInt8.ofNat ((0x1B00 ||| entry.1.toNat) &&& 0x7F) = entry.1 ∧
      extToUcs entry.1 = some entry.2 ∧ entry.2 < 0x10000 := by
  decide

theorem spells_plain {c : Char} (small : g < 128) (plain : g ≠ 0x1B)
    (character : gsm7Basic.getD g 0 = c.toNat) :
    Spells gsm7ToUtf8Loop [UInt8.ofNat g] c := by
  obtain ⟨-, unescaped, plane⟩ := gsm7Basic_plain g small plain
  have value : (UInt8.ofNat g).toNat = g := by
    rw [UInt8.toNat_ofNat']
    exact Nat.mod_eq_of_lt (Nat.lt_trans small (by decide))
  have narrow : UInt8.ofNat g ≤ 0x7F := by
    rw [UInt8.le_iff_toNat_le, value]
    exact Nat.le_of_lt_succ small
  refine ⟨length_utf8EncodeChar_le (character ▸ plane), ?_⟩
  intro cap rest out
  rw [List.singleton_append, gsm7ToUtf8Loop.eq_def]
  dsimp only
  rw [if_neg unescaped, if_neg (UInt8.not_lt.mpr narrow), value, character]

theorem spells_escaped {entry : UInt8 × Nat} {c : Char} (member : entry ∈ gsm7Ext)
    (character : entry.2 = c.toNat) : Spells gsm7ToUtf8Loop [0x1B, entry.1] c := by
  obtain ⟨-, -, found, plane⟩ := gsm7Ext_escaped entry member
  refine ⟨?_, ?_⟩
  · have size := length_utf8EncodeChar_le (c := c) (character ▸ plane)
    exact Nat.le_trans size (by simp)
  · intro cap rest out
    rw [List.cons_append, List.singleton_append, gsm7ToUtf8Loop, if_pos rfl, found, character]
    rfl

theorem gsm7Put_cases {septets written : Bytes} (put : gsm7Put cap septets c = .ok written) :
    (∃ g, (g < 128 ∧ g ≠ 0x1B ∧ gsm7Basic.getD g 0 = c) ∧ written = septets ++ [UInt8.ofNat g]) ∨
      ∃ entry ∈ gsm7Ext, entry.2 = c ∧ written = septets ++ [0x1B, entry.1] := by
  unfold gsm7Put at put
  split at put
  · contradiction
  next g found =>
  obtain ⟨small, plain, character⟩ | ⟨entry, member, character, rfl⟩ := smsGsm7FromUcs_cases found
  · obtain ⟨unmarked, -, -⟩ := gsm7Basic_plain g small plain
    rw [if_neg (not_not.mpr unmarked)] at put
    split at put
    · contradiction
    · cases put
      exact .inl ⟨g, ⟨small, plain, character⟩, rfl⟩
  · obtain ⟨marked, second, -, -⟩ := gsm7Ext_escaped entry member
    rw [if_pos marked, second] at put
    split at put
    · contradiction
    · cases put
      exact .inr ⟨entry, member, character, rfl⟩

theorem gsm7Put_ok {c : Char} {septets written : Bytes}
    (put : gsm7Put cap septets c.toNat = .ok written) :
    ∃ unit, written = septets ++ unit ∧ Spells gsm7ToUtf8Loop unit c := by
  obtain ⟨g, ⟨small, plain, character⟩, whole⟩ | ⟨entry, member, character, whole⟩ :=
    gsm7Put_cases put
  · exact ⟨_, whole, spells_plain small plain character⟩
  · exact ⟨_, whole, spells_escaped member character⟩

theorem smsGsm7FromUtf8_ok (read : smsGsm7FromUtf8 s cap = .ok septets) :
    ∃ chars, s = utf8Text chars ∧ SpellsText gsm7ToUtf8Loop septets chars := by
  obtain ⟨-, chars, units, text, rfl, spells⟩ :=
    eachChar_spells id (fun _ => True) (fun _ _ => rfl)
      (fun _ _ _ _ put => ⟨trivial, gsm7Put_ok put⟩) trivial read
  exact ⟨chars, text, spells⟩

def smsGsm7SeptetOff (udhLen : Nat) : Nat := (udhLen * 8 + 6) / 7

def packSeptet (out : Bytes) (bit : Nat) (septet : UInt8) : Bytes :=
  let o := bit / 8
  let sh := bit % 8
  let out := out.set o
    (UInt8.ofNat ((out.getD o 0).toNat &&& (1 <<< sh - 1) ||| septet.toNat <<< sh))
  if 1 < sh then out.set (o + 1) (UInt8.ofNat (septet.toNat >>> (8 - sh))) else out

def packLoop : Bytes → Nat → Bytes → Except SmsErr Bytes
  | [], _, out => .ok out
  | septet :: rest, pos, out =>
    if 0x7F < septet then .error .inval
    else packLoop rest (pos + 1) (packSeptet out (pos * 7) septet)

/-- Pack into the buffer `out`: the octets in use, and the buffer. -/
def smsGsm7Pack (septets : Bytes) (septetOff : Nat) (out : Bytes) : Except SmsErr (Nat × Bytes) :=
  let total := ((septetOff + septets.length) * 7 + 7) / 8
  if out.length < total then .error .overflow
  else do
    let out ← packLoop septets septetOff out
    .ok (total, out)

def unpackSeptet (octets : Bytes) (bit : Nat) : UInt8 :=
  let o := bit / 8
  let sh := bit % 8
  let v := (octets.getD o 0).toNat >>> sh
  let v := if 1 < sh then v ||| (octets.getD (o + 1) 0).toNat <<< (8 - sh) else v
  UInt8.ofNat (v &&& 0x7F)

def smsGsm7Unpack (octets : Bytes) (septetOff count cap : Nat) : Except SmsErr Bytes :=
  if count = 0 then .ok []
  else if cap < count then .error .overflow
  else if octets.length * 8 < (septetOff + count) * 7 then .error .length
  else .ok ((List.range count).map fun i => unpackSeptet octets ((septetOff + i) * 7))

theorem testBit_firstOctet (octet septet : UInt8) (inside : i < 8) :
    (UInt8.ofNat (octet.toNat &&& (1 <<< sh - 1) ||| septet.toNat <<< sh)).toNat.testBit i =
      if i < sh then octet.toNat.testBit i else septet.toNat.testBit (i - sh) := by
  rw [testBit_octet, Nat.testBit_or, Nat.testBit_and, Nat.testBit_shiftLeft,
    Nat.one_shiftLeft, Nat.testBit_two_pow_sub_one]
  by_cases before : i < sh
  · simp [inside, before, Nat.not_le.mpr before]
  · simp [inside, before, Nat.not_lt.mp before]

theorem testBit_septet {septet : UInt8} (narrow : septet ≤ 0x7F) (high : 7 ≤ i) :
    septet.toNat.testBit i = false := by
  apply Nat.testBit_lt_two_pow
  have small : septet.toNat < 2 ^ 7 := Nat.lt_succ_of_le narrow
  exact Nat.lt_of_lt_of_le small (Nat.pow_le_pow_right (by decide) high)

@[simp] theorem length_packSeptet (out : Bytes) (bit : Nat) (septet : UInt8) :
    (packSeptet out bit septet).length = out.length := by
  unfold packSeptet
  dsimp only
  split
  · rw [List.length_set, List.length_set]
  · rw [List.length_set]

/-- What one round leaves: the bits below as they were, the septet, and zeros up
to the end of its last octet. -/
theorem bitAt_packSeptet {out : Bytes} {bit : Nat} (inside : bit + 7 ≤ 8 * out.length) (k : Nat) :
    bitAt (packSeptet out bit septet) k =
      if k < bit then bitAt out k
      else if k / 8 ≤ (bit + 6) / 8 then septet.toNat.testBit (k - bit)
      else bitAt out k := by
  have first : bitAt (out.set (bit / 8) (UInt8.ofNat ((out.getD (bit / 8) 0).toNat &&&
      (1 <<< (bit % 8) - 1) ||| septet.toNat <<< (bit % 8)))) k =
      if k / 8 = bit / 8 then
        if k < bit then bitAt out k else septet.toNat.testBit (k - bit)
      else bitAt out k := by
    rw [bitAt_set (by omega)]
    by_cases same : k / 8 = bit / 8
    · rw [if_pos same, if_pos same, testBit_firstOctet _ _ (by omega), ← same]
      have before : k % 8 < bit % 8 ↔ k < bit := by omega
      rw [show k - bit = k % 8 - bit % 8 by omega]
      simp only [before]
      rfl
    · rw [if_neg same, if_neg same]
  unfold packSeptet
  dsimp only
  by_cases straddles : 1 < bit % 8
  · rw [if_pos straddles, bitAt_set (by rw [List.length_set]; omega), first]
    by_cases second : k / 8 = bit / 8 + 1
    · rw [if_pos second, if_neg (by omega), if_pos (by omega), testBit_octet,
        Nat.testBit_shiftRight, show 8 - bit % 8 + k % 8 = k - bit by omega]
      simp [show k % 8 < 8 by omega]
    · rw [if_neg second]
      split_ifs <;> first | rfl | omega
  · rw [if_neg straddles, first]
    split_ifs <;> first | rfl | omega

theorem take_packSeptet {bit count : Nat} (before : 8 * count ≤ bit)
    (septet : UInt8) : (packSeptet out bit septet).take count = out.take count := by
  unfold packSeptet
  dsimp only
  split
  · rw [List.take_set_of_le (by omega), List.take_set_of_le (by omega)]
  · rw [List.take_set_of_le (by omega)]

structure Packed (septets : Bytes) (pos : Nat) (out packed : Bytes) : Prop where
  narrow : ∀ septet ∈ septets, septet ≤ 0x7F
  length : packed.length = out.length
  take : ∀ count, 8 * count ≤ pos * 7 → packed.take count = out.take count
  below : ∀ k < pos * 7, bitAt packed k = bitAt out k
  septet : ∀ i (inside : i < septets.length), ∀ j < 7,
    bitAt packed ((pos + i) * 7 + j) = septets[i].toNat.testBit j

theorem packLoop_ok (pack : packLoop septets pos out = .ok packed)
    (room : (pos + septets.length) * 7 ≤ 8 * out.length) :
    Packed septets pos out packed := by
  induction septets generalizing pos out with
  | nil =>
    cases pack
    exact ⟨by simp, rfl, fun _ _ => rfl, fun _ _ => rfl, fun i inside => by simp at inside⟩
  | cons septet rest ih =>
    rw [packLoop] at pack
    split at pack
    · contradiction
    next fits =>
    rw [List.length_cons] at room
    have wrote : ∀ k, bitAt (packSeptet out (pos * 7) septet) k = _ := bitAt_packSeptet (by omega)
    obtain ⟨narrow, length, take, below, later⟩ := ih pack (by rw [length_packSeptet]; omega)
    refine ⟨List.forall_mem_cons.mpr ⟨UInt8.not_lt.mp fits, narrow⟩,
      by rw [length, length_packSeptet], ?_, ?_, ?_⟩
    · intro count before
      rw [take count (by omega), take_packSeptet before]
    · intro k before
      rw [below k (by omega), wrote k, if_pos before]
    · intro i inside j low
      cases i with
      | zero =>
        rw [Nat.add_zero, below _ (by omega), wrote, if_neg (by omega),
          if_pos (by omega), Nat.add_sub_cancel_left]
        rfl
      | succ i =>
        have found := later i (Nat.lt_of_succ_lt_succ inside) j low
        rw [show pos + (i + 1) = pos + 1 + i by omega, found]
        rfl

theorem packLoop_behind {septets : Bytes} (pack : packLoop septets pos out = .ok packed)
    (room : (pos + septets.length) * 7 ≤ 8 * out.length)
    (behind : (pos + septets.length) * 7 ≤ k) (zero : bitAt out k = false) :
    bitAt packed k = false := by
  induction septets generalizing pos out with
  | nil =>
    cases pack
    exact zero
  | cons septet rest ih =>
    rw [packLoop] at pack
    split at pack
    · contradiction
    next fits =>
    rw [List.length_cons] at room behind
    refine ih pack (by rw [length_packSeptet]; omega) (by omega) ?_
    rw [bitAt_packSeptet (by omega), if_neg (by omega)]
    split
    · exact testBit_septet (UInt8.not_lt.mp fits) (by omega)
    · exact zero

theorem packLoop_of_narrow (narrow : ∀ x ∈ septets, x ≤ 0x7F) (pos : Nat)
    (out : Bytes) : ∃ packed, packLoop septets pos out = .ok packed := by
  induction septets generalizing pos out with
  | nil => exact ⟨out, rfl⟩
  | cons septet rest ih =>
    obtain ⟨first, others⟩ := List.forall_mem_cons.mp narrow
    rw [packLoop, if_neg (UInt8.not_lt.mpr first)]
    exact ih others _ _

theorem testBit_unpackSeptet (octets : Bytes) (bit i : Nat) :
    (unpackSeptet octets bit).toNat.testBit i = (decide (i < 7) && bitAt octets (bit + i)) := by
  unfold unpackSeptet bitAt
  dsimp only
  rw [testBit_octet, Nat.testBit_and, show 0x7F = 2 ^ 7 - 1 from rfl, Nat.testBit_two_pow_sub_one]
  by_cases low : i < 7
  · have octet : i < 8 := by omega
    simp only [low, octet, decide_true, Bool.true_and, Bool.and_true]
    by_cases first : (bit + i) / 8 = bit / 8
    · have shifted : bit % 8 + i = (bit + i) % 8 := by omega
      rw [first]
      split
      · rw [Nat.testBit_or, Nat.testBit_shiftRight, Nat.testBit_shiftLeft, shifted,
          decide_eq_false (by omega), Bool.false_and, Bool.or_false]
      · rw [Nat.testBit_shiftRight, shifted]
    · have second : (bit + i) / 8 = bit / 8 + 1 := by omega
      rw [second, if_pos (by omega), Nat.testBit_or, Nat.testBit_shiftRight,
        testBit_octet_of_le _ (by omega), Nat.testBit_shiftLeft,
        decide_eq_true (by omega), Bool.false_or, Bool.true_and,
        show i - (8 - bit % 8) = (bit + i) % 8 by omega]
  · simp [low]

theorem smsGsm7Unpack_packed {pos count cap : Nat} (wrote : Packed septets pos out packed)
    (room : septets.length ≤ cap)
    (whole : (pos + septets.length) * 7 ≤ 8 * count)
    (inside : count ≤ packed.length) :
    smsGsm7Unpack (packed.take count) pos septets.length cap = .ok septets := by
  have size : (packed.take count).length = count := List.length_take_of_le inside
  unfold smsGsm7Unpack
  split
  next none => rw [List.length_eq_zero_iff.mp none]
  rw [if_neg (by omega), if_neg (by rw [size]; omega)]
  congr 1
  apply List.ext_getElem (by simp)
  intro i low high
  rw [List.getElem_map, List.getElem_range, ← UInt8.toNat_inj]
  apply Nat.eq_of_testBit_eq
  intro j
  rw [testBit_unpackSeptet]
  by_cases below : j < 7
  · rw [bitAt_take (by omega), wrote.septet i high j below, decide_eq_true below, Bool.true_and]
  · rw [decide_eq_false below, Bool.false_and,
      testBit_septet (wrote.narrow _ (List.getElem_mem high)) (Nat.not_lt.mp below)]

/-- Packing into a buffer with room for the septets keeps the bits before them, sets none
behind them, and unpacking from the same offset gives them back. -/
theorem smsGsm7Pack_unpacks (septets : Bytes) (narrow : ∀ septet ∈ septets, septet ≤ 0x7F)
    (septetOff : Nat) (out : Bytes)
    (room : (septetOff + septets.length) * 7 ≤ 8 * out.length) :
    ∃ total packed, smsGsm7Pack septets septetOff out = .ok (total, packed) ∧
      packed.length = out.length ∧
      (∀ k < septetOff * 7, bitAt packed k = bitAt out k) ∧
      (∀ k, (septetOff + septets.length) * 7 ≤ k → bitAt out k = false → bitAt packed k = false) ∧
      ∀ n cap, (septetOff + septets.length) * 7 ≤ 8 * n → n ≤ out.length → septets.length ≤ cap →
        smsGsm7Unpack (packed.take n) septetOff septets.length cap = .ok septets := by
  obtain ⟨packed, pack⟩ := packLoop_of_narrow narrow septetOff out
  have wrote := packLoop_ok pack room
  refine ⟨((septetOff + septets.length) * 7 + 7) / 8, packed, ?_, wrote.length, wrote.below,
    fun k behind => packLoop_behind pack room behind, ?_⟩
  · rw [smsGsm7Pack, if_neg (by omega), pack]
    rfl
  · intro n cap whole inside fits
    exact smsGsm7Unpack_packed wrote fits whole (wrote.length ▸ inside)

/-- Two septets behind a header of two octets. -/
theorem smsGsm7Pack_unpacks_behind : ∃ total packed,
    smsGsm7Pack [0x41, 0x7F] 3 [1, 0xFF, 0xFF, 0, 0, 0xFF] = .ok (total, packed) ∧
      smsGsm7Unpack packed 3 2 2 = .ok [0x41, 0x7F] := by
  obtain ⟨total, packed, pack, length, -, -, unpack⟩ :=
    smsGsm7Pack_unpacks [0x41, 0x7F]
      (List.forall_mem_cons.mpr ⟨by decide, List.forall_mem_singleton.mpr (by decide)⟩)
      3 [1, 0xFF, 0xFF, 0, 0, 0xFF] (by decide)
  refine ⟨total, packed, pack, ?_⟩
  have all : packed.take 6 = packed := List.take_of_length_le (Nat.le_of_eq length)
  have whole := unpack 6 2 (by decide) (by decide) (by decide)
  rw [all] at whole
  exact whole

end Pro2Call.Sms

import Mathlib.Data.Fin.VecNotation
import Mathlib.Data.Fintype.Basic
import Mathlib.Tactic.FinCases

namespace Pro2Call.Aka

abbrev Bytes := List UInt8

abbrev Block := Fin 16 → UInt8

/-- A string of `n` bits, the most significant first, as TS 35.206 numbers them. -/
abbrev Bits (n : Nat) := Fin n → Bool

def bit (x : UInt8) (i : Nat) : Bool := x.toBitVec.getMsbD i

def bits {n : Nat} (s : Bytes) : Bits n := fun i => bit (s.getD (i / 8) 0) (i % 8)

def Block.bits (b : Block) : Bits 128 := fun i => bit (b ⟨i / 8, by omega⟩) (i % 8)

def octet (f : Fin 8 → Bool) : UInt8 :=
  (List.ofFn f).foldl (fun value one => 2 * value + if one then 1 else 0) 0

def octets (x : Bits 128) : Block := fun j => octet fun i => x ⟨8 * j + i, by omega⟩

structure Error where
  what : String
  code : Int
  deriving DecidableEq, Repr

structure AkaVector where
  mac : Bytes
  ak : Bytes
  res : Bytes
  ck : Bytes
  ik : Bytes
  sqn : Bytes
  deriving DecidableEq, Repr

section Code

-- the block cipher, AES-128 in the source
variable (E : Bits 128 → Bits 128 → Bits 128)

def aes128Block (key input : Block) : Block := octets (E key.bits input.bits)

def xorb (a b : Block) : Block := fun i => a i ^^^ b i

def rotl (a : Block) (rbytes : Nat) : Block := fun i => a ⟨(i + rbytes) % 16, by omega⟩

def blockOf (s : Bytes) (what : String) : Except Error Block :=
  if s.length ≠ 16 then throw ⟨"milenage: " ++ what ++ " must be 16 bytes", 0⟩
  else return fun i => s.getD i 0

def bytes (b : Block) (off n : Nat) : Bytes := ((List.ofFn b).drop off).take n

def in1Block (sqn amf : Bytes) : Block := fun i =>
  if i.val % 8 < 6 then sqn.getD (i % 8) 0 else amf.getD (i % 8 - 6) 0

def cstBlock (value : UInt8) : Block := fun i => if i = 15 then value else 0

def outBlock (K OPc pre cst : Block) : Block := xorb (aes128Block E K (xorb pre cst)) OPc

def akaMilenage (k opc rand sqn amf : Bytes) : Except Error AkaVector := do
  let K ← blockOf k "K"
  let OPc ← blockOf opc "OPc"
  let RAND ← blockOf rand "RAND"
  if sqn.length ≠ 6 then throw ⟨"milenage: SQN must be 6 bytes", 0⟩
  if amf.length ≠ 2 then throw ⟨"milenage: AMF must be 2 bytes", 0⟩
  let temp := aes128Block E K (xorb RAND OPc)
  let out1 := outBlock E K OPc (xorb temp (rotl (xorb (in1Block sqn amf) OPc) 8)) (cstBlock 0)
  let out2 := outBlock E K OPc (rotl (xorb temp OPc) 0) (cstBlock 1)
  let out3 := outBlock E K OPc (rotl (xorb temp OPc) 4) (cstBlock 2)
  let out4 := outBlock E K OPc (rotl (xorb temp OPc) 8) (cstBlock 4)
  return { mac := bytes out1 0 8, ak := bytes out2 0 6, res := bytes out2 8 8,
           ck := bytes out3 0 16, ik := bytes out4 0 16, sqn := sqn }

def akaVerify (k opc rand autn : Bytes) : Except Error AkaVector := do
  if autn.length ≠ 16 then throw ⟨"milenage: AUTN must be 16 bytes", 0⟩
  let amf := (autn.drop 6).take 2
  let probe ← akaMilenage E k opc rand (List.replicate 6 0) amf
  let sqn := List.ofFn fun i : Fin 6 => autn.getD i 0 ^^^ probe.ak.getD i 0
  let v ← akaMilenage E k opc rand sqn amf
  if v.mac ≠ (autn.drop 8).take 8 then
    throw ⟨"AKA: AUTN MAC mismatch (authentication failure)", 1⟩
  return v

end Code

/-! TS 35.206, 4.1: the functions f1 to f5 over a block cipher, bit by bit. -/

namespace Ts35206

def xorBits {n : Nat} (x y : Bits n) : Bits n := fun i => x i ^^ y i

def rot (x : Bits 128) (r : Fin 128) : Bits 128 := fun i => x (i + r)

def c1 : Bits 128 := fun _ => false
def c2 : Bits 128 := fun i => i == 127
def c3 : Bits 128 := fun i => i == 126
def c4 : Bits 128 := fun i => i == 125

variable (E : Bits 128 → Bits 128 → Bits 128) (k opc rand : Bits 128) (sqn : Bits 48)
    (amf : Bits 16)

def temp : Bits 128 := E k (xorBits rand opc)

def in1 : Bits 128 := Fin.append (Fin.append sqn amf) (Fin.append sqn amf)

def out1 : Bits 128 :=
  xorBits (E k (xorBits (xorBits (temp E k opc rand) (rot (xorBits (in1 sqn amf) opc) 64)) c1)) opc

def out2 : Bits 128 := xorBits (E k (xorBits (rot (xorBits (temp E k opc rand) opc) 0) c2)) opc
def out3 : Bits 128 := xorBits (E k (xorBits (rot (xorBits (temp E k opc rand) opc) 32) c3)) opc
def out4 : Bits 128 := xorBits (E k (xorBits (rot (xorBits (temp E k opc rand) opc) 64) c4)) opc

def f1 : Bits 64 := fun i => out1 E k opc rand sqn amf (i.castLE (by omega))
def f2 : Bits 64 := fun i => out2 E k opc rand (i.natAdd 64)
def f3 : Bits 128 := out3 E k opc rand
def f4 : Bits 128 := out4 E k opc rand
def f5 : Bits 48 := fun i => out2 E k opc rand (i.castLE (by omega))

def autn : Bits 128 :=
  Fin.append (Fin.append (xorBits sqn (f5 E k opc rand)) amf) (f1 E k opc rand sqn amf)

end Ts35206

open Ts35206

@[simp] theorem bit_octet (f : Fin 8 → Bool) (i : Fin 8) : bit (octet f) i = f i := by
  have all : ∀ b0 b1 b2 b3 b4 b5 b6 b7 : Bool, ∀ i : Fin 8,
      bit (octet ![b0, b1, b2, b3, b4, b5, b6, b7]) i = ![b0, b1, b2, b3, b4, b5, b6, b7] i := by
    decide
  have listed : f = ![f 0, f 1, f 2, f 3, f 4, f 5, f 6, f 7] := by
    funext j
    fin_cases j <;> rfl
  rw [listed]
  exact all _ _ _ _ _ _ _ _ i

@[simp] theorem bits_octets (x : Bits 128) : (octets x).bits = x := by
  funext i
  have here := bit_octet (fun j => x ⟨8 * (i / 8) + j, by omega⟩) ⟨i % 8, by omega⟩
  simpa [Block.bits, octets, Nat.div_add_mod] using here

@[simp] theorem bits_xorb (a b : Block) : (xorb a b).bits = xorBits a.bits b.bits := by
  funext i
  simp [Block.bits, xorb, xorBits, bit, BitVec.getMsbD_xor]

theorem bits_rotl (a : Block) (r : Nat) (small : r < 16) :
    (rotl a r).bits = rot a.bits ⟨8 * r, by omega⟩ := by
  funext i
  have octetAt : (i.val + 8 * r) % 128 / 8 = (i / 8 + r) % 16 := by omega
  have bitAt : (i.val + 8 * r) % 128 % 8 = i % 8 := by omega
  simp only [Block.bits, rotl, rot, Fin.val_add, octetAt, bitAt]

theorem bits_bytes (b : Block) (off count : Nat) (i : Fin n) (short : n ≤ 8 * count)
    (inside : off + count ≤ 16) :
    bits (bytes b off count) i = b.bits ⟨8 * off + i, by omega⟩ := by
  have octetAt : off + i.val / 8 < 16 := by omega
  have here : (8 * off + i.val) / 8 = off + i / 8 := by omega
  rw [bits, bytes, List.getD_eq_getElem?_getD, List.getElem?_take_of_lt (by omega),
    List.getElem?_drop, List.getElem?_ofFn, dif_pos octetAt]
  simp only [Block.bits, here, Nat.mul_add_mod, Option.getD_some]

theorem bits_append (xs ys : Bytes) (whole : m = 8 * xs.length) :
    Fin.append (bits xs : Bits m) (bits ys : Bits n) = bits (xs ++ ys) := by
  funext i
  induction i using Fin.addCases with
  | left i =>
    have inside : i.val / 8 < xs.length := by omega
    simp [bits, List.getD_eq_getElem?_getD, List.getElem?_append_left inside]
  | right i =>
    have octetAt : (m + i.val) / 8 = xs.length + i / 8 := by omega
    have bitAt : (m + i.val) % 8 = i % 8 := by omega
    simp [bits, List.getD_eq_getElem?_getD, octetAt, bitAt, List.getElem?_append_right]

theorem append_inj {a a' : Bits m} {b b' : Bits n} :
    Fin.append a b = Fin.append a' b' ↔ a = a' ∧ b = b' := by
  refine ⟨fun same => ⟨funext fun i => ?_, funext fun i => ?_⟩, fun same => by rw [same.1, same.2]⟩
  · simpa using congrFun same (i.castAdd n)
  · simpa using congrFun same (i.natAdd m)

theorem bits_inj {xs ys : Bytes} (long : xs.length = ys.length)
    (whole : n = 8 * xs.length) : (bits xs : Bits n) = bits ys ↔ xs = ys := by
  refine ⟨fun same => List.ext_getElem long fun j inside inside' => ?_, fun same => by rw [same]⟩
  apply UInt8.toBitVec_inj.mp
  apply BitVec.eq_of_getMsbD_eq
  intro i small
  have here := congrFun same ⟨8 * j + i, by omega⟩
  have octetAt : (8 * j + i) / 8 = j := by omega
  simpa [bits, bit, octetAt, Nat.mul_add_mod, Nat.mod_eq_of_lt small, inside, inside'] using here

theorem bits_in1Block {sqn amf : Bytes} (six : sqn.length = 6) (two : amf.length = 2) :
    (in1Block sqn amf).bits = in1 (bits sqn) (bits amf) := by
  have spelled : in1Block sqn amf = fun i : Fin 16 => (sqn ++ amf ++ (sqn ++ amf)).getD i 0 := by
    match sqn, amf, six, two with
    | [_, _, _, _, _, _], [_, _], _, _ =>
      funext i
      fin_cases i <;> rfl
  rw [in1, bits_append _ _ (by omega), bits_append _ _ (by simp [six, two]), spelled]
  rfl

theorem bits_cstBlock : (cstBlock 0).bits = c1 ∧ (cstBlock 1).bits = c2 ∧
    (cstBlock 2).bits = c3 ∧ (cstBlock 4).bits = c4 := by
  simp only [funext_iff]
  decide

section Vector

variable (E : Bits 128 → Bits 128 → Bits 128) {k opc rand : Bytes}

@[simp] theorem bits_aes128Block (key input : Block) :
    (aes128Block E key input).bits = E key.bits input.bits := bits_octets _

theorem bits_outBlock (K OPc pre cst : Block) :
    (outBlock E K OPc pre cst).bits = xorBits (E K.bits (xorBits pre.bits cst.bits)) OPc.bits := by
  simp [outBlock]

/-- `v` is what f1 to f5 give at `sqn` and `amf`. -/
structure Computed (k opc rand : Bits 128) (sqn amf : Bytes) (v : AkaVector) : Prop where
  macLength : v.mac.length = 8
  akLength : v.ak.length = 6
  mac : bits v.mac = f1 E k opc rand (bits sqn) (bits amf)
  ak : bits v.ak = f5 E k opc rand
  res : bits v.res = f2 E k opc rand
  ck : bits v.ck = f3 E k opc rand
  ik : bits v.ik = f4 E k opc rand
  sqn : v.sqn = sqn

theorem akaMilenage_computes (kLength : k.length = 16) (opcLength : opc.length = 16)
    (randLength : rand.length = 16) {sqn amf : Bytes} (six : sqn.length = 6)
    (two : amf.length = 2) : ∃ v, akaMilenage E k opc rand sqn amf = .ok v ∧
      Computed E (bits k) (bits opc) (bits rand) sqn amf v := by
  have block : ∀ {s : Bytes} what, s.length = 16 → blockOf s what = .ok fun i => s.getD i 0 := by
    intro s what long
    rw [blockOf, if_neg (by omega)]
    rfl
  have read : ∀ s : Bytes, Block.bits (fun i => s.getD i 0) = bits s := fun _ => rfl
  obtain ⟨first, second, third, fourth⟩ := bits_cstBlock
  simp only [akaMilenage, block _ kLength, block _ opcLength, block _ randLength, six, two]
  refine ⟨_, rfl, ⟨by simp [bytes], by simp [bytes], ?_, ?_, ?_, ?_, ?_, rfl⟩⟩
  all_goals
    funext i
    rw [bits_bytes _ _ _ _ (by omega) (by omega)]
    simp only [bits_outBlock, bits_xorb, bits_rotl, bits_in1Block six two, bits_aes128Block,
      first, second, third, fourth, read, Nat.reduceLT]
  · exact congrArg (out1 E _ _ _ _ _) (Fin.ext (by simp))
  · exact congrArg (out2 E _ _ _) (Fin.ext (by simp))
  · exact congrArg (out2 E _ _ _) (Fin.ext (by simp [Nat.add_comm]))
  · exact congrArg (out3 E _ _ _) (Fin.ext (by simp))
  · exact congrArg (out4 E _ _ _) (Fin.ext (by simp))

def Sends (k opc rand autn sqn amf : Bytes) : Prop :=
  sqn.length = 6 ∧ amf.length = 2 ∧
    bits autn = Ts35206.autn E (bits k) (bits opc) (bits rand) (bits sqn) (bits amf)

theorem sends_iff {autn sqn amf : Bytes} (long : autn.length = 16)
    (six : sqn.length = 6) (two : amf.length = 2)
    (computed : Computed E (bits k) (bits opc) (bits rand) sqn amf v) :
    Sends E k opc rand autn sqn amf ↔
      sqn = (List.ofFn fun i : Fin 6 => autn.getD i 0 ^^^ v.ak.getD i 0) ∧
      amf = (autn.drop 6).take 2 ∧ v.mac = (autn.drop 8).take 8 := by
  have parts : (bits autn : Bits 128) = Fin.append (Fin.append (bits (autn.take 6) : Bits 48)
      (bits ((autn.drop 6).take 2) : Bits 16)) (bits ((autn.drop 8).take 8) : Bits 64) := by
    rw [bits_append _ _ (by simp [long]), bits_append _ _ (by simp [long])]
    match autn, long with
    | [_, _, _, _, _, _, _, _, _, _, _, _, _, _, _, _], _ => rfl
  have unmask : (bits (List.ofFn fun i : Fin 6 => autn.getD i 0 ^^^ v.ak.getD i 0) : Bits 48) =
      xorBits (bits (autn.take 6)) (bits v.ak) := by
    funext i
    have inside : i.val / 8 < 6 := by omega
    simp only [bits, xorBits, List.getD_eq_getElem?_getD, List.getElem?_ofFn, dif_pos inside,
      List.getElem?_take_of_lt inside, Option.getD_some, bit, UInt8.toBitVec_xor,
      BitVec.getMsbD_xor]
  have swap : ∀ x y z : Bits 48, x = xorBits y z ↔ y = xorBits x z := by
    intro x y z
    constructor <;> rintro rfl <;> funext i <;> simp [xorBits]
  rw [Sends, and_iff_right six, and_iff_right two, Ts35206.autn, ← computed.ak, ← computed.mac,
    parts, append_inj, append_inj, ← swap, ← unmask, bits_inj (by simp [six]) (by simp [six]),
    bits_inj (by simp [long, two]) (by simp [long]),
    bits_inj (by simp [long, computed.macLength]) (by simp [long]), and_assoc]
  exact and_congr_right' (and_congr eq_comm eq_comm)

theorem Computed.ak_eq {sqn amf sqn' amf' : Bytes}
    (computed : Computed E (bits k) (bits opc) (bits rand) sqn amf v)
    (other : Computed E (bits k) (bits opc) (bits rand) sqn' amf' v') : v.ak = v'.ak := by
  refine (bits_inj ?_ (by rw [computed.akLength])).mp (computed.ak.trans other.ak.symm)
  rw [computed.akLength, other.akLength]

theorem akaVerify_ok_iff {autn : Bytes} (kLength : k.length = 16) (opcLength : opc.length = 16)
    (randLength : rand.length = 16) (long : autn.length = 16) :
    (∀ v, akaVerify E k opc rand autn = .ok v ↔ ∃ sqn amf,
      Sends E k opc rand autn sqn amf ∧ akaMilenage E k opc rand sqn amf = .ok v) ∧
    (∀ sqn amf sqn' amf', Sends E k opc rand autn sqn amf → Sends E k opc rand autn sqn' amf' →
      sqn = sqn' ∧ amf = amf') ∧
    (∀ sqn amf, Sends E k opc rand autn sqn amf →
      ∃ v, akaVerify E k opc rand autn = .ok v ∧ v.sqn = sqn) ∧
    ∀ sqn amf, sqn.length = 6 → amf.length = 2 → ∃ v, akaMilenage E k opc rand sqn amf = .ok v ∧
      Computed E (bits k) (bits opc) (bits rand) sqn amf v := by
  have computes := fun sqn amf => @akaMilenage_computes E k opc rand kLength opcLength randLength
    sqn amf
  have two : ((autn.drop 6).take 2).length = 2 := by simp [long]
  obtain ⟨probe, probed, mask⟩ := computes (List.replicate 6 0) _ rfl two
  obtain ⟨actual, ran, computed⟩ := computes
    (List.ofFn fun i : Fin 6 => autn.getD i 0 ^^^ probe.ak.getD i 0) _ (by simp) two
  have verified : akaVerify E k opc rand autn = if actual.mac ≠ (autn.drop 8).take 8 then
      throw ⟨"AKA: AUTN MAC mismatch (authentication failure)", 1⟩ else .ok actual := by
    simp only [akaVerify, long, ne_eq, not_true_eq_false, if_false, probed, bind, Except.bind, ran]
    split <;> rfl
  -- whatever number was sent, it is the one the probe's mask uncovers
  have sent : ∀ sqn amf, Sends E k opc rand autn sqn amf →
      sqn = (List.ofFn fun i : Fin 6 => autn.getD i 0 ^^^ probe.ak.getD i 0) ∧
      amf = (autn.drop 6).take 2 ∧ actual.mac = (autn.drop 8).take 8 := by
    intro sqn amf sends
    obtain ⟨v, again, found⟩ := computes sqn amf sends.1 sends.2.1
    obtain ⟨number, field, code⟩ := (sends_iff E long sends.1 sends.2.1 found).mp sends
    rw [found.ak_eq E mask] at number
    subst number field
    cases ran.symm.trans again
    exact ⟨rfl, rfl, code⟩
  have accepts : actual.mac = (autn.drop 8).take 8 → Sends E k opc rand autn
      (List.ofFn fun i : Fin 6 => autn.getD i 0 ^^^ probe.ak.getD i 0) ((autn.drop 6).take 2) :=
    fun code => (sends_iff E long (by simp) two computed).mpr
      ⟨by rw [computed.ak_eq E mask], rfl, code⟩
  refine ⟨fun v => ⟨fun returned => ?_, ?_⟩, ?_, ?_, computes⟩
  · rw [verified] at returned
    split at returned
    · cases returned
    next code =>
      cases returned
      exact ⟨_, _, accepts (not_not.mp code), ran⟩
  · rintro ⟨sqn, amf, sends, again⟩
    obtain ⟨rfl, rfl, code⟩ := sent sqn amf sends
    rw [verified, if_neg (not_not.mpr code), ← ran, again]
  · intro sqn amf sqn' amf' one other
    obtain ⟨rfl, rfl, _⟩ := sent sqn amf one
    obtain ⟨rfl, rfl, _⟩ := sent sqn' amf' other
    exact ⟨rfl, rfl⟩
  · intro sqn amf sends
    obtain ⟨rfl, rfl, code⟩ := sent sqn amf sends
    exact ⟨actual, by rw [verified, if_neg (not_not.mpr code)], computed.sqn⟩

end Vector

/-- Under a cipher that adds the key, the mask is the challenge: it hides number 1 in
the token. -/
theorem akaVerify_ok_iff_masked :
    ∃ v, akaVerify xorBits (List.replicate 16 7) (List.replicate 16 0) (List.replicate 16 5)
      [5, 5, 5, 5, 5, 4, 0x80, 0, 5, 5, 5, 5, 5, 4, 0x85, 5] = .ok v ∧
      v.sqn = [0, 0, 0, 0, 0, 1] := by
  refine (akaVerify_ok_iff xorBits rfl rfl rfl rfl).2.2.1 _ [0x80, 0] ⟨rfl, rfl, ?_⟩
  rw [funext_iff]
  decide +kernel

end Pro2Call.Aka

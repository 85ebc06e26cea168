import Pro2Call.Data.Text

namespace Pro2Call.Data

/-! The encoding of octets by letters of six bits (RFC 4648). -/

def base64Alphabet : List UInt8 :=
  ascii "ABCDEFGHIJKLMNOPQRSTUVWXYZabcdefghijklmnopqrstuvwxyz0123456789+/"

def base64Letter (v : Nat) : UInt8 := base64Alphabet.getD v 0

def sextets : List UInt8 → List Nat
  | a :: b :: c :: rest =>
    a.toNat / 4 :: (a.toNat % 4 * 16 + b.toNat / 16) :: (b.toNat % 16 * 4 + c.toNat / 64) ::
      c.toNat % 64 :: sextets rest
  | [a, b] => [a.toNat / 4, a.toNat % 4 * 16 + b.toNat / 16, b.toNat % 16 * 4]
  | [a] => [a.toNat / 4, a.toNat % 4 * 16]
  | [] => []

def base64Padding (octets : List UInt8) : List UInt8 :=
  List.replicate ((3 - octets.length % 3) % 3) 0x3D

def base64 (octets : List UInt8) : List UInt8 :=
  (sextets octets).map base64Letter ++ base64Padding octets

theorem sextets_lt (octets : List UInt8) : ∀ v ∈ sextets octets, v < 64 := by
  induction octets using sextets.induct with
  | case1 a b c rest ih =>
    have first := a.toNat_lt
    have second := b.toNat_lt
    have third := c.toNat_lt
    rw [sextets]
    simp only [List.mem_cons, forall_eq_or_imp]
    exact ⟨by omega, by omega, by omega, by omega, ih⟩
  | case2 a b =>
    have first := a.toNat_lt
    have second := b.toNat_lt
    simp only [sextets, List.mem_cons, forall_eq_or_imp, List.not_mem_nil, false_imp_iff,
      implies_true, and_true]
    omega
  | case3 a =>
    have first := a.toNat_lt
    simp only [sextets, List.mem_cons, forall_eq_or_imp, List.not_mem_nil, false_imp_iff,
      implies_true, and_true]
    omega
  | case4 => simp [sextets]

def isBlank (c : UInt8) : Bool := c = 0x20 || c = 0x09 || c = 0x0D || c = 0x0A

/-- The encoding with or without its padding, and with spaces, tabs and line
breaks anywhere. -/
def SpreadBase64 (octets text : List UInt8) : Prop :=
  text.filter (!isBlank ·) = base64 octets ∨
    text.filter (!isBlank ·) = (sextets octets).map base64Letter

end Pro2Call.Data

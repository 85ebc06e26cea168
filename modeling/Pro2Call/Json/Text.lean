import Mathlib.Algebra.Group.Nat.Defs
import Mathlib.Data.List.Basic
import Mathlib.Tactic.Common

namespace Pro2Call.Json

def jsonIsWs (c : UInt8) : Bool := c == 0x20 || c == 0x09 || c == 0x0A || c == 0x0D

def jsonIsDigit (c : UInt8) : Bool := decide (0x30 ≤ c) && decide (c ≤ 0x39)

def jsonHex (c : UInt8) : Option Nat :=
  if 0x30 ≤ c ∧ c ≤ 0x39 then some (c.toNat - 0x30)
  else if 0x61 ≤ c ∧ c ≤ 0x66 then some (c.toNat - 0x61 + 10)
  else if 0x41 ≤ c ∧ c ≤ 0x46 then some (c.toNat - 0x41 + 10)
  else none

def quote : UInt8 := 0x22
def backslash : UInt8 := 0x5C
def comma : UInt8 := 0x2C
def colon : UInt8 := 0x3A

def openOf (obj : Bool) : UInt8 :=
  if obj then 0x7B else 0x5B

def closeOf (obj : Bool) : UInt8 :=
  if obj then 0x7D else 0x5D

def isShortEscape (c : UInt8) : Bool :=
  c == quote || c == backslash || c == 0x2F || c == 0x62 || c == 0x66 ||
    c == 0x6E || c == 0x72 || c == 0x74

def isOrdinary (c : UInt8) : Bool := c != quote && c != backslash && decide (0x20 ≤ c)

/-! The grammar of RFC 8259 as syntax trees. A tree keeps every choice the
grammar leaves to the sender, white space included, so that printing it gives
one text, and the texts of the grammar are the printed trees. The leaves carry
the conditions on their bytes. -/

structure Ws where
  bytes : List UInt8
  blank : ∀ c ∈ bytes, jsonIsWs c = true

def Ws.none : Ws where
  bytes := []
  blank := by simp

inductive JsonChar where
  | plain (byte : UInt8) (ordinary : isOrdinary byte = true)
  | short (letter : UInt8) (known : isShortEscape letter = true)
  | unicode (a b c d : UInt8) (hex : ∀ digit ∈ [a, b, c, d], (jsonHex digit).isSome = true)

def JsonChar.print : JsonChar → List UInt8
  | .plain byte _ => [byte]
  | .short letter _ => [backslash, letter]
  | .unicode a b c d _ => [backslash, 0x75, a, b, c, d]

def JsonChar.escaped : JsonChar → Bool
  | .plain _ _ => false
  | .short _ _ => true
  | .unicode _ _ _ _ _ => true

abbrev JsonBody := List JsonChar

def JsonBody.print (body : JsonBody) : List UInt8 := body.flatMap JsonChar.print

def JsonBody.escaped (body : JsonBody) : Bool := body.any JsonChar.escaped

@[simp] theorem JsonBody.print_nil : JsonBody.print [] = [] := rfl

@[simp] theorem JsonBody.print_cons (char : JsonChar) (body : JsonBody) :
    JsonBody.print (char :: body) = char.print ++ JsonBody.print body := rfl

@[simp] theorem JsonBody.escaped_nil : JsonBody.escaped [] = false := rfl

@[simp] theorem JsonBody.escaped_cons (char : JsonChar) (body : JsonBody) :
    JsonBody.escaped (char :: body) = (char.escaped || JsonBody.escaped body) := rfl

structure DigitRun where
  first : UInt8
  rest : List UInt8
  digits : ∀ c ∈ first :: rest, jsonIsDigit c = true

def DigitRun.print (run : DigitRun) : List UInt8 := run.first :: run.rest

inductive IntPart where
  | zero
  | run (digits : DigitRun) (leading : digits.first ≠ 0x30)

def IntPart.print : IntPart → List UInt8
  | .zero => [0x30]
  | .run digits _ => digits.print

structure Exponent where
  mark : UInt8
  isMark : mark = 0x65 ∨ mark = 0x45
  sign : Option UInt8
  isSign : ∀ c ∈ sign, c = 0x2B ∨ c = 0x2D
  digits : DigitRun

def Exponent.print (exponent : Exponent) : List UInt8 :=
  exponent.mark :: (exponent.sign.toList ++ exponent.digits.print)

def fracPrint : Option DigitRun → List UInt8
  | .none => []
  | .some digits => 0x2E :: digits.print

def expPrint : Option Exponent → List UInt8
  | .none => []
  | .some exponent => exponent.print

structure JsonNumber where
  minus : Bool
  int : IntPart
  frac : Option DigitRun
  exp : Option Exponent

def JsonNumber.print (number : JsonNumber) : List UInt8 :=
  (if number.minus then [0x2D] else []) ++ number.int.print ++
    fracPrint number.frac ++ expPrint number.exp

def JsonNumber.isInt (number : JsonNumber) : Bool := number.frac.isNone && number.exp.isNone

inductive JsonScalar where
  | null
  | bool (value : Bool)
  | num (number : JsonNumber)
  | str (body : JsonBody)

def litNull : List UInt8 := [0x6E, 0x75, 0x6C, 0x6C]
def litTrue : List UInt8 := [0x74, 0x72, 0x75, 0x65]
def litFalse : List UInt8 := [0x66, 0x61, 0x6C, 0x73, 0x65]

def JsonScalar.print : JsonScalar → List UInt8
  | .null => litNull
  | .bool true => litTrue
  | .bool false => litFalse
  | .num number => number.print
  | .str body => quote :: (body.print ++ [quote])

/-- What stands before a child's value: white space in an array, the member
name and the colon in an object. -/
inductive Slot : Bool → Type where
  | element (gap : Ws) : Slot false
  | member (before : Ws) (key : JsonBody) (after gap : Ws) : Slot true

def Slot.print : {obj : Bool} → Slot obj → List UInt8
  | _, .element gap => gap.bytes
  | _, .member before key after gap =>
    before.bytes ++ quote :: (key.print ++ quote :: (after.bytes ++ colon :: gap.bytes))

mutual

inductive JsonValue : Type where
  | scalar (leaf : JsonScalar)
  | empty (obj : Bool) (gap : Ws)
  | container (obj : Bool) (children : JsonChildren obj)

inductive JsonChildren : Bool → Type where
  | last {obj : Bool} (slot : Slot obj) (value : JsonValue) (after : Ws) :
      JsonChildren obj
  | more {obj : Bool} (slot : Slot obj) (value : JsonValue) (after : Ws)
      (rest : JsonChildren obj) : JsonChildren obj

end

mutual

def JsonValue.print : JsonValue → List UInt8
  | .scalar leaf => leaf.print
  | .empty obj gap => openOf obj :: (gap.bytes ++ [closeOf obj])
  | .container obj children => openOf obj :: (children.print ++ [closeOf obj])

def JsonChildren.print : {obj : Bool} → JsonChildren obj → List UInt8
  | _, .last slot value after => slot.print ++ value.print ++ after.bytes
  | _, .more slot value after rest =>
    slot.print ++ value.print ++ after.bytes ++ comma :: rest.print

end

mutual

/-- Levels of nesting: a scalar is one level, a container one more than the
deepest of its children. -/
def JsonValue.depth : JsonValue → Nat
  | .scalar _ => 1
  | .empty _ _ => 1
  | .container _ children => children.depth + 1

def JsonChildren.depth : {obj : Bool} → JsonChildren obj → Nat
  | _, .last _ value _ => value.depth
  | _, .more _ value _ rest => max value.depth rest.depth

end

mutual

def JsonValue.size : JsonValue → Nat
  | .scalar _ => 1
  | .empty _ _ => 1
  | .container _ children => children.size + 1

def JsonChildren.size : {obj : Bool} → JsonChildren obj → Nat
  | _, .last _ value _ => value.size
  | _, .more _ value _ rest => value.size + rest.size

end

def JsonChildren.count : {obj : Bool} → JsonChildren obj → Nat
  | _, .last _ _ _ => 1
  | _, .more _ _ _ rest => rest.count + 1

def bom : List UInt8 := [0xEF, 0xBB, 0xBF]

/-- `text` is one JSON text with the value `value`, after an optional byte
order mark. -/
def JsonText (text : List UInt8) (value : JsonValue) : Prop :=
  ∃ (mark : List UInt8) (before after : Ws), (mark = [] ∨ mark = bom) ∧
      text = mark ++ (before.bytes ++ (value.print ++ after.bytes))

end Pro2Call.Json

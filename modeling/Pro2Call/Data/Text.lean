import Mathlib.Data.List.DropRight
import Pro2Call.Data.Bytes

/-! Text in octets: searching a delimiter, groups behind headings, lines and
their terminators, trimmed runs and decimal numbers. -/

namespace Pro2Call.Data

def ascii (text : String) : List UInt8 := text.toList.map fun c => UInt8.ofNat c.toNat

section BreakAt

variable {α : Type} [DecidableEq α] {stop : α} {text before after : List α}

def breakAt (stop : α) : List α → Option (List α × List α)
  | [] => none
  | c :: rest =>
    if c = stop then some ([], rest)
    else (breakAt stop rest).map fun parts => (c :: parts.1, parts.2)

theorem breakAt_append (clean : stop ∉ before) (after : List α) :
    breakAt stop (before ++ stop :: after) = some (before, after) := by
  induction before with
  | nil => simp [breakAt]
  | cons c before ih =>
    rw [List.mem_cons, not_or] at clean
    rw [List.cons_append, breakAt, if_neg (Ne.symm clean.1), ih clean.2]
    rfl

theorem breakAt_eq_none (clean : stop ∉ text) : breakAt stop text = none := by
  induction text with
  | nil => rfl
  | cons c text ih =>
    rw [List.mem_cons, not_or] at clean
    rw [breakAt, if_neg (Ne.symm clean.1), ih clean.2]
    rfl

theorem breakAt_cases (stop : α) (text : List α) :
    stop ∉ text ∧ breakAt stop text = none ∨
      ∃ before after, text = before ++ stop :: after ∧ stop ∉ before ∧
        breakAt stop text = some (before, after) := by
  by_cases member : stop ∈ text
  · obtain ⟨before, after, rfl, clean⟩ := List.eq_append_cons_of_mem member
    exact .inr ⟨before, after, rfl, clean, breakAt_append clean after⟩
  · exact .inl ⟨member, breakAt_eq_none member⟩

theorem breakAt_some (found : breakAt stop text = some (before, after)) :
    text = before ++ stop :: after ∧ stop ∉ before := by
  rcases breakAt_cases stop text with ⟨_, unread⟩ | ⟨front, back, rfl, clean, split⟩
  · cases unread.symm.trans found
  · cases split.symm.trans found
    exact ⟨rfl, clean⟩

end BreakAt

section Groups

variable {α β : Type}

/-- What stands before the first heading; then each heading and what follows it
up to the next. -/
def groups (isHead : α → Bool) : List α → List α × List (α × List α)
  | [] => ([], [])
  | x :: xs =>
    if isHead x then ([], (x, (groups isHead xs).1) :: (groups isHead xs).2)
    else (x :: (groups isHead xs).1, (groups isHead xs).2)

end Groups

def cr : UInt8 := 0x0D

def lf : UInt8 := 0x0A

/-- The first line, its terminator (a line feed, with the carriage return before
it if there is one) and what follows. -/
def splitLine (text : List UInt8) : Option (List UInt8 × List UInt8 × List UInt8) :=
  match breakAt lf text with
  | none => none
  | some (line, rest) =>
    if line.getLast? = some cr then some (line.dropLast, [cr, lf], rest)
    else some (line, [lf], rest)

variable {text line mark rest : List UInt8}

def EndsLine (line mark : List UInt8) : Prop :=
  lf ∉ line ∧ (mark = [cr, lf] ∨ mark = [lf] ∧ line.getLast? ≠ some cr)

theorem splitLine_append (ends : EndsLine line mark) (rest : List UInt8) :
    splitLine (line ++ (mark ++ rest)) = some (line, mark, rest) := by
  obtain ⟨clean, rfl | ⟨rfl, bare⟩⟩ := ends
  · have whole : lf ∉ line ++ [cr] := by simpa [clean] using (by decide : lf ≠ cr)
    have split := breakAt_append whole rest
    rw [List.append_assoc] at split
    change splitLine (line ++ ([cr] ++ lf :: rest)) = _
    simp only [splitLine, split]
    simp
  · simp [splitLine, breakAt_append clean rest, bare]

theorem splitLine_some (split : splitLine text = some (line, mark, rest)) :
    text = line ++ (mark ++ rest) ∧ EndsLine line mark := by
  unfold splitLine at split
  cases found : breakAt lf text with
  | none =>
    rw [found] at split
    cases split
  | some parts =>
    obtain ⟨before, after⟩ := parts
    obtain ⟨rfl, clean⟩ := breakAt_some found
    rw [found] at split
    dsimp only at split
    split at split
    next last =>
      cases split
      have whole := List.dropLast_append_getLast? cr last
      refine ⟨?_, fun member => clean (List.dropLast_subset _ member), .inl rfl⟩
      nth_rewrite 1 [← whole]
      simp
    next bare =>
      cases split
      exact ⟨rfl, clean, .inr ⟨rfl, bare⟩⟩

theorem EndsLine.mark_length (ends : EndsLine line mark) : 0 < mark.length := by
  obtain ⟨_, rfl | ⟨rfl, _⟩⟩ := ends <;> decide

theorem splitLine_length (split : splitLine text = some (line, mark, rest)) :
    rest.length < text.length := by
  obtain ⟨rfl, ends⟩ := splitLine_some split
  have positive := ends.mark_length
  simp only [List.length_append]
  omega

theorem splitLine_extend (split : splitLine text = some (line, mark, rest)) (more : List UInt8) :
    splitLine (text ++ more) = some (line, mark, rest ++ more) := by
  obtain ⟨rfl, ends⟩ := splitLine_some split
  rw [List.append_assoc, List.append_assoc, splitLine_append ends]

theorem rdropWhile_eq_self (last : ∀ c ∈ text.getLast?, more c = false) :
    text.rdropWhile more = text := by
  rw [List.rdropWhile_eq_self_iff]
  intro present
  rw [last _ (by rw [List.getLast?_eq_some_getLast present]; rfl)]
  exact Bool.false_ne_true

theorem rdropWhile_append_of_last {run : List UInt8}
    (last : ∀ c ∈ text.getLast?, more c = false) (all : ∀ c ∈ run, more c = true) :
    (text ++ run).rdropWhile more = text := by
  have stops : Stops more text.reverse := by
    rw [Stops, List.head?_reverse]
    exact last
  rw [List.rdropWhile, List.reverse_append, dropWhile_append_of_stops
    (fun c member => all c (List.mem_reverse.mp member)) stops, List.reverse_reverse]

theorem dropWhile_eq_self (first : Stops more text) : text.dropWhile more = text := by
  cases text with
  | nil => rfl
  | cons c text =>
    rw [stops_cons] at first
    simp [first]

def isDigit (c : UInt8) : Bool := 0x30 ≤ c && c ≤ 0x39

def digit (n : Nat) : UInt8 := UInt8.ofNat (0x30 + n % 10)

def decimal (n : Nat) : List UInt8 :=
  if n / 10 = 0 then [digit n] else decimal (n / 10) ++ [digit n]
termination_by n

def decimalValue (text : List UInt8) : Nat :=
  text.foldl (fun value c => value * 10 + (c.toNat - 0x30)) 0

theorem toNat_digit (n : Nat) : (digit n).toNat = 0x30 + n % 10 := by
  have small : n % 10 < 10 := Nat.mod_lt _ (by decide)
  rw [digit, UInt8.toNat_ofNat', Nat.mod_eq_of_lt (by omega)]

theorem isDigit_digit (n : Nat) : isDigit (digit n) = true := by
  have small : n % 10 < 10 := Nat.mod_lt _ (by decide)
  simp only [isDigit, Bool.and_eq_true, decide_eq_true_eq, UInt8.le_iff_toNat_le, toNat_digit]
  constructor
  · exact Nat.le_add_right _ _
  · change 0x30 + n % 10 ≤ 0x39
    omega

theorem all_isDigit_decimal (n : Nat) : (decimal n).all isDigit = true := by
  induction n using decimal.induct with
  | case1 n small =>
    rw [decimal, if_pos small]
    simp [isDigit_digit]
  | case2 n large ih =>
    rw [decimal, if_neg large, List.all_append, ih]
    simp [isDigit_digit]

theorem decimalValue_concat (text : List UInt8) (c : UInt8) :
    decimalValue (text ++ [c]) = decimalValue text * 10 + (c.toNat - 0x30) := by
  simp [decimalValue]

theorem decimalValue_decimal (n : Nat) : decimalValue (decimal n) = n := by
  induction n using decimal.induct with
  | case1 n small =>
    rw [decimal, if_pos small, ← List.nil_append [digit n], decimalValue_concat, toNat_digit]
    simp only [decimalValue, List.foldl_nil]
    omega
  | case2 n large ih =>
    rw [decimal, if_neg large, decimalValue_concat, ih, toNat_digit]
    omega

theorem decimal_ne_nil (n : Nat) : decimal n ≠ [] := by
  rw [decimal]
  split <;> simp

theorem length_decimal_le (size : Nat) (small : n < 10 ^ (size + 1)) :
    (decimal n).length ≤ size + 1 := by
  induction size generalizing n with
  | zero =>
    rw [decimal, if_pos (by omega)]
    simp
  | succ size ih =>
    rw [decimal]
    split
    · simp
    · have shorter := @ih (n / 10) (by rw [pow_succ] at small; omega)
      simpa using shorter

end Pro2Call.Data

import Pro2Call.Data.Bytes
import Pro2Call.Json.Parse
import Mathlib.Data.List.TakeWhile

namespace Pro2Call.Json

open Pro2Call.Data

variable {rest text : List UInt8}

theorem dropWhile_ws (gap : Ws) (stops : Stops jsonIsWs rest) :
    (gap.bytes ++ rest).dropWhile jsonIsWs = rest :=
  dropWhile_append_of_stops gap.blank stops

theorem exists_ws (text : List UInt8) :
    ∃ gap : Ws, text = gap.bytes ++ text.dropWhile jsonIsWs := by
  refine ⟨⟨text.takeWhile jsonIsWs, ?_⟩, ?_⟩
  · intro c member
    exact List.mem_takeWhile_imp member
  · exact List.takeWhile_append_dropWhile.symm

theorem scanBody_quote (rest : List UInt8) : scanBody (quote :: rest) = some (rest, false) := by
  rw [scanBody.eq_def]
  exact if_pos rfl

theorem scanBody_char (char : JsonChar) (rest : List UInt8) :
    scanBody (char.print ++ rest) = (scanBody rest).map fun scanned =>
        (scanned.1, char.escaped || scanned.2) := by
  cases char with
  | plain byte ordinary =>
    simp only [isOrdinary, Bool.and_eq_true, bne_iff_ne, ne_eq, decide_eq_true_eq] at ordinary
    obtain ⟨⟨notQuote, notBackslash⟩, visible⟩ := ordinary
    simp only [JsonChar.print, List.cons_append, List.nil_append]
    rw [scanBody.eq_def]
    simp [notQuote, notBackslash, UInt8.not_lt.mpr visible, JsonChar.escaped]
  | short letter known =>
    simp only [JsonChar.print, List.cons_append, List.nil_append]
    rw [scanBody.eq_def]
    simp [known, show backslash ≠ quote by decide, JsonChar.escaped]
  | unicode a b c d hex =>
    have notShort : isShortEscape 0x75 = false := by decide
    have allHex : ([a, b, c, d].all fun digit =>
        (jsonHex digit).isSome) = true := List.all_eq_true.mpr hex
    simp only [JsonChar.print, List.cons_append, List.nil_append]
    rw [scanBody.eq_def]
    simp only [show backslash ≠ quote by decide, if_false, if_true,
      notShort, Bool.false_eq_true, allHex, JsonChar.escaped, Bool.true_or]

theorem scanBody_print (body : JsonBody) (rest : List UInt8) :
    scanBody (body.print ++ quote :: rest) = some (rest, body.escaped) := by
  induction body with
  | nil => exact scanBody_quote rest
  | cons char body ih =>
    rw [JsonBody.print_cons, List.append_assoc, scanBody_char, ih]
    rfl

theorem exists_body_cons (char : JsonChar)
    (scanned : ∃ body : JsonBody, text = body.print ++ quote :: rest ∧ esc = body.escaped) :
    ∃ body : JsonBody, char.print ++ text = body.print ++ quote :: rest ∧
      (char.escaped || esc) = body.escaped := by
  obtain ⟨body, rfl, rfl⟩ := scanned
  exact ⟨char :: body, by simp, rfl⟩

theorem scanBody_sound (scanned : scanBody text = some (rest, esc)) :
    ∃ body : JsonBody, text = body.print ++ quote :: rest ∧ esc = body.escaped := by
  fun_induction scanBody text generalizing esc with
  | case2 tail =>
    simp only [Option.some.injEq, Prod.mk.injEq] at scanned
    obtain ⟨rfl, rfl⟩ := scanned
    exact ⟨[], rfl, rfl⟩
  | case4 letter tail known _ ih =>
    obtain ⟨⟨_, inner⟩, tailScanned, result⟩ := Option.map_eq_some_iff.mp scanned
    cases result
    exact exists_body_cons (.short letter known) (ih tailScanned)
  | case5 a b c d tail hex _ _ ih =>
    obtain ⟨⟨_, inner⟩, tailScanned, result⟩ := Option.map_eq_some_iff.mp scanned
    cases result
    exact exists_body_cons (.unicode a b c d (List.all_eq_true.mp hex)) (ih tailScanned)
  | case10 byte tail notQuote notBackslash visible ih =>
    have ordinary : isOrdinary byte = true := by
      simp [isOrdinary, notQuote, notBackslash, UInt8.not_lt.mp visible]
    exact exists_body_cons (.plain byte ordinary) (ih scanned)
  | _ => simp at scanned

def isNumberByte (c : UInt8) : Bool := jsonIsDigit c || c == 0x2E || c == 0x65 || c == 0x45

theorem stops_digit (stops : Stops isNumberByte text) : Stops jsonIsDigit text := by
  intro c member
  have outside := stops c member
  simp only [isNumberByte, Bool.or_eq_false_iff] at outside
  exact outside.1.1.1

theorem scanDigits_print (run : DigitRun) (stops : Stops jsonIsDigit rest) :
    scanDigits (run.print ++ rest) = some rest := by
  obtain ⟨first, tail, digits⟩ := run
  have allTail : ∀ c ∈ tail, jsonIsDigit c = true := by
    intro c member
    exact digits c (List.mem_cons_of_mem first member)
  simp only [DigitRun.print, List.cons_append, scanDigits,
    digits first (List.mem_cons_self ..), if_true]
  rw [dropWhile_append_of_stops allTail stops]

theorem scanDigits_sound (scanned : scanDigits text = some rest) :
    ∃ run : DigitRun, text = run.print ++ rest := by
  cases text with
  | nil => simp [scanDigits] at scanned
  | cons ch tail =>
    simp only [scanDigits] at scanned
    split at scanned
    · rename_i digit
      cases scanned
      refine ⟨⟨ch, tail.takeWhile jsonIsDigit, ?_⟩, ?_⟩
      · intro c member
        rcases List.mem_cons.mp member with rfl | member
        · exact digit
        · exact List.mem_takeWhile_imp member
      · simp only [DigitRun.print, List.cons_append, List.takeWhile_append_dropWhile]
    · cases scanned

theorem scanInt_print (int : IntPart) (stops : Stops jsonIsDigit rest) :
    scanInt (int.print ++ rest) = some rest := by
  cases int with
  | zero => simp [IntPart.print, scanInt]
  | run digits leading =>
    have scanned := scanDigits_print digits stops
    simp only [DigitRun.print, List.cons_append] at scanned
    simp only [IntPart.print, DigitRun.print, List.cons_append, scanInt, leading, if_false, scanned]

theorem scanInt_sound (scanned : scanInt text = some rest) :
    ∃ int : IntPart, text = int.print ++ rest := by
  cases text with
  | nil => simp [scanInt] at scanned
  | cons ch tail =>
    simp only [scanInt] at scanned
    split at scanned
    · rename_i isZero
      cases scanned
      exact ⟨.zero, by rw [isZero]; rfl⟩
    · rename_i notZero
      obtain ⟨run, shape⟩ := scanDigits_sound scanned
      have first : run.first = ch := by
        simp only [DigitRun.print, List.cons_append, List.cons.injEq] at shape
        exact shape.1.symm
      exact ⟨.run run (by rw [first]; exact notZero), shape⟩

theorem scanFrac_print (frac : Option DigitRun)
    (stops : Stops jsonIsDigit rest) (noPoint : Stops (· == 0x2E) rest) :
    scanFrac (fracPrint frac ++ rest) = some (rest, frac.isNone) := by
  cases frac with
  | none =>
    cases rest with
    | nil => rfl
    | cons c rest =>
      rw [stops_cons, beq_eq_false_iff_ne] at noPoint
      simp [fracPrint, scanFrac, noPoint]
  | some run =>
    simp only [fracPrint, List.cons_append, scanFrac, if_true,
      scanDigits_print run stops, Option.map_some, Option.isNone_some]

theorem scanFrac_sound (scanned : scanFrac text = some (rest, whole)) :
    ∃ frac : Option DigitRun, text = fracPrint frac ++ rest ∧ whole = frac.isNone := by
  cases text with
  | nil =>
    cases scanned
    exact ⟨none, rfl, rfl⟩
  | cons ch tail =>
    simp only [scanFrac] at scanned
    split at scanned
    · rename_i point
      obtain ⟨_, digits, result⟩ := Option.map_eq_some_iff.mp scanned
      cases result
      obtain ⟨run, rfl⟩ := scanDigits_sound digits
      exact ⟨some run, by rw [point]; rfl, rfl⟩
    · cases scanned
      exact ⟨none, rfl, rfl⟩

theorem skipSign_print {sign : Option UInt8}
    (isSign : ∀ c ∈ sign, c = 0x2B ∨ c = 0x2D) (run : DigitRun)
    (rest : List UInt8) :
    skipSign (sign.toList ++ (run.print ++ rest)) = run.print ++ rest := by
  cases sign with
  | none =>
    have digit := run.digits run.first (List.mem_cons_self ..)
    have noSign : ¬ (run.first = 0x2B ∨ run.first = 0x2D) := by
      rintro (plus | minus)
      · rw [plus] at digit
        exact absurd digit (by decide)
      · rw [minus] at digit
        exact absurd digit (by decide)
    simp only [Option.toList_none, List.nil_append, DigitRun.print,
      List.cons_append, skipSign, noSign, if_false]
  | some c =>
    simp only [Option.toList_some, List.cons_append, List.nil_append,
      skipSign, isSign c rfl, if_true]

theorem exists_sign (text : List UInt8) :
    ∃ sign : Option UInt8, (∀ c ∈ sign, c = 0x2B ∨ c = 0x2D) ∧
      text = sign.toList ++ skipSign text := by
  cases text with
  | nil => exact ⟨none, by simp, rfl⟩
  | cons ch tail =>
    simp only [skipSign]
    split
    · rename_i isSign
      exact ⟨some ch, by simpa using isSign, rfl⟩
    · exact ⟨none, by simp, rfl⟩

theorem scanExp_print (exp : Option Exponent) (stops : Stops isNumberByte rest) :
    scanExp (expPrint exp ++ rest) = some (rest, exp.isNone) := by
  cases exp with
  | none =>
    cases rest with
    | nil => rfl
    | cons c rest =>
      rw [stops_cons] at stops
      simp only [isNumberByte, Bool.or_eq_false_iff, beq_eq_false_iff_ne] at stops
      simp [expPrint, scanExp, stops.1.2, stops.2]
  | some exponent =>
    simp only [expPrint, Exponent.print, List.cons_append,
      List.append_assoc, scanExp, exponent.isMark, if_true,
      skipSign_print exponent.isSign, scanDigits_print _ (stops_digit stops),
      Option.map_some, Option.isNone_some]

theorem scanExp_sound (scanned : scanExp text = some (rest, unscaled)) :
    ∃ exp : Option Exponent, text = expPrint exp ++ rest ∧ unscaled = exp.isNone := by
  cases text with
  | nil =>
    cases scanned
    exact ⟨none, rfl, rfl⟩
  | cons ch tail =>
    simp only [scanExp] at scanned
    split at scanned
    · rename_i isMark
      obtain ⟨_, digits, result⟩ := Option.map_eq_some_iff.mp scanned
      cases result
      obtain ⟨sign, isSign, shape⟩ := exists_sign tail
      obtain ⟨run, printed⟩ := scanDigits_sound digits
      refine ⟨some ⟨ch, isMark, sign, isSign, run⟩, ?_, rfl⟩
      rw [shape, printed]
      simp [expPrint, Exponent.print]
    · cases scanned
      exact ⟨none, rfl, rfl⟩

theorem int_head (int : IntPart) : ∃ c tail, int.print = c :: tail ∧ jsonIsDigit c = true := by
  cases int with
  | zero => exact ⟨0x30, [], rfl, by decide⟩
  | run digits leading =>
    exact ⟨digits.first, digits.rest, rfl, digits.digits digits.first (List.mem_cons_self ..)⟩

theorem skipMinus_print (minus : Bool) (int : IntPart) (rest : List UInt8) :
    skipMinus ((if minus then [0x2D] else []) ++ (int.print ++ rest)) = int.print ++ rest := by
  cases minus with
  | true => simp [skipMinus]
  | false =>
    obtain ⟨c, tail, shape, digit⟩ := int_head int
    have noMinus : c ≠ 0x2D := by
      rintro rfl
      exact absurd digit (by decide)
    simp [shape, skipMinus, noMinus]

theorem exists_minus (text : List UInt8) :
    ∃ minus : Bool, text = (if minus then [0x2D] else []) ++ skipMinus text := by
  cases text with
  | nil => exact ⟨false, rfl⟩
  | cons ch tail =>
    simp only [skipMinus]
    split
    · rename_i isMinus
      exact ⟨true, by rw [isMinus]; rfl⟩
    · exact ⟨false, rfl⟩

theorem scanLiteral_print (number : JsonNumber) (stops : Stops isNumberByte rest) :
    scanLiteral (number.print ++ rest) = some (rest, number.isInt) := by
  obtain ⟨minus, int, frac, exp⟩ := number
  have afterFrac : Stops jsonIsDigit (expPrint exp ++ rest) ∧
      Stops (· == 0x2E) (expPrint exp ++ rest) := by
    cases exp with
    | none =>
      refine ⟨stops_digit stops, ?_⟩
      intro c member
      have outside := stops c member
      simp only [isNumberByte, Bool.or_eq_false_iff] at outside
      exact outside.1.1.2
    | some exponent =>
      have mark := exponent.isMark
      simp only [expPrint, Exponent.print, List.cons_append, stops_cons]
      rcases mark with mark | mark <;> rw [mark] <;> decide
  have afterInt : Stops jsonIsDigit (fracPrint frac ++ (expPrint exp ++ rest)) := by
    cases frac with
    | none => exact afterFrac.1
    | some run => exact (stops_cons _ _ _).mpr (by decide)
  simp only [scanLiteral, JsonNumber.print, List.append_assoc,
    skipMinus_print, scanInt_print int afterInt,
    scanFrac_print frac afterFrac.1 afterFrac.2, scanExp_print exp stops,
    Option.bind_eq_bind, Option.bind_some, JsonNumber.isInt]

theorem scanLiteral_sound (scanned : scanLiteral text = some (rest, isint)) :
    ∃ number : JsonNumber, text = number.print ++ rest ∧ isint = number.isInt := by
  simp only [scanLiteral, Option.bind_eq_bind, Option.bind_eq_some_iff] at scanned
  obtain ⟨afterInt, intScanned, ⟨afterFrac, whole⟩, fracScanned,
    ⟨afterExp, unscaled⟩, expScanned, result⟩ := scanned
  cases result
  obtain ⟨minus, signed⟩ := exists_minus text
  obtain ⟨int, intShape⟩ := scanInt_sound intScanned
  obtain ⟨frac, rfl, rfl⟩ := scanFrac_sound fracScanned
  obtain ⟨exp, rfl, rfl⟩ := scanExp_sound expScanned
  refine ⟨⟨minus, int, frac, exp⟩, ?_, rfl⟩
  rw [signed, intShape]
  simp only [JsonNumber.print, List.append_assoc]

end Pro2Call.Json

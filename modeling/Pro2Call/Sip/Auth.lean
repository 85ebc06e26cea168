import Pro2Call.Sip.Param

namespace Pro2Call.Sip

open Pro2Call.Data

def comma : UInt8 := 0x2C

def paramBoundary (c : UInt8) : Bool := c = comma || c = semi || c = 0x20 || c = 0x09

/-- What stands behind a name: the value when there is an equals sign. -/
def authValue (p : Bytes) : Option Bytes :=
  match p.dropWhile sipIsWs with
  | [] => none
  | c :: p =>
    if c ≠ equals then none
    else
      match p.dropWhile sipIsWs with
      | [] => some []
      | c :: p =>
        if c = quote then some (p.takeWhile (· ≠ quote))
        else some ((c :: p).takeWhile (!paramBoundary ·))

def authAt (key p : Bytes) : Option Bytes :=
  if key.isPrefixOf p then authValue (p.drop key.length) else none

/-- The loop; `prev` is the character in front of `p`. The text from the name on tells where
the value was found. -/
def authScan (key : Bytes) (prev : Option UInt8) : Bytes → Option (Bytes × Bytes)
  | [] => none
  | c :: rest =>
    if prev.all paramBoundary then
      match authAt key (c :: rest) with
      | some value => some (c :: rest, value)
      | none => authScan key (some c) rest
    else authScan key (some c) rest

def authParam (v key : Bytes) : Bytes :=
  if key = [] then [] else ((authScan key none v).map Prod.snd).getD []

/-! Challenges as the grammar has them. -/

def QuotedChar.char : QuotedChar → UInt8
  | .plain c => c
  | .pair c => c

def GenValue.unquoted : GenValue → Bytes
  | .plain text => text
  | .quoted chars => chars.map QuotedChar.char

structure AuthParam where
  lead : Bytes := []
  name : Bytes
  left : Bytes := []
  right : Bytes := []
  value : GenValue
  trail : Bytes := []
  deriving DecidableEq, Repr

def AuthParam.text (p : AuthParam) : Bytes :=
  p.lead ++ (p.name ++ (p.left ++ equals :: (p.right ++ (p.value.text ++ p.trail))))

def challengeText : List AuthParam → Bytes
  | [] => []
  | [p] => p.text
  | p :: rest => p.text ++ comma :: challengeText rest

def IsLws (gap : Bytes) : Prop := (∀ c ∈ gap, isGap c) ∧ ∀ c ∈ gap.getLast?, sipIsWs c = true

instance (gap : Bytes) : Decidable (IsLws gap) := inferInstanceAs (Decidable (_ ∧ _))

structure AuthParam.Grammar (p : AuthParam) : Prop where
  name : p.name ≠ [] ∧ ∀ c ∈ p.name, isToken c
  value : p.value.Grammar
  token : ∀ text, p.value = .plain text → ∀ c ∈ text, isToken c
  folds : ∀ c ∈ p.value.unquoted.getLast?, isCrLf c = false
  gaps : ∀ gap ∈ [p.lead, p.left, p.right, p.trail], IsLws gap

/-- The first parameter with that name: the text from there on, and the unquoted value. -/
def authText (key : Bytes) : List AuthParam → Option (Bytes × Bytes)
  | [] => none
  | p :: rest =>
    if p.name = key then
      some ((challengeText (p :: rest)).drop p.lead.length, p.value.unquoted)
    else authText key rest

/-- Inside of the quoted string the name stands behind a separator and in front of
an equals sign. -/
def GenValue.Mentions (key : Bytes) : GenValue → Prop
  | .plain _ => False
  | .quoted chars => ∃ before separator blanks after, paramBoundary separator ∧
      (∀ c ∈ blanks, sipIsWs c = true) ∧
        quotedText chars = before ++ separator :: (key ++ (blanks ++ equals :: after))

/-- No line is folded around the equals sign or right behind a token, and a quoted string
has no escapes. -/
structure AuthParam.Plain (p : AuthParam) : Prop where
  gaps : ∀ gap ∈ [p.left, p.right], ∀ c ∈ gap, sipIsWs c = true
  token : ∀ text, p.value = .plain text → Stops isCrLf p.trail
  quoted : ∀ chars, p.value = .quoted chars → backslash ∉ quotedText chars

/-- No quoted value in front of the first parameter with the name mentions it, and that one
is plain. -/
def AuthClear (key : Bytes) : List AuthParam → Prop
  | [] => True
  | p :: rest => if p.name = key then p.Plain else ¬p.value.Mentions key ∧ AuthClear key rest

/-! Stretches of the text at which no value is read. -/

theorem token_apart {c : UInt8} (token : isToken c) :
    paramBoundary c = false ∧ c ≠ quote ∧ sipIsWs c = false ∧ c ≠ equals := by
  have apart : outside (ascii ",;=\" \t") c := outside_of_class (by decide) token
  simp [outside, ascii] at apart
  simp [paramBoundary, sipIsWs, comma, semi, equals, quote, apart]

theorem gap_apart : ∀ c : UInt8, isGap c →
    isToken c = false ∧ c ≠ equals ∧ c ≠ quote ∧ (sipIsWs c = false → isCrLf c = true) :=
  forall_octet (by decide +kernel)

theorem blank_apart {c : UInt8} (blank : sipIsWs c) : isGap c ∧ paramBoundary c := by
  obtain rfl | rfl := sipIsWs_iff.mp blank <;> decide

section Skip

variable {key rest : Bytes}

theorem authAt_some {p : Bytes} (found : authAt key p ≠ none) :
    ∃ blanks after, (∀ c ∈ blanks, sipIsWs c = true) ∧ p = key ++ (blanks ++ equals :: after) := by
  unfold authAt at found
  split at found
  next starts =>
    obtain ⟨after, rfl⟩ := List.isPrefixOf_iff_prefix.mp starts
    rw [List.drop_left] at found
    unfold authValue at found
    split at found
    · contradiction
    next c p behind =>
      split at found
      · contradiction
      next sign =>
        refine ⟨after.takeWhile sipIsWs, p, fun c member => List.mem_takeWhile_imp member, ?_⟩
        rw [← not_not.mp sign, ← behind, List.takeWhile_append_dropWhile]
  next => contradiction

theorem authScan_cons {prev : Option UInt8} {c : UInt8}
    (quiet : prev.all paramBoundary → authAt key (c :: rest) = none) :
    authScan key prev (c :: rest) = authScan key (some c) rest := by
  rw [authScan]
  split
  next boundary => rw [quiet boundary]
  next => rfl

variable (token : ∀ c ∈ key, isToken c) (present : key ≠ [])
include token present

theorem authScan_plain (plain : ∀ c ∈ seg, isToken c = false) (prev : Option UInt8) :
    authScan key prev (seg ++ rest) = authScan key (seg.getLast?.or prev) rest := by
  induction seg generalizing prev with
  | nil => rfl
  | cons c seg ih =>
    obtain ⟨first, others⟩ := List.forall_mem_cons.mp plain
    have quiet : authAt key (c :: (seg ++ rest)) = none := by
      by_contra found
      obtain ⟨blanks, after, -, split⟩ := authAt_some found
      obtain ⟨k, more, rfl⟩ := List.exists_cons_of_ne_nil present
      rw [List.cons_append, List.cons.injEq] at split
      rw [split.1, token k List.mem_cons_self] at first
      contradiction
    rw [List.cons_append, authScan_cons fun _ => quiet, ih others]
    cases seg <;> simp [List.getLast?_cons]

omit token present in
theorem authScan_inside (tokens : ∀ c ∈ seg, isToken c) (inside : isToken d) :
    ∃ last, authScan key (some d) (seg ++ rest) = authScan key last rest := by
  induction seg generalizing d with
  | nil => exact ⟨some d, rfl⟩
  | cons c seg ih =>
    obtain ⟨first, others⟩ := List.forall_mem_cons.mp tokens
    obtain ⟨last, later⟩ := ih others first
    refine ⟨last, ?_⟩
    rw [List.cons_append, authScan_cons, later]
    intro boundary
    exact absurd boundary (by simp [(token_apart inside).1])

omit token present in
theorem stops_gap (white : ∀ c ∈ gap, isGap c) (after : Bytes) :
    Stops isToken (gap ++ equals :: after) := by
  cases gap with
  | nil => exact (stops_cons _ _ _).mpr (by decide)
  | cons c gap => exact (stops_cons _ _ _).mpr (gap_apart c (white c List.mem_cons_self)).1

omit present in
theorem authScan_token (tokens : ∀ c ∈ seg, isToken c)
    (ends : Stops isToken rest) (other : key = seg → authValue rest = none) (prev : Option UInt8) :
    ∃ last, authScan key prev (seg ++ rest) = authScan key last rest := by
  cases seg with
  | nil => exact ⟨prev, rfl⟩
  | cons c seg =>
    have quiet : authAt key (c :: (seg ++ rest)) = none := by
      by_contra found
      obtain ⟨blanks, after, white, split⟩ := authAt_some found
      -- both sides start with a token, and it is the same one
      have same : key = c :: seg := by
        rw [← takeWhile_append_of_stops token
            (stops_gap (fun c member => (blank_apart (white c member)).1) after), ← split,
          ← List.cons_append, takeWhile_append_of_stops tokens ends]
      rw [← List.cons_append, ← same, authAt, if_pos (by simp), List.drop_left, other same] at found
      contradiction
    obtain ⟨first, others⟩ := List.forall_mem_cons.mp tokens
    obtain ⟨last, later⟩ : ∃ last, authScan key (some c) (seg ++ rest) = authScan key last rest :=
      authScan_inside others first
    exact ⟨last, by rw [List.cons_append, authScan_cons fun _ => quiet, later]⟩

omit token present in
theorem append_of_not_mem {front seg after : Bytes} (clean : quote ∉ front)
    (split : front ++ after = seg ++ quote :: rest) : ∃ inside, seg = front ++ inside := by
  obtain ⟨inside, whole, -⟩ | ⟨more, whole, behind⟩ := List.append_eq_append_iff.mp split
  · exact ⟨inside, whole⟩
  · cases more with
    | nil => exact ⟨[], by rw [whole, List.append_nil, List.append_nil]⟩
    | cons c more =>
      rw [List.cons_append, List.cons.injEq] at behind
      exact absurd (by rw [whole, behind.1]; simp) clean

omit present in
theorem authScan_quoted {text seg before : Bytes}
    (unmentioned : ¬∃ before separator blanks after, paramBoundary separator ∧
      (∀ c ∈ blanks, sipIsWs c = true) ∧
        text = before ++ separator :: (key ++ (blanks ++ equals :: after)))
    (split : quote :: text = before ++ prev :: seg) :
    ∃ last, authScan key (some prev) (seg ++ quote :: rest) =
      authScan key (some last) (quote :: rest) := by
  induction seg generalizing prev before with
  | nil => exact ⟨prev, rfl⟩
  | cons c seg ih =>
    have shifted : quote :: text = before ++ [prev] ++ c :: seg := by simpa using split
    obtain ⟨last, later⟩ := ih shifted
    refine ⟨last, ?_⟩
    rw [List.cons_append, authScan_cons, later]
    intro boundary
    by_contra found
    obtain ⟨blanks, after, white, starts⟩ := authAt_some found
    cases before with
    | nil =>
      rw [List.nil_append, List.cons.injEq] at split
      rw [← split.1] at boundary
      exact absurd boundary (by decide)
    | cons first before =>
      rw [List.cons_append, List.cons.injEq] at split
      have clean : quote ∉ key ++ (blanks ++ [equals]) := by
        simp only [List.mem_append, List.mem_singleton, not_or]
        exact ⟨fun member => absurd (token _ member) (by decide),
          fun member => absurd (white _ member) (by decide), by decide⟩
      have aligned : key ++ (blanks ++ [equals]) ++ after = c :: seg ++ quote :: rest := by
        simpa using starts.symm
      obtain ⟨inside, whole⟩ := append_of_not_mem clean aligned
      refine unmentioned ⟨before, prev, blanks, inside, by simpa using boundary, white, ?_⟩
      rw [split.2, whole]
      simp

end Skip

theorem GenValue.authScan {v : GenValue} (tokens : ∀ text, v = .plain text → ∀ c ∈ text, isToken c)
    {key rest : Bytes} (token : ∀ c ∈ key, isToken c) (present : key ≠ [])
    (unmentioned : ¬v.Mentions key) (ends : Stops isToken rest) (quiet : authValue rest = none)
    (prev : Option UInt8) :
    ∃ last, Sip.authScan key prev (v.text ++ rest) = Sip.authScan key last rest := by
  cases v with
  | plain text => exact authScan_token token (tokens text rfl) ends (fun _ => quiet) prev
  | quoted chars =>
    have start : quote :: quotedText chars = [] ++ quote :: quotedText chars := rfl
    obtain ⟨last, inside⟩ : ∃ last,
        Sip.authScan key (some quote) (quotedText chars ++ quote :: rest) =
          Sip.authScan key (some last) (quote :: rest) := authScan_quoted token unmentioned start
    have opens : Sip.authScan key prev ([quote] ++ (quotedText chars ++ quote :: rest)) =
        Sip.authScan key (some quote) (quotedText chars ++ quote :: rest) :=
      authScan_plain token present (List.forall_mem_singleton.mpr (by decide)) prev
    have closes : Sip.authScan key (some last) ([quote] ++ rest) =
        Sip.authScan key (some quote) rest :=
      authScan_plain token present (List.forall_mem_singleton.mpr (by decide)) (some last)
    refine ⟨some quote, ?_⟩
    calc Sip.authScan key prev (GenValue.text (.quoted chars) ++ rest)
        = Sip.authScan key prev ([quote] ++ (quotedText chars ++ quote :: rest)) := by
          simp [GenValue.text]
      _ = Sip.authScan key (some last) ([quote] ++ rest) := opens.trans inside
      _ = Sip.authScan key (some quote) rest := closes

section Found

variable {key : Bytes}

theorem length_authScan {text : Bytes} (read : authScan key prev text = some found) :
    found.1.length ≤ text.length := by
  induction text generalizing prev with
  | nil => cases read
  | cons c rest ih =>
    have later (read : authScan key (some c) rest = some found) :
        found.1.length ≤ (c :: rest).length := Nat.le_succ_of_le (ih read)
    rw [authScan] at read
    split at read
    · split at read
      · cases read
        exact Nat.le_refl _
      · exact later read
    · exact later read

/-- The name behind a separator and in front of an equals sign is taken for a parameter,
unless something before it is. -/
theorem authScan_mentioned (present : key ≠ []) (boundary : paramBoundary separator)
    (white : ∀ c ∈ blanks, sipIsWs c = true)
    (before after : Bytes) (prev : Option UInt8) :
    ∃ found, authScan key prev (before ++ separator :: (key ++ (blanks ++ equals :: after))) =
      some found ∧ after.length < found.1.length := by
  have further {prev : Option UInt8} {c : UInt8} {rest : Bytes} (long : after.length < rest.length)
      (later : ∃ found, authScan key (some c) rest = some found ∧ after.length < found.1.length) :
      ∃ found, authScan key prev (c :: rest) = some found ∧ after.length < found.1.length := by
    rw [authScan]
    split
    · split
      · exact ⟨_, rfl, Nat.lt_succ_of_lt long⟩
      · exact later
    · exact later
  induction before generalizing prev with
  | nil =>
    refine further (by simp; omega) ?_
    have found : ∃ value, authAt key (key ++ (blanks ++ equals :: after)) = some value := by
      rw [authAt, if_pos (by simp), List.drop_left, authValue,
        dropWhile_append_of_stops white (by simp [sipIsWs, equals])]
      dsimp only
      rw [if_neg (by simp)]
      split
      · exact ⟨_, rfl⟩
      · split <;> exact ⟨_, rfl⟩
    obtain ⟨value, found⟩ := found
    obtain ⟨k, more, rfl⟩ := List.exists_cons_of_ne_nil present
    rw [List.cons_append] at found ⊢
    rw [authScan, if_pos (by simpa using boundary), found]
    exact ⟨_, rfl, by simp; omega⟩
  | cons c before ih => exact further (by simp; omega) (ih (some c))

end Found

def EndsParam (rest : Bytes) : Prop := rest.head?.all (· = comma)

theorem authValue_gap {gap rest : Bytes} (white : ∀ c ∈ gap, isGap c)
    (ends : Stops (fun c => c = equals || sipIsWs c) rest) : authValue (gap ++ rest) = none := by
  have other {text : Bytes} (stops : Stops (· = equals) (text.dropWhile sipIsWs)) :
      authValue text = none := by
    rw [authValue]
    cases behind : text.dropWhile sipIsWs with
    | nil => rfl
    | cons c text =>
      rw [behind, stops_cons] at stops
      exact if_pos (by simpa using stops)
  apply other
  rw [List.dropWhile_append]
  split
  next =>
    rw [dropWhile_eq_self fun c member => (Bool.or_eq_false_iff.mp (ends c member)).2]
    exact fun c member => (Bool.or_eq_false_iff.mp (ends c member)).1
  next kept =>
    cases left : gap.dropWhile sipIsWs with
    | nil => simp [left] at kept
    | cons c more =>
      have inside : c ∈ gap := (List.dropWhile_suffix _).mem (left ▸ List.mem_cons_self)
      exact (stops_cons _ _ _).mpr (by simpa using (gap_apart c (white c inside)).2.1)

theorem authScan_mentions {key : Bytes} (present : key ≠ []) {p : AuthParam} (rest : Bytes)
    (mentioned : p.value.Mentions key) (prev : Option UInt8) :
    ∃ found, authScan key prev (p.text ++ rest) = some found ∧ rest.length < found.1.length := by
  cases form : p.value with
  | plain text =>
    rw [form] at mentioned
    cases mentioned
  | quoted chars =>
    rw [form] at mentioned
    obtain ⟨before, separator, blanks, after, boundary, white, split⟩ := mentioned
    obtain ⟨found, read, long⟩ := authScan_mentioned present boundary white
      (p.lead ++ p.name ++ p.left ++ equals :: p.right ++ quote :: before)
      (after ++ quote :: (p.trail ++ rest)) prev
    refine ⟨found, ?_, ?_⟩
    · rw [← read]
      congr 1
      simp [AuthParam.text, form, GenValue.text, split]
    · simp at long
      omega

theorem length_quotedText (grammar : ∀ char ∈ chars, char.Grammar) :
    chars.length ≤ (quotedText chars).length ∧
      (backslash ∈ quotedText chars → chars.length < (quotedText chars).length) := by
  induction chars with
  | nil => simp [quotedText]
  | cons char chars ih =>
    obtain ⟨first, others⟩ := List.forall_mem_cons.mp grammar
    obtain ⟨long, longer⟩ := ih others
    rw [quotedText] at long longer ⊢
    cases char with
    | plain c =>
      simp only [List.flatMap_cons, QuotedChar.text, List.singleton_append, List.mem_cons,
        List.length_cons, first.2.symm, false_or]
      exact ⟨by omega, fun escaped => by have := longer escaped; omega⟩
    | pair c =>
      simp only [List.flatMap_cons, QuotedChar.text, List.cons_append, List.nil_append,
        List.length_cons]
      exact ⟨by omega, fun _ => by omega⟩

theorem quotedText_plain (grammar : ∀ char ∈ chars, char.Grammar)
    (unescaped : backslash ∉ quotedText chars) :
    quotedText chars = chars.map QuotedChar.char ∧ ∀ c ∈ quotedText chars, c ≠ quote := by
  induction chars with
  | nil => exact ⟨rfl, by simp [quotedText]⟩
  | cons char chars ih =>
    obtain ⟨first, others⟩ := List.forall_mem_cons.mp grammar
    rw [quotedText, List.flatMap_cons, List.mem_append, not_or] at unescaped
    obtain ⟨same, clean⟩ := ih others unescaped.2
    cases char with
    | plain c =>
      rw [quotedText] at same clean ⊢
      rw [List.flatMap_cons, QuotedChar.text, same] at *
      exact ⟨rfl, List.forall_mem_cons.mpr ⟨first.1, clean⟩⟩
    | pair c => exact absurd List.mem_cons_self unescaped.1

/-- A quoted string is read as it is exactly without escapes. -/
theorem quotedText_unescaped (grammar : ∀ char ∈ chars, char.Grammar)
    (after : Bytes) : (quotedText chars ++ quote :: after).takeWhile (· ≠ quote) =
        chars.map QuotedChar.char ↔ backslash ∉ quotedText chars := by
  have whole (clean : ∀ c ∈ quotedText chars, c ≠ quote) :
      (quotedText chars ++ quote :: after).takeWhile (· ≠ quote) = quotedText chars :=
    takeWhile_append_of_stops (fun c member => by simpa using clean c member) (by simp)
  constructor
  · intro same
    have clean : ∀ c ∈ quotedText chars, c ≠ quote := by
      intro c member
      obtain ⟨char, inside, spelled⟩ := List.mem_flatMap.mp member
      cases char with
      | plain d =>
        obtain rfl := List.mem_singleton.mp spelled
        exact (grammar _ inside).1
      | pair d =>
        have read : d ∈ chars.map QuotedChar.char := List.mem_map.mpr ⟨_, inside, rfl⟩
        rw [← same] at read
        obtain rfl | spelled := List.mem_cons.mp spelled
        · decide
        · rw [List.mem_singleton.mp spelled]
          simpa using List.mem_takeWhile_imp read
    rw [whole clean] at same
    intro escaped
    have longer := (length_quotedText grammar).2 escaped
    rw [same, List.length_map] at longer
    exact absurd longer (Nat.lt_irrefl _)
  · intro unescaped
    obtain ⟨plain, clean⟩ := quotedText_plain grammar unescaped
    rw [whole clean, plain]

theorem exists_fold (white : ∀ c ∈ gap, isGap c)
    (folded : ¬∀ c ∈ gap, sipIsWs c = true) (rest : Bytes) :
    ∃ c more, (gap ++ rest).dropWhile sipIsWs = c :: (more ++ rest) ∧ isCrLf c ∧
      c :: more <:+ gap := by
  cases kept : gap.dropWhile sipIsWs with
  | nil => exact absurd (List.dropWhile_eq_nil_iff.mp kept) folded
  | cons c more =>
    have suffix : c :: more <:+ gap := kept ▸ List.dropWhile_suffix _
    have first := List.head?_dropWhile_not sipIsWs gap
    rw [kept] at first
    refine ⟨c, more, ?_, (gap_apart c (white c (suffix.mem List.mem_cons_self))).2.2.2 first,
      suffix⟩
    rw [List.dropWhile_append, kept]
    rfl

theorem isCrLf_apart : ∀ c : UInt8, isCrLf c → c ≠ equals ∧ c ≠ quote :=
  forall_octet (by decide +kernel)

theorem paramBoundary_gap : ∀ c : UInt8, isGap c → (!paramBoundary c) = isCrLf c :=
  forall_octet (by decide +kernel)

/-- What is read from a folded line are its line breaks. -/
theorem takeWhile_fold (white : IsLws gap) {c : UInt8} (suffix : c :: more <:+ gap) (rest : Bytes) :
    ∀ d ∈ (c :: (more ++ rest)).takeWhile (!paramBoundary ·), isCrLf d := by
  obtain ⟨front, rfl⟩ := suffix
  obtain ⟨w, ending⟩ : ∃ w, (c :: more).getLast? = some w := ⟨_, List.getLast?_cons⟩
  have blank := white.2 w (by rwa [List.getLast?_append_of_ne_nil _ (by simp)])
  have stops : ((c :: more).takeWhile (!paramBoundary ·)).length ≠ (c :: more).length := by
    intro whole
    have member := List.mem_of_getLast? ending
    rw [← ( List.takeWhile_prefix _).eq_of_length whole] at member
    have passed := List.mem_takeWhile_imp member
    simp [(blank_apart blank).2] at passed
  intro d member
  rw [← List.cons_append, List.takeWhile_append, if_neg stops] at member
  have inside := ( List.takeWhile_prefix _).mem member
  have passed := List.mem_takeWhile_imp member
  rwa [paramBoundary_gap d (white.1 d (List.mem_append_right front inside))] at passed

section Param

variable {p : AuthParam} {key rest : Bytes} (grammar : p.Grammar) (present : key ≠ [])
variable (token : ∀ c ∈ key, isToken c) (ends : EndsParam rest)
include grammar

theorem AuthParam.Grammar.untokened (member : gap ∈ [p.lead, p.left, p.right, p.trail]) :
    ∀ c ∈ gap, isToken c = false :=
  fun c inside => (gap_apart c ((grammar.gaps gap member).1 c inside)).1

include ends in
theorem AuthParam.Grammar.behind :
    Stops isToken (p.trail ++ rest) ∧ authValue (p.trail ++ rest) = none := by
  have white := (grammar.gaps p.trail (by simp)).1
  have follows : ∀ c ∈ rest.head?, c = comma := by simpa [EndsParam, Option.all_eq_true] using ends
  refine ⟨?_, authValue_gap white fun c member => by rw [follows c member]; decide⟩
  cases trail : p.trail with
  | nil => exact fun c member => by rw [follows c member]; decide
  | cons c more => exact (stops_cons _ _ _).mpr (gap_apart c (white c (by simp [trail]))).1

include present token ends in
theorem AuthParam.Grammar.authScan_other (other : p.name ≠ key)
    (unmentioned : ¬p.value.Mentions key) (prev : Option UInt8) :
    ∃ last, authScan key prev (p.text ++ rest) = authScan key last rest := by
  obtain ⟨untokened, quiet⟩ := grammar.behind ends
  have gap {text : Bytes} (member : text ∈ [p.lead, p.left, p.right, p.trail]) :
      ∀ c ∈ text, isToken c = false := grammar.untokened member
  have sign : ∀ c ∈ p.left ++ equals :: p.right, isToken c = false := by
    rw [List.forall_mem_append, List.forall_mem_cons]
    exact ⟨gap (by simp), by decide, gap (by simp)⟩
  have shape : p.text ++ rest = p.lead ++ (p.name ++ ((p.left ++ equals :: p.right) ++
      (p.value.text ++ (p.trail ++ rest)))) := by
    simp [AuthParam.text]
  have stops : Stops isToken
      ((p.left ++ equals :: p.right) ++ (p.value.text ++ (p.trail ++ rest))) := by
    rw [List.append_assoc, List.cons_append]
    exact stops_gap (grammar.gaps p.left (by simp)).1 _
  rw [shape, authScan_plain token present (gap (by simp))]
  obtain ⟨named, name⟩ := authScan_token token grammar.name.2 stops
    (fun same => absurd same.symm other) (p.lead.getLast?.or prev)
  rw [name, authScan_plain token present sign]
  obtain ⟨valued, value⟩ := GenValue.authScan grammar.token token present unmentioned
    untokened quiet ((p.left ++ equals :: p.right).getLast?.or named)
  rw [value, authScan_plain token present (gap (by simp))]
  exact ⟨_, rfl⟩

include ends in
theorem AuthParam.Grammar.ended : Stops isCrLf p.trail ↔
    (p.trail ++ rest).takeWhile (!paramBoundary ·) = [] := by
  cases trail : p.trail with
  | nil =>
    cases rest with
    | nil => simp
    | cons c rest =>
      obtain rfl : c = comma := by simpa [EndsParam] using ends
      simp [paramBoundary]
  | cons c more =>
    have same := paramBoundary_gap c ((grammar.gaps p.trail (by simp)).1 c (by simp [trail]))
    simp [List.takeWhile_cons, same]

section Value

variable (left : ∀ c ∈ p.left, sipIsWs c = true) (right : ∀ c ∈ p.right, sipIsWs c = true)
include left

omit grammar in
theorem authValue_quoted (skipped : text.dropWhile sipIsWs = quote :: more) :
    authValue (p.left ++ equals :: text) = some (more.takeWhile (· ≠ quote)) := by
  rw [authValue, dropWhile_append_of_stops left (by simp [sipIsWs, equals])]
  simp [skipped]

omit grammar in
theorem authValue_unquoted (skipped : text.dropWhile sipIsWs = c :: more) (other : c ≠ quote) :
    authValue (p.left ++ equals :: text) = some ((c :: more).takeWhile (!paramBoundary ·)) := by
  rw [authValue, dropWhile_append_of_stops left (by simp [sipIsWs, equals])]
  dsimp only
  rw [if_neg (by simp), skipped]
  exact if_neg other

include right

omit grammar in
theorem AuthParam.blank_gaps : ∀ gap ∈ [p.left, p.right], ∀ c ∈ gap, sipIsWs c = true := by
  simpa using ⟨left, right⟩

include ends in
theorem AuthParam.Grammar.authValue_token {text : Bytes} (form : p.value = .plain text) :
    authValue (p.left ++ equals :: (p.right ++ (text ++ (p.trail ++ rest)))) = some text ↔
      p.Plain := by
  have value := grammar.value
  rw [form] at value
  have inside : ∀ c ∈ text, (!paramBoundary c) = true ∧ c ≠ quote := by
    intro c member
    obtain ⟨apart, other, -⟩ := token_apart (grammar.token text form c member)
    exact ⟨by rw [apart]; rfl, other⟩
  have plain : p.Plain ↔ Stops isCrLf p.trail :=
    ⟨fun plain => plain.token text form, fun stops =>
      ⟨AuthParam.blank_gaps left right, fun _ _ => stops,
        fun chars other => by simp [form] at other⟩⟩
  have whole := @List.takeWhile_append_of_pos _ _ _ (p.trail ++ rest)
    fun c member => (inside c member).1
  have skipped : (p.right ++ (text ++ (p.trail ++ rest))).dropWhile sipIsWs = _ :=
    dropWhile_append_of_stops right (value.ends (p.trail ++ rest)).1
  obtain ⟨c, more, rfl⟩ := List.exists_cons_of_ne_nil value.1
  rw [List.cons_append] at skipped whole
  rw [List.cons_append, authValue_unquoted left skipped (inside c (by simp)).2, whole, plain,
    grammar.ended ends]
  simp

theorem AuthParam.Grammar.authValue_string (form : p.value = .quoted chars) :
    authValue (p.left ++ equals :: (p.right ++ (GenValue.text (.quoted chars) ++
      (p.trail ++ rest)))) = some (chars.map QuotedChar.char) ↔ p.Plain := by
  have value := grammar.value
  rw [form] at value
  have plain : p.Plain ↔ backslash ∉ quotedText chars :=
    ⟨fun plain => plain.quoted chars form, fun clean =>
      ⟨AuthParam.blank_gaps left right, fun text other => by simp [form] at other,
        fun other same => by
          rw [form, GenValue.quoted.injEq] at same
          rwa [← same]⟩⟩
  have shape : GenValue.text (.quoted chars) ++ (p.trail ++ rest) =
      quote :: (quotedText chars ++ quote :: (p.trail ++ rest)) := by
    simp [GenValue.text]
  have skipped := dropWhile_append_of_stops right (value.ends (p.trail ++ rest)).1
  rw [shape] at skipped ⊢
  rw [authValue_quoted left skipped, plain, ← quotedText_unescaped value (p.trail ++ rest),
    Option.some.injEq]

omit right in
theorem AuthParam.Grammar.authValue_folded (folded : ¬ ∀ c ∈ p.right, sipIsWs c = true)
    (after : Bytes) :
    authValue (p.left ++ equals :: (p.right ++ after)) ≠ some p.value.unquoted := by
  obtain ⟨c, more, skipped, fold, suffix⟩ :=
    exists_fold (grammar.gaps p.right (by simp)).1 folded after
  rw [authValue_unquoted left skipped (isCrLf_apart c fold).2, ne_eq, Option.some.injEq]
  intro same
  have broken := takeWhile_fold (grammar.gaps p.right (by simp)) suffix after
  have start : p.value.unquoted ≠ [] := by
    have gap := (grammar.gaps p.right (by simp)).1 c (suffix.mem List.mem_cons_self)
    rw [← same, List.takeWhile_cons_of_pos (by rw [paramBoundary_gap c gap, fold])]
    simp
  have ending := grammar.folds _ (List.getLast?_eq_some_getLast start)
  rw [same] at broken
  rw [broken _ (List.getLast_mem start)] at ending
  contradiction

end Value

include ends in
theorem AuthParam.Grammar.authValue_iff :
    authValue (p.left ++ equals :: (p.right ++ (p.value.text ++ (p.trail ++ rest)))) =
      some p.value.unquoted ↔ p.Plain := by
  by_cases left : ∀ c ∈ p.left, sipIsWs c = true
  · by_cases right : ∀ c ∈ p.right, sipIsWs c = true
    · cases form : p.value with
      | plain text => exact grammar.authValue_token ends left right form
      | quoted chars => exact grammar.authValue_string left right form
    · exact iff_of_false (grammar.authValue_folded left right _) fun plain =>
        right (plain.gaps p.right (by simp))
  · obtain ⟨c, more, skipped, fold, -⟩ := exists_fold (grammar.gaps p.left (by simp)).1 left
      (equals :: (p.right ++ (p.value.text ++ (p.trail ++ rest))))
    rw [authValue, skipped]
    dsimp only
    rw [if_pos (isCrLf_apart c fold).1]
    exact iff_of_false (by simp) fun plain => left (plain.gaps p.left (by simp))

include present ends in
theorem AuthParam.Grammar.authScan_name (same : p.name = key)
    {prev : Option UInt8} (boundary : prev.all paramBoundary) :
    authScan key prev (p.text ++ rest) =
      some ((p.text ++ rest).drop p.lead.length, p.value.unquoted) ↔ p.Plain := by
  have lead := grammar.gaps p.lead (by simp)
  have before : (p.lead.getLast?.or prev).all paramBoundary := by
    cases last : p.lead.getLast? with
    | none => exact boundary
    | some c => exact (blank_apart (lead.2 c last)).2
  have shape : p.text ++ rest = p.lead ++ (key ++ (p.left ++ equals :: (p.right ++
      (p.value.text ++ (p.trail ++ rest))))) := by
    simp [AuthParam.text, same]
  have found (after : Bytes) : authAt key (key ++ after) = authValue after := by
    rw [authAt, if_pos (by simp), List.drop_left]
  rw [shape, List.drop_left,
    authScan_plain (same ▸ grammar.name.2) present (grammar.untokened (by simp)),
    ← grammar.authValue_iff ends]
  generalize p.left ++ equals :: (p.right ++ (p.value.text ++ (p.trail ++ rest))) = after
  have here := found after
  obtain ⟨k, more, rfl⟩ := List.exists_cons_of_ne_nil present
  rw [List.cons_append] at here ⊢
  rw [authScan, if_pos before, here]
  cases value : authValue after with
  | some text => simp
  | none =>
    refine iff_of_false (fun read => ?_) (by simp)
    have short := length_authScan read
    simp at short

end Param

theorem length_authText {key : Bytes} (read : authText key params = some found) :
    found.1.length ≤ (challengeText params).length := by
  induction params with
  | nil => cases read
  | cons p rest ih =>
    rw [authText] at read
    split at read
    · cases read
      simp
    · have short := ih read
      cases rest with
      | nil => cases read
      | cons q rest =>
        have shape : challengeText (p :: q :: rest) =
            p.text ++ comma :: challengeText (q :: rest) := rfl
        rw [shape, List.length_append, List.length_cons]
        omega

theorem authScan_params {key : Bytes} (token : ∀ c ∈ key, isToken c) (present : key ≠ [])
    (grammar : ∀ p ∈ params, p.Grammar) {prev : Option UInt8}
    (boundary : prev.all paramBoundary) :
    authScan key prev (challengeText params) = authText key params ↔ AuthClear key params := by
  induction params generalizing prev with
  | nil => simp [challengeText, authScan, authText, AuthClear]
  | cons p rest ih =>
    obtain ⟨first, others⟩ := List.forall_mem_cons.mp grammar
    have step (more : Bytes) (ends : EndsParam more)
        (text : challengeText (p :: rest) = p.text ++ more)
        (longer : (challengeText rest).length ≤ more.length)
        (later : ∀ last, authScan key last more = authText key rest ↔ AuthClear key rest) :
        authScan key prev (challengeText (p :: rest)) = authText key (p :: rest) ↔
          AuthClear key (p :: rest) := by
      rw [authText, AuthClear, text]
      split
      next same => exact first.authScan_name present ends same boundary
      next other =>
        by_cases mentioned : p.value.Mentions key
        · obtain ⟨found, read, long⟩ := authScan_mentions present more mentioned prev
          refine iff_of_false (fun same => ?_) fun clear => clear.1 mentioned
          have short := length_authText (same.symm.trans read)
          omega
        · obtain ⟨last, passed⟩ := first.authScan_other present token ends other mentioned prev
          rw [passed, later, and_iff_right mentioned]
    cases rest with
    | nil =>
      refine step [] rfl (by simp [challengeText]) (Nat.le_refl _) fun last => ?_
      simp [authScan, authText, AuthClear]
    | cons q rest =>
      refine step (comma :: challengeText (q :: rest)) rfl rfl (by simp) fun last => ?_
      rw [← List.singleton_append,
        authScan_plain token present (List.forall_mem_singleton.mpr (by decide))]
      exact ih others rfl

/-- A challenge is its scheme, white space, and parameters. The first parameter with the name is
found exactly if nothing in front of it mentions the name and it is plain. -/
theorem authParam_challenge {scheme gap key : Bytes} {params : List AuthParam}
    (named : ∀ c ∈ scheme, isToken c) (white : gap ≠ [] ∧ IsLws gap)
    (grammar : ∀ p ∈ params, p.Grammar) (token : key ≠ [] ∧ ∀ c ∈ key, isToken c) :
    (authScan key none (scheme ++ (gap ++ challengeText params)) = authText key params ↔
      AuthClear key params) ∧
    (AuthClear key params → authParam (scheme ++ (gap ++ challengeText params)) key =
      ((authText key params).map Prod.snd).getD []) := by
  obtain ⟨present, blank, last⟩ := white
  obtain ⟨c, more, split⟩ := List.exists_cons_of_ne_nil present
  have stops : Stops isToken (gap ++ challengeText params) := by
    rw [split, List.cons_append, stops_cons]
    exact (gap_apart c (blank c (by simp [split]))).1
  have quiet : authValue (gap ++ challengeText params) = none := by
    cases params with
    | nil => exact authValue_gap blank (stops_nil _)
    | cons p rest =>
      obtain ⟨first, -⟩ := List.forall_mem_cons.mp grammar
      obtain ⟨d, name, spelled⟩ := List.exists_cons_of_ne_nil first.name.1
      obtain ⟨after, shape⟩ : ∃ after, challengeText (p :: rest) = p.text ++ after := by
        cases rest with
        | nil => exact ⟨[], by simp [challengeText]⟩
        | cons q rest => exact ⟨_, rfl⟩
      have start := (token_apart (first.name.2 d (by simp [spelled]))).2.2
      rw [shape, AuthParam.text, spelled, List.append_assoc, ← List.append_assoc]
      refine authValue_gap (List.forall_mem_append.mpr ⟨blank, (first.gaps p.lead (by simp)).1⟩) ?_
      simpa using start.symm
  obtain ⟨inside, passed⟩ := authScan_token token.2 named stops (fun _ => quiet) none
  have boundary : (gap.getLast?.or inside).all paramBoundary := by
    cases ending : gap.getLast? with
    | none => exact absurd (List.getLast?_eq_none_iff.mp ending) present
    | some d => exact (blank_apart (last d ending)).2
  have exactly : authScan key none (scheme ++ (gap ++ challengeText params)) = authText key params ↔
      AuthClear key params := by
    rw [passed, authScan_plain token.2 token.1 fun c member => (gap_apart c (blank c member)).1]
    exact authScan_params token.2 token.1 grammar boundary
  refine ⟨exactly, fun clear => ?_⟩
  rw [authParam, if_neg token.1, exactly.mpr clear]

theorem not_mentions {key : Bytes} {v : GenValue} (clean : ∀ c ∈ v.text, paramBoundary c = false) :
    ¬v.Mentions key := by
  cases v with
  | plain text => exact id
  | quoted chars =>
    rintro ⟨before, separator, blanks, after, boundary, -, split⟩
    have member : separator ∈ GenValue.text (.quoted chars) := by
      simp [GenValue.text, split]
    rw [clean separator member] at boundary
    contradiction

def akaParams : List AuthParam :=
  [{ name := ascii "realm", value := .quoted ((ascii "ims=").map .plain ++ [.pair quote]) },
    { lead := [space], name := ascii "nonce", left := [space], right := [space]
      value := .quoted ((ascii "AAE=").map .plain) },
    { name := ascii "opaque", value := .quoted ((ascii "x nonce=evil").map .plain) }]

theorem authParam_challenge_nonce :
    authParam (ascii "Digest realm=\"ims=\\\"\", nonce = \"AAE=\",opaque=\"x nonce=evil\"")
      (ascii "nonce") = ascii "AAE=" :=
  (@authParam_challenge (ascii "Digest") [space] (ascii "nonce") akaParams
    (by decide +kernel) (by decide +kernel)
    (List.forall_mem_cons.mpr
      ⟨⟨by decide +kernel, by decide, nofun, by decide +kernel, by decide +kernel⟩,
      List.forall_mem_cons.mpr
        ⟨⟨by decide +kernel, by decide, nofun, by decide +kernel, by decide +kernel⟩,
      List.forall_mem_singleton.mpr
        ⟨by decide +kernel, by decide, nofun, by decide +kernel, by decide +kernel⟩⟩⟩)
    (by decide +kernel)).2 ⟨not_mentions (by decide +kernel), ⟨by decide +kernel, nofun, by
      rintro chars ⟨⟩
      decide⟩⟩

/-- The value comes from the inside of the realm. -/
theorem authParam_quoted_name :
    challengeText [{ name := ascii "realm", value := .quoted ((ascii "x nonce=evil").map .plain) },
        { name := ascii "nonce", value := .quoted ((ascii "real").map .plain) }] =
      ascii "realm=\"x nonce=evil\",nonce=\"real\"" ∧
    authParam (ascii "Digest realm=\"x nonce=evil\",nonce=\"real\"") (ascii "nonce") =
      ascii "evil\"" := by
  decide

end Pro2Call.Sip

import Pro2Call.Json.NodesFor

namespace Pro2Call.Json

/-! Two parses of one text with pools of different size go in lock step until the
smaller pool is used up, and the pool that `parse_pool` grows. -/

/-- The run with the smaller pool ran out of nodes, or ended as the other. -/
def InStep {α : Type} (small large : Except Stop α) : Prop := Fails .eNodes small ∨ small = large

theorem InStep.refl (run : Except Stop α) : InStep run run := .inr rfl

theorem InStep.bind {next other : α → Except Stop β}
    (first : InStep small large) (later : ∀ result, InStep (next result) (other result)) :
    InStep (small >>= next) (large >>= other) := by
  rcases first with ⟨p, rfl⟩ | rfl
  · exact .inl ⟨p, rfl⟩
  · cases small with
    | error stop => exact .inr rfl
    | ok result => exact later result

theorem allocNode_inStep (le : small ≤ large) (c : Pctx) :
    InStep (allocNode small c) (allocNode large c) := by
  unfold allocNode
  split
  · exact .inl ⟨c.p, rfl⟩
  · rw [if_neg (by omega)]
    exact .refl _

section

variable {value other : Pctx → Except Stop (Pctx × Nat)}
  (inStep : ∀ c, InStep (value c) (other c)) (obj : Bool)

include inStep

theorem parseChildren_inStep (idx fuel prev : Nat) (c : Pctx) :
    InStep (parseChildren value obj idx fuel prev c) (parseChildren other obj idx fuel prev c) := by
  induction fuel generalizing prev c with
  | zero => exact .refl _
  | succ fuel ih =>
    simp only [parseChildren]
    refine (InStep.refl _).bind ?_
    rintro ⟨c, key, kesc⟩
    refine (inStep c).bind ?_
    rintro ⟨c, child⟩
    split
    · exact .refl _
    · split
      · exact ih child _
      · exact .refl _

theorem parseContainer_inStep (idx : Nat) (c : Pctx) :
    InStep (parseContainer value obj idx c) (parseContainer other obj idx c) := by
  refine InStep.bind ?_ fun _ => .refl _
  simp only [parseInside]
  split
  · exact .refl _
  · split
    · exact .refl _
    · exact parseChildren_inStep inStep obj idx _ 0 _

theorem parseNode_inStep (ch : UInt8) (out : Nat) (c : Pctx) :
    InStep (parseNode value ch out c) (parseNode other ch out c) := by
  unfold parseNode
  split
  · exact parseContainer_inStep inStep true out c
  · split
    · exact parseContainer_inStep inStep false out c
    · exact .refl _

end

theorem parseValue_inStep (le : small ≤ large) (levels : Nat) (c : Pctx) :
    InStep (parseValue small levels c) (parseValue large levels c) := by
  induction levels generalizing c with
  | zero => exact .refl _
  | succ levels ih =>
    simp only [parseValue]
    split
    · exact .refl _
    · refine (allocNode_inStep le _).bind ?_
      rintro ⟨c, out⟩
      exact (parseNode_inStep ih _ out c).bind fun _ => .refl _

theorem parseDocument_inStep (le : small ≤ large) (c : Pctx) :
    InStep (parseDocument small c) (parseDocument large c) :=
  (parseValue_inStep le jsonMaxDepth c).bind fun _ => .refl _

/-- `after` is what `json_parse` leaves with a pool of `cap` nodes, up to that size. -/
def ParsesAs (d : JsonDoc) (buf : List UInt8) (cap : Nat) (after : JsonDoc)
    (rc : Option JsonErr) : Prop :=
  jsonParse { d with cap := cap } buf = some ({ after with cap := cap }, rc)

theorem jsonParse_inStep (d : JsonDoc) (buf : List UInt8) (positive : 0 < small)
    (le : small ≤ large) : ∃ after rc, ParsesAs d buf small after rc ∧
      (rc = .some .eNodes ∨ ParsesAs d buf large after rc) := by
  unfold ParsesAs
  by_cases long : buf.length > intMax
  · refine ⟨d, .some .eInval, ?_, .inr ?_⟩ <;> exact if_pos (.inr long)
  · have proper : ∀ cap, 0 < cap → ¬ (cap = 0 ∨ buf.length > intMax) := by
      intro cap room
      omega
    simp only [jsonParse, if_neg (proper small positive), if_neg (proper large (by omega))]
    generalize (⟨[], if bom.isPrefixOf buf then bom.length else 0, _⟩ : Pctx) = start
    rcases parseDocument_inStep le start with ⟨p, failed⟩ | same
    · rw [failed]
      exact ⟨{ d with nodes := [], buf := buf, errOff := p }, .some .eNodes, rfl, .inl rfl⟩
    · have returns := parseDocument_returns small start
      rw [← same]
      cases run : parseDocument small start with
      | ok c => exact ⟨{ d with nodes := c.nodes, buf := buf, errOff := 0 }, none, rfl, .inr rfl⟩
      | error stop =>
        cases stop with
        | fail rc p =>
          exact ⟨{ d with nodes := [], buf := buf, errOff := p }, .some rc, rfl, .inr rfl⟩
        | stalled => exact absurd run returns

structure ParseFault where
  errOff : Nat
  rc : JsonErr
  deriving DecidableEq, Repr

/-- The loop of `parse_pool`; `none` only if its rounds are used up. -/
def parsePoolLoop (text : List UInt8) (max : Nat) : Nat → Nat → Option (Except ParseFault JsonDoc)
  | 0, _ => none
  | fuel + 1, cap =>
    match jsonParse (jsonDocInit cap) text with
    | none => none
    | some (doc, none) => some (.ok doc)
    | some (doc, some rc) =>
      if rc ≠ .eNodes ∨ cap ≥ max then some (.error ⟨doc.errOff, rc⟩)
      else parsePoolLoop text max fuel (if cap > max / 2 then max else cap * 2)

def parsePool (text : List UInt8) : Option (Except ParseFault JsonDoc) :=
  let max := jsonNodesFor text.length
  let cap := (text.length / 16 % 2 ^ 32 + 16) % 2 ^ 32
  parsePoolLoop text max (max + 1) (if cap > max then max else cap)

def outcome (after : JsonDoc) : Option JsonErr → Except ParseFault JsonDoc
  | none => .ok after
  | some rc => .error ⟨after.errOff, rc⟩

theorem parsePoolLoop_eq {text : List UInt8} {max fuel cap : Nat} (positive : 0 < cap)
    (le : cap ≤ max) (room : max < cap + fuel) :
    ∃ after rc size, ParsesAs (jsonDocInit 0) text max after rc ∧
      parsePoolLoop text max fuel cap = .some (outcome { after with cap := size } rc) := by
  induction fuel generalizing cap with
  | zero => omega
  | succ fuel ih =>
    obtain ⟨after, rc, parsed, same⟩ := jsonParse_inStep (jsonDocInit 0) text positive le
    have here : jsonParse (jsonDocInit cap) text = .some ({ after with cap := cap }, rc) := parsed
    rw [parsePoolLoop, here]
    cases rc with
    | none => exact ⟨after, none, cap, same.resolve_left nofun, rfl⟩
    | some rc =>
      by_cases stops : rc ≠ .eNodes ∨ cap ≥ max
      · have last : ParsesAs (jsonDocInit 0) text max after (.some rc) := by
          rcases same with nodes | same
          · obtain rfl : cap = max := by
              have isNodes := Option.some.inj nodes
              rcases stops with other | full
              · exact absurd isNodes other
              · omega
            exact parsed
          · exact same
        exact ⟨after, .some rc, cap, last, if_pos stops⟩
      · simp only [if_neg stops]
        obtain ⟨-, short⟩ := not_or.mp stops
        split
        · exact ih (by omega) (Nat.le_refl _) (by omega)
        · exact ih (by omega) (by omega) (by omega)

theorem parsePool_eq (text : List UInt8) : ∃ after rc size,
    ParsesAs (jsonDocInit 0) text (jsonNodesFor text.length) after rc ∧
      parsePool text = some (outcome { after with cap := size } rc) := by
  have room := jsonNodesFor_pos text.length
  simp only [parsePool]
  generalize start : (text.length / 16 % 2 ^ 32 + 16) % 2 ^ 32 = cap
  by_cases empty : cap = 0
  · -- the first size wraps around only for a text that no pool is big enough for
    have long : text.length > intMax := by
      rw [intMax]
      omega
    refine ⟨jsonDocInit 0, some .eInval, 0, if_pos (.inr long), ?_⟩
    subst empty
    simp [parsePoolLoop, jsonParse, long, outcome]
  · split
    · exact parsePoolLoop_eq room (Nat.le_refl _) (by omega)
    · exact parsePoolLoop_eq (by omega) (by omega) (by omega)

theorem jsonParse_pool_sizes :
    (∀ (d : JsonDoc) (buf : List UInt8) (small large : Nat), 0 < small → small ≤ large →
      ∃ after rc, ParsesAs d buf small after rc ∧
        (rc = some .eNodes ∨ ParsesAs d buf large after rc)) ∧
    ∀ text : List UInt8, ∃ after rc size,
      ParsesAs (jsonDocInit 0) text (jsonNodesFor text.length) after rc ∧
        parsePool text = some (outcome { after with cap := size } rc) :=
  ⟨fun d buf _ _ => jsonParse_inStep d buf, parsePool_eq⟩

theorem jsonParse_pool_sizes_array :
    (0 < 1 ∧ 1 ≤ 2 ∧ ∃ after rc, ParsesAs (jsonDocInit 0) [0x5B, 0x31, 0x5D] 1 after rc ∧
      (rc = some .eNodes ∨ ParsesAs (jsonDocInit 0) [0x5B, 0x31, 0x5D] 2 after rc)) ∧
    ∃ after rc size, ParsesAs (jsonDocInit 0) [0x5B, 0x31, 0x5D] 3 after rc ∧
      parsePool [0x5B, 0x31, 0x5D] = some (outcome { after with cap := size } rc) :=
  ⟨⟨by decide, by decide,
    jsonParse_pool_sizes.1 (jsonDocInit 0) [0x5B, 0x31, 0x5D] 1 2 (by decide) (by decide)⟩,
    jsonParse_pool_sizes.2 [0x5B, 0x31, 0x5D]⟩

theorem jsonParse_refuses_empty_pool :
    (jsonParse (jsonDocInit 0) [0x31]).map Prod.snd = some (some .eInval) ∧
      (jsonParse (jsonDocInit 1) [0x31]).map Prod.snd = some none := by
  decide

end Pro2Call.Json

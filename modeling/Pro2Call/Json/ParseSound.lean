import Pro2Call.Json.ParseTree
import Pro2Call.Data.Run

namespace Pro2Call.Json

open Pro2Call.Data

def Ws.append (first second : Ws) : Ws where
  bytes := first.bytes ++ second.bytes
  blank := by
    intro c member
    rcases List.mem_append.mp member with member | member
    · exact first.blank c member
    · exact second.blank c member

def Slot.indent (gap : Ws) : {obj : Bool} → Slot obj → Slot obj
  | _, .element inner => .element (gap.append inner)
  | _, .member before key after inner =>
    .member (gap.append before) key after inner

variable {obj : Bool} {c after : Pctx}

theorem Slot.print_indent (gap : Ws) (slot : Slot obj) :
    (slot.indent gap).print = gap.bytes ++ slot.print := by
  cases slot <;> simp [Slot.indent, Slot.print, Ws.append]

theorem exists_indented (gap : Ws) (children : JsonChildren obj) :
    ∃ indented : JsonChildren obj, indented.print = gap.bytes ++ children.print ∧
        indented.depth = children.depth ∧ indented.size = children.size := by
  cases children with
  | last slot value after =>
    exact ⟨.last (slot.indent gap) value after,
      by simp [JsonChildren.print, Slot.print_indent], rfl, rfl⟩
  | more slot value after rest =>
    exact ⟨.more (slot.indent gap) value after rest,
      by simp [JsonChildren.print, Slot.print_indent], rfl, rfl⟩

theorem skipWs_sound (c : Pctx) : ∃ gap : Ws, c.rest = gap.bytes ++ (skipWs c).rest :=
  exists_ws c.rest

theorem scanStr_sound {body : JsonStr} (scanned : scanStr c = .ok (after, body, esc)) :
    after.nodes = c.nodes ∧
      ∃ chars : JsonBody, c.rest.tail = chars.print ++ quote :: after.rest := by
  simp only [scanStr] at scanned
  split at scanned
  · cases scanned
  · rename_i rest escaped found
    cases scanned
    obtain ⟨chars, shape, _⟩ := scanBody_sound found
    exact ⟨rfl, chars, shape⟩

theorem scanNum_sound (scanned : scanNum c = .ok (after, raw, isint)) :
    after.nodes = c.nodes ∧ ∃ number : JsonNumber, c.rest = number.print ++ after.rest := by
  simp only [scanNum] at scanned
  split at scanned
  · cases scanned
  · rename_i rest whole found
    cases scanned
    obtain ⟨number, shape, _⟩ := scanLiteral_sound found
    exact ⟨rfl, number, shape⟩

theorem scanLit_sound (scanned : scanLit c lit = .ok (after, raw)) :
    after.nodes = c.nodes ∧ c.rest = lit ++ after.rest := by
  simp only [scanLit] at scanned
  split at scanned
  · rename_i found
    cases scanned
    obtain ⟨rest, shape⟩ := List.isPrefixOf_iff_prefix.mp found
    refine ⟨rfl, ?_⟩
    simp [Pctx.moveTo, ← shape]
  · cases scanned

theorem cons_of_head {text : List UInt8} (head : text.head? = some ch) :
    text = ch :: text.tail := by
  cases text with
  | nil => cases head
  | cons first rest =>
    cases head
    rfl

theorem parseKey_sound {key : JsonStr} (parsed : parseKey obj c = .ok (after, key, kesc))
    {gap : Ws} {tail : List UInt8} (ahead : after.rest = gap.bytes ++ tail) :
    after.nodes = c.nodes ∧ ∃ slot : Slot obj, c.rest = slot.print ++ tail := by
  cases obj with
  | false =>
    cases parsed
    exact ⟨rfl, .element gap, ahead⟩
  | true =>
    obtain ⟨before, shape⟩ := skipWs_sound c
    simp only [parseKey, if_true] at parsed
    split at parsed
    · rename_i isQuote
      obtain ⟨⟨named, body, esc⟩, scanned, parsed⟩ := exists_of_bind_ok parsed
      obtain ⟨nodes, chars, text⟩ := scanStr_sound scanned
      obtain ⟨between, nextShape⟩ := skipWs_sound named
      simp only at parsed
      split at parsed
      · rename_i isColon
        cases parsed
        refine ⟨nodes, .member before chars between gap, ?_⟩
        simp only [Pctx.moveTo] at ahead
        rw [shape, cons_of_head isQuote, text, nextShape, cons_of_head isColon, ahead]
        simp [Slot.print]
      · cases parsed
    · cases parsed

theorem length_setNode (c : Pctx) (i : Nat) (f : JsonNode → JsonNode) :
    (c.setNode i f).nodes.length = c.nodes.length := by
  simp [Pctx.setNode]

theorem length_linkChild (idx prev child : Nat) (key : JsonStr) (kesc : Bool) (c : Pctx) :
    (linkChild idx prev child key kesc c).nodes.length = c.nodes.length := by
  simp only [linkChild]
  split <;> simp only [length_setNode]

theorem rest_linkChild (idx prev child : Nat) (key : JsonStr) (kesc : Bool)
    (c : Pctx) : (linkChild idx prev child key kesc c).rest = c.rest := by
  simp only [linkChild]
  split <;> rfl

theorem parseLit_sound {fill : Pctx × JsonStr → JsonNode → JsonNode} (parsed : (do
      let scanned ← scanLit c lit
      Except.ok (scanned.1.setNode out (fill scanned))) = .ok after) :
    after.nodes.length = c.nodes.length ∧ c.rest = lit ++ after.rest := by
  obtain ⟨⟨scanned, raw⟩, found, parsed⟩ := exists_of_bind_ok parsed
  cases parsed
  obtain ⟨nodes, text⟩ := scanLit_sound found
  exact ⟨by rw [length_setNode, nodes], text⟩

theorem parseScalar_sound (parsed : parseScalar ch out c = .ok after)
    (head : c.rest.head? = some ch) :
    after.nodes.length = c.nodes.length ∧
      ∃ leaf : JsonScalar, c.rest = leaf.print ++ after.rest := by
  simp only [parseScalar] at parsed
  split at parsed
  · rename_i isQuote
    obtain ⟨⟨scanned, raw, esc⟩, found, parsed⟩ := exists_of_bind_ok parsed
    cases parsed
    obtain ⟨nodes, body, text⟩ := scanStr_sound found
    refine ⟨by rw [length_setNode, nodes], .str body, ?_⟩
    rw [cons_of_head head, text, isQuote]
    simp [JsonScalar.print, Pctx.setNode]
  · split at parsed
    · obtain ⟨nodes, text⟩ := parseLit_sound parsed
      exact ⟨nodes, .bool true, text⟩
    · split at parsed
      · obtain ⟨nodes, text⟩ := parseLit_sound parsed
        exact ⟨nodes, .bool false, text⟩
      · split at parsed
        · obtain ⟨nodes, text⟩ := parseLit_sound parsed
          exact ⟨nodes, .null, text⟩
        · obtain ⟨⟨scanned, raw, isint⟩, found, parsed⟩ :=
            exists_of_bind_ok parsed
          cases parsed
          obtain ⟨nodes, number, text⟩ := scanNum_sound found
          exact ⟨by rw [length_setNode, nodes], .num number, text⟩

def ValueSound (cap levels : Nat) (parse : Pctx → Except Stop (Pctx × Nat)) : Prop :=
  ∀ c after out, parse c = .ok (after, out) → ∃ (gap : Ws) (value : JsonValue),
      c.rest = gap.bytes ++ (value.print ++ after.rest) ∧ value.depth ≤ levels ∧
          after.nodes.length = c.nodes.length + value.size ∧ after.nodes.length ≤ cap

theorem parseChildren_round {cap levels : Nat} {parse : Pctx → Except Stop (Pctx × Nat)}
    (sound : ValueSound cap levels parse)
    (parsed : parseChildren parse obj idx (fuel + 1) prev c = .ok after) :
    ∃ (slot : Slot obj) (value : JsonValue) (gap : Ws) (hung : Pctx) (ch : UInt8) (child : Nat),
      c.rest = slot.print ++ (value.print ++ (gap.bytes ++ ch :: hung.rest)) ∧
        value.depth ≤ levels ∧
        hung.nodes.length = c.nodes.length + value.size ∧
        hung.nodes.length ≤ cap ∧
        ((ch = comma ∧ parseChildren parse obj idx fuel child hung = .ok after) ∨
          (ch = closeOf obj ∧ after = hung)) := by
  simp only [parseChildren] at parsed
  obtain ⟨⟨named, key, kesc⟩, keyed, parsed⟩ := exists_of_bind_ok parsed
  obtain ⟨⟨valued, child⟩, found, parsed⟩ := exists_of_bind_ok parsed
  obtain ⟨gap, value, text, shallow, grown, fits⟩ := sound _ _ _ found
  obtain ⟨sameNodes, slot, slotText⟩ := parseKey_sound keyed text
  simp only at parsed
  obtain ⟨behind, skipped⟩ := skipWs_sound (linkChild idx prev child key kesc valued)
  rw [rest_linkChild] at skipped
  have nodes : (skipWs (linkChild idx prev child key kesc valued)).nodes.length =
      valued.nodes.length := length_linkChild ..
  generalize skipWs (linkChild idx prev child key kesc valued) = hung at parsed skipped nodes
  split at parsed
  · cases parsed
  · rename_i ch rest isNext
    rw [isNext] at skipped
    refine ⟨slot, value, behind, hung.moveTo rest, ch, child, ?_, shallow, ?_, ?_, ?_⟩
    · rw [slotText, skipped]
      rfl
    · simp only [Pctx.moveTo, nodes, grown, sameNodes]
    · simpa only [Pctx.moveTo, nodes] using fits
    · split at parsed
      · rename_i isComma
        exact .inl ⟨isComma, parsed⟩
      · split at parsed
        · rename_i isClose
          cases parsed
          exact .inr ⟨isClose, rfl⟩
        · cases parsed

theorem parseChildren_sound {cap levels : Nat} {parse : Pctx → Except Stop (Pctx × Nat)}
    (sound : ValueSound cap levels parse)
    (parsed : parseChildren parse obj idx fuel prev c = .ok after) :
    ∃ children : JsonChildren obj, c.rest = children.print ++ closeOf obj :: after.rest ∧
        children.depth ≤ levels ∧ after.nodes.length = c.nodes.length + children.size ∧
            after.nodes.length ≤ cap := by
  induction fuel generalizing prev c with
  | zero => cases parsed
  | succ fuel ih =>
    obtain ⟨slot, value, gap, hung, ch, child, text, shallow, grown, fits,
      next⟩ := parseChildren_round sound parsed
    rcases next with ⟨rfl, parsed⟩ | ⟨rfl, rfl⟩
    · obtain ⟨rest, restText, restShallow, restGrown, restFits⟩ :=
        ih parsed
      refine ⟨.more slot value gap rest, ?_, ?_, ?_, restFits⟩
      · rw [text, restText]
        simp [JsonChildren.print]
      · exact Nat.max_le.mpr ⟨shallow, restShallow⟩
      · simp only [JsonChildren.size]
        omega
    · refine ⟨.last slot value gap, ?_, shallow, grown, fits⟩
      rw [text]
      simp [JsonChildren.print]

theorem parseInside_sound {cap levels : Nat} {parse : Pctx → Except Stop (Pctx × Nat)}
    (sound : ValueSound cap levels parse) (parsed : parseInside parse obj idx c = .ok after)
    (room : c.nodes.length ≤ cap) :
    ∃ value : JsonValue, openOf obj :: c.rest = value.print ++ after.rest ∧
        value.depth ≤ levels + 1 ∧ after.nodes.length + 1 = c.nodes.length + value.size ∧
            after.nodes.length ≤ cap := by
  obtain ⟨gap, skipped⟩ := skipWs_sound c
  have nodes : (skipWs c).nodes = c.nodes := rfl
  simp only [parseInside] at parsed
  generalize skipWs c = start at parsed skipped nodes
  split at parsed
  · cases parsed
  · rename_i ch rest isNext
    split at parsed
    · rename_i isClose
      cases parsed
      refine ⟨.empty obj gap, ?_, ?_, ?_, ?_⟩
      · rw [skipped, isNext, isClose]
        simp [JsonValue.print, Pctx.moveTo]
      · exact Nat.succ_le_succ (Nat.zero_le _)
      · simp only [Pctx.moveTo, nodes, JsonValue.size]
      · simpa only [Pctx.moveTo, nodes] using room
    · obtain ⟨children, text, shallow, grown, fits⟩ :=
        parseChildren_sound sound parsed
      obtain ⟨indented, print, depth, size⟩ := exists_indented gap children
      refine ⟨.container obj indented, ?_, ?_, ?_, fits⟩
      · rw [skipped, text]
        simp [JsonValue.print, print]
      · simpa only [JsonValue.depth, depth] using Nat.succ_le_succ shallow
      · rw [JsonValue.size, size, grown, nodes]
        omega

theorem parseContainer_sound {cap levels : Nat} {parse : Pctx → Except Stop (Pctx × Nat)}
    (sound : ValueSound cap levels parse) (parsed : parseContainer parse obj idx c = .ok after)
    (head : c.rest.head? = some (openOf obj)) (room : c.nodes.length ≤ cap) :
    ∃ value : JsonValue, c.rest = value.print ++ after.rest ∧ value.depth ≤ levels + 1 ∧
        after.nodes.length + 1 = c.nodes.length + value.size ∧ after.nodes.length ≤ cap := by
  simp only [parseContainer] at parsed
  obtain ⟨closed, inside, parsed⟩ := exists_of_bind_ok parsed
  cases parsed
  obtain ⟨value, text, shallow, grown, fits⟩ := parseInside_sound sound inside room
  refine ⟨value, ?_, shallow, ?_, ?_⟩
  · rw [cons_of_head head]
    exact text
  · rw [length_setNode]
    exact grown
  · rw [length_setNode]
    exact fits

theorem parseNode_sound {cap levels : Nat} {parse : Pctx → Except Stop (Pctx × Nat)}
    (sound : ValueSound cap levels parse) (parsed : parseNode parse ch out c = .ok after)
    (head : c.rest.head? = some ch) (room : c.nodes.length ≤ cap) :
    ∃ value : JsonValue, c.rest = value.print ++ after.rest ∧ value.depth ≤ levels + 1 ∧
        after.nodes.length + 1 = c.nodes.length + value.size ∧ after.nodes.length ≤ cap := by
  simp only [parseNode] at parsed
  split at parsed
  · rename_i isObject
    exact parseContainer_sound sound parsed (by rw [head, isObject]) room
  · split at parsed
    · rename_i isArray
      exact parseContainer_sound sound parsed (by rw [head, isArray]) room
    · obtain ⟨nodes, leaf, text⟩ := parseScalar_sound parsed head
      refine ⟨.scalar leaf, text, Nat.succ_le_succ (Nat.zero_le _), ?_, ?_⟩
      · rw [nodes]
        rfl
      · rw [nodes]
        exact room

theorem parseValue_sound (cap levels : Nat) : ValueSound cap levels (parseValue cap levels) := by
  induction levels with
  | zero =>
    intro c after out parsed
    cases parsed
  | succ levels ih =>
    intro c after out parsed
    obtain ⟨gap, skipped⟩ := skipWs_sound c
    have nodes : (skipWs c).nodes = c.nodes := rfl
    simp only [parseValue] at parsed
    generalize skipWs c = start at parsed skipped nodes
    split at parsed
    · cases parsed
    · rename_i ch rest isNext
      obtain ⟨⟨fresh, idx⟩, allocated, parsed⟩ := exists_of_bind_ok parsed
      obtain ⟨filled, node, parsed⟩ := exists_of_bind_ok parsed
      cases parsed
      simp only [allocNode] at allocated
      split at allocated
      · cases allocated
      · rename_i notFull
        cases allocated
        obtain ⟨value, text, shallow, grown, fits⟩ := parseNode_sound
          ih node (by rw [isNext]; rfl) (by simp; omega)
        refine ⟨gap, value, ?_, shallow, ?_, fits⟩
        · rw [skipped]
          exact congrArg _ text
        · simp only [List.length_append, List.length_singleton, nodes] at grown
          omega

/-! The parser returns: every round of the loop over the children reads a
byte, so the rounds allowed are never used up. -/

def Returns {α : Type} (outcome : Except Stop α) : Prop := outcome ≠ .error .stalled

theorem returns_ok (result : α) : Returns (.ok result) := by
  intro same
  cases same

theorem returns_fail (c : Pctx) (rc : JsonErr) : Returns (c.fail rc : Except Stop α) := by
  intro same
  cases same

theorem scanStr_returns (c : Pctx) : Returns (scanStr c) := by
  simp only [scanStr]
  split
  · exact returns_fail c _
  · exact returns_ok _

theorem scanNum_returns (c : Pctx) : Returns (scanNum c) := by
  simp only [scanNum]
  split
  · exact returns_fail c _
  · exact returns_ok _

theorem scanLit_returns (c : Pctx) (lit : List UInt8) : Returns (scanLit c lit) := by
  simp only [scanLit]
  split
  · exact returns_ok _
  · exact returns_fail c _

theorem parseKey_returns (obj : Bool) (c : Pctx) : Returns (parseKey obj c) := by
  simp only [parseKey]
  split
  · split
    · apply bind_ne_error (scanStr_returns _)
      rintro ⟨named, key, kesc⟩ _
      simp only
      split
      · exact returns_ok _
      · exact returns_fail _ _
    · exact returns_fail _ _
  · exact returns_ok _

theorem parseScalar_returns (ch : UInt8) (out : Nat) (c : Pctx) :
    Returns (parseScalar ch out c) := by
  simp only [parseScalar]
  split
  · exact bind_ne_error (scanStr_returns c) fun _ _ => returns_ok _
  · split
    · exact bind_ne_error (scanLit_returns c _) fun _ _ => returns_ok _
    · split
      · exact bind_ne_error (scanLit_returns c _) fun _ _ => returns_ok _
      · split
        · exact bind_ne_error (scanLit_returns c _) fun _ _ => returns_ok _
        · exact bind_ne_error (scanNum_returns c) fun _ _ => returns_ok _

section

variable {cap levels : Nat} {parse : Pctx → Except Stop (Pctx × Nat)}
  (sound : ValueSound cap levels parse) (returns : ∀ c, Returns (parse c))

include sound returns

theorem parseChildren_returns (obj : Bool) (idx : Nat) (prev : Nat)
    (enough : c.rest.length < fuel) :
    Returns (parseChildren parse obj idx fuel prev c) := by
  induction fuel generalizing prev c with
  | zero => omega
  | succ fuel ih =>
    simp only [parseChildren]
    apply bind_ne_error (parseKey_returns obj c)
    rintro ⟨named, key, kesc⟩ keyed
    apply bind_ne_error (returns named)
    rintro ⟨valued, child⟩ found
    obtain ⟨gap, value, text, _⟩ := sound _ _ _ found
    obtain ⟨_, slot, slotText⟩ := parseKey_sound keyed text
    obtain ⟨behind, skipped⟩ := skipWs_sound (linkChild idx prev child key kesc valued)
    rw [rest_linkChild] at skipped
    simp only
    generalize skipWs (linkChild idx prev child key kesc valued) = hung at skipped
    split
    · exact returns_fail _ _
    · rename_i ch rest isNext
      split
      · apply ih child
        have length := congrArg List.length slotText
        simp only [skipped, isNext, List.length_append, List.length_cons] at length
        simp only [Pctx.moveTo]
        omega
      · split
        · exact returns_ok _
        · exact returns_fail _ _

theorem parseContainer_returns (obj : Bool) (idx : Nat) (c : Pctx) :
    Returns (parseContainer parse obj idx c) := by
  simp only [parseContainer]
  apply bind_ne_error _ fun _ _ => returns_ok _
  simp only [parseInside]
  split
  · exact returns_fail _ _
  · split
    · exact returns_ok _
    · exact parseChildren_returns sound returns obj idx 0 (Nat.lt_succ_self _)

theorem parseNode_returns (ch : UInt8) (out : Nat) (c : Pctx) :
    Returns (parseNode parse ch out c) := by
  simp only [parseNode]
  split
  · exact parseContainer_returns sound returns true out c
  · split
    · exact parseContainer_returns sound returns false out c
    · exact parseScalar_returns ch out c

end

theorem parseValue_returns (cap levels : Nat) (c : Pctx) : Returns (parseValue cap levels c) := by
  induction levels generalizing c with
  | zero => exact returns_fail c _
  | succ levels ih =>
    simp only [parseValue]
    split
    · exact returns_fail _ _
    · apply bind_ne_error
      · simp only [allocNode]
        split
        · exact returns_fail _ _
        · exact returns_ok _
      · rintro ⟨fresh, idx⟩ _
        exact bind_ne_error (parseNode_returns (parseValue_sound cap levels)
          ih _ idx fresh) fun _ _ => returns_ok _

end Pro2Call.Json

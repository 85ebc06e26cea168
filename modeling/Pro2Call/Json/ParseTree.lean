import Pro2Call.Json.ParseScan
import Mathlib.Data.List.DropRight

namespace Pro2Call.Json

open Pro2Call.Data

/-! The nodes of a syntax tree, and that the parser lays them out: on a
printed tree it allocates one node per value in preorder, linked as the tree
is, with slices at the places where the tree was printed. -/

structure Link where
  key : JsonStr := {}
  kesc : Bool := false
  next : Nat := 0

def JsonNode.linked (node : JsonNode) (link : Link) : JsonNode :=
  { node with key := link.key, kesc := link.kesc, next := link.next }

def Slot.link : {obj : Bool} → Slot obj → Nat → Nat → Link
  | _, .element _, _, next => { next := next }
  | _, .member before key _ _, off, next =>
    { key := { off := off + before.bytes.length + 1, len := key.print.length }
      kesc := key.escaped
      next := next }

def JsonScalar.node (off : Nat) : JsonScalar → JsonNode
  | .null => { type := .null, raw := { off := off, len := 4 } }
  | .bool true => { type := .bool, raw := { off := off, len := 4 } }
  | .bool false => { type := .bool, raw := { off := off, len := 5 } }
  | .num number =>
    { type := .num, int := number.isInt
      raw := { off := off, len := number.print.length } }
  | .str body =>
    { type := .str, esc := body.escaped
      raw := { off := off + 1, len := body.print.length } }

def JsonValue.node (off idx : Nat) : JsonValue → JsonNode
  | .scalar leaf => leaf.node off
  | .empty obj gap =>
    { type := if obj then .obj else .arr
      raw := { off := off, len := gap.bytes.length + 2 } }
  | .container obj children =>
    { type := if obj then .obj else .arr
      count := children.count
      first := idx + 1
      raw := { off := off, len := children.print.length + 2 } }

mutual

def JsonValue.nodes : JsonValue → Link → Nat → Nat → List JsonNode
  | .scalar leaf, link, off, idx =>
    [((JsonValue.scalar leaf).node off idx).linked link]
  | .empty obj gap, link, off, idx =>
    [((JsonValue.empty obj gap).node off idx).linked link]
  | .container obj children, link, off, idx =>
    ((JsonValue.container obj children).node off idx).linked link ::
      children.nodes (off + 1) (idx + 1)

def JsonChildren.nodes : {obj : Bool} → JsonChildren obj → Nat → Nat → List JsonNode
  | _, .last slot value _, off, idx =>
    value.nodes (slot.link off 0) (off + slot.print.length) idx
  | _, .more slot value after rest, off, idx =>
    value.nodes (slot.link off (idx + value.size)) (off + slot.print.length) idx ++
      rest.nodes (off + slot.print.length + value.print.length +
        after.bytes.length + 1) (idx + value.size)

end

mutual

@[simp] theorem JsonValue.length_nodes : (value : JsonValue) → (link : Link) → (off idx : Nat) →
    (value.nodes link off idx).length = value.size
  | .scalar _, _, _, _ => rfl
  | .empty _ _, _, _, _ => rfl
  | .container _ children, _, off, idx => by
    simp [JsonValue.nodes, JsonValue.size, children.length_nodes (off + 1) (idx + 1)]

@[simp] theorem JsonChildren.length_nodes : {obj : Bool} →
    (children : JsonChildren obj) → (off idx : Nat) →
    (children.nodes off idx).length = children.size
  | _, .last slot value _, off, idx =>
    value.length_nodes (slot.link off 0) (off + slot.print.length) idx
  | _, .more slot value after rest, off, idx => by
    simp only [JsonChildren.nodes, JsonChildren.size, List.length_append,
      value.length_nodes, rest.length_nodes]

end

theorem JsonValue.size_pos (value : JsonValue) : 0 < value.size := by
  cases value <;> simp [JsonValue.size]

theorem JsonValue.depth_pos (value : JsonValue) : 0 < value.depth := by
  cases value <;> simp [JsonValue.depth]

variable {obj : Bool} {rest : List UInt8} {ch : UInt8} {idx : Nat}
    {value : Pctx → Except Stop (Pctx × Nat)}

theorem JsonChildren.depth_pos (children : JsonChildren obj) : 0 < children.depth := by
  cases children with
  | last slot value after => exact value.depth_pos
  | more slot value after rest =>
    exact Nat.lt_of_lt_of_le value.depth_pos (Nat.le_max_left ..)

theorem JsonValue.node_linked (value : JsonValue) (off idx : Nat) :
    (value.node off idx).linked {} = value.node off idx := by
  cases value with
  | scalar leaf =>
    cases leaf with
    | bool value => cases value <;> rfl
    | _ => rfl
  | _ => rfl

theorem JsonValue.nodes_modify_key (value : JsonValue) (link : Link)
    (off idx : Nat) (key : JsonStr) (kesc : Bool) :
    (value.nodes link off idx).modify 0 (fun n => { n with key := key, kesc := n.kesc || kesc }) =
      value.nodes { link with key := key, kesc := link.kesc || kesc }
        off idx := by
  cases value <;> simp [JsonValue.nodes, JsonNode.linked]

theorem JsonValue.nodes_modify_next (value : JsonValue) (link : Link) (off idx next : Nat) :
    (value.nodes link off idx).modify 0 (fun n => { n with next := next }) =
      value.nodes { link with next := next } off idx := by
  cases value <;> simp [JsonValue.nodes, JsonNode.linked]

theorem Slot.link_next (slot : Slot obj) (off next other : Nat) :
    { slot.link off next with next := other } = slot.link off other := by
  cases slot <;> rfl

section Cursor

variable (pool : List JsonNode) (p : Nat)

theorem moveTo_append (front rest : List UInt8) :
    Pctx.moveTo ⟨pool, p, front ++ rest⟩ rest = ⟨pool, p + front.length, rest⟩ := by
  simp [Pctx.moveTo]

theorem moveTo_cons (ch : UInt8) (rest : List UInt8) :
    Pctx.moveTo ⟨pool, p, ch :: rest⟩ rest = ⟨pool, p + 1, rest⟩ :=
  moveTo_append pool p [ch] rest

theorem skipWs_append (gap : Ws) (stops : Stops jsonIsWs rest) :
    skipWs ⟨pool, p, gap.bytes ++ rest⟩ = ⟨pool, p + gap.bytes.length, rest⟩ := by
  rw [skipWs, dropWhile_ws gap stops]
  exact moveTo_append pool p gap.bytes rest

theorem scanStr_quoted (body : JsonBody) (rest : List UInt8) :
    scanStr ⟨pool, p, quote :: (body.print ++ quote :: rest)⟩ = .ok
      (⟨pool, p + body.print.length + 2, rest⟩, ⟨p + 1, body.print.length⟩, body.escaped) := by
  have moved := moveTo_append pool p (quote :: (body.print ++ [quote])) rest
  simp only [List.cons_append, List.append_assoc, List.nil_append,
    List.length_cons, List.length_append, List.length_nil] at moved
  have length : (body.print ++ quote :: rest).length - rest.length - 1 = body.print.length := by
    simp only [List.length_append, List.length_cons]
    omega
  simp only [scanStr, List.tail_cons, scanBody_print, moved, length]
  rfl

theorem scanNum_print (number : JsonNumber) (stops : Stops isNumberByte rest) :
    scanNum ⟨pool, p, number.print ++ rest⟩ = .ok (⟨pool, p + number.print.length, rest⟩,
        ⟨p, number.print.length⟩, number.isInt) := by
  simp [scanNum, scanLiteral_print number stops, moveTo_append]

theorem scanLit_append (lit rest : List UInt8) :
    scanLit ⟨pool, p, lit ++ rest⟩ lit = .ok (⟨pool, p + lit.length, rest⟩, ⟨p, lit.length⟩) := by
  simp [scanLit, moveTo_append]

theorem parseKey_print (slot : Slot obj) (rest : List UInt8) :
    ∃ (used : Nat) (gap : Ws), used + gap.bytes.length = slot.print.length ∧
      parseKey obj ⟨pool, p, slot.print ++ rest⟩ = .ok (⟨pool, p + used, gap.bytes ++ rest⟩,
          (slot.link p 0).key, (slot.link p 0).kesc) := by
  cases slot with
  | element gap => exact ⟨0, gap, by simp [Slot.print], rfl⟩
  | member before key after gap =>
    refine ⟨before.bytes.length + (key.print.length + 2) + after.bytes.length + 1, gap, ?_, ?_⟩
    · simp only [Slot.print, List.length_append, List.length_cons]
      omega
    · have quoted : ∀ tail, Stops jsonIsWs (quote :: tail) :=
        fun tail => (stops_cons ..).mpr (by decide)
      have parted : ∀ tail, Stops jsonIsWs (colon :: tail) :=
        fun tail => (stops_cons ..).mpr (by decide)
      simp only [parseKey, if_true, Slot.print, List.append_assoc,
        List.cons_append, skipWs_append _ _ _ (quoted _),
        List.head?_cons, scanStr_quoted, bind, Except.bind,
        skipWs_append _ _ _ (parted _), List.tail_cons, moveTo_cons,
        Slot.link]
      congr 3
      omega

end Cursor

theorem number_head (number : JsonNumber) :
    ∃ ch tail, number.print = ch :: tail ∧ (ch = 0x2D ∨ jsonIsDigit ch = true) := by
  obtain ⟨minus, int, frac, exp⟩ := number
  cases minus with
  | true => exact ⟨0x2D, _, rfl, .inl rfl⟩
  | false =>
    obtain ⟨ch, tail, shape, digit⟩ := int_head int
    refine ⟨ch, tail ++ fracPrint frac ++ expPrint exp, ?_, .inr digit⟩
    simp [JsonNumber.print, shape]

theorem numberStart_ne (start : ch = 0x2D ∨ jsonIsDigit ch = true)
    (outside : other ≠ 0x2D ∧ jsonIsDigit other = false) : ch ≠ other := by
  rintro rfl
  rcases start with minus | digit
  · exact outside.1 minus
  · rw [outside.2] at digit
    cases digit

theorem scalar_head (leaf : JsonScalar) :
    ∃ ch tail, leaf.print = ch :: tail ∧ jsonIsWs ch = false ∧ (ch ≠ closeOf false ∧ ch ≠ 0xEF) ∧
        ch ≠ openOf true ∧ ch ≠ openOf false := by
  cases leaf with
  | null => exact ⟨0x6E, _, rfl, by decide⟩
  | bool value =>
    cases value with
    | true => exact ⟨0x74, _, rfl, by decide⟩
    | false => exact ⟨0x66, _, rfl, by decide⟩
  | str body => exact ⟨quote, _, rfl, by decide⟩
  | num number =>
    obtain ⟨ch, tail, shape, start⟩ := number_head number
    refine ⟨ch, tail, shape, ?_,
      ⟨numberStart_ne start (by decide), numberStart_ne start (by decide)⟩,
      numberStart_ne start (by decide), numberStart_ne start (by decide)⟩
    simp only [jsonIsWs, Bool.or_eq_false_iff, beq_eq_false_iff_ne]
    exact ⟨⟨⟨numberStart_ne start (by decide),
      numberStart_ne start (by decide)⟩, numberStart_ne start (by decide)⟩,
      numberStart_ne start (by decide)⟩

theorem modify_freshNode (pool : List JsonNode) (change : JsonNode → JsonNode) :
    (pool ++ [freshNode]).modify pool.length change = pool ++ [change freshNode] :=
  modify_append_length rfl [freshNode] change

theorem parseLit_print (pool : List JsonNode) (p : Nat)
    (lit rest : List UInt8) (fill : JsonStr → JsonNode → JsonNode) :
    (do
      let (c, raw) ← scanLit ⟨pool ++ [freshNode], p, lit ++ rest⟩ lit
      Except.ok (c.setNode pool.length (fill raw))) =
      .ok ⟨pool ++ [fill ⟨p, lit.length⟩ freshNode], p + lit.length, rest⟩ := by
  simp only [scanLit_append, bind, Except.bind, Pctx.setNode, modify_freshNode]

theorem parseScalar_print (pool : List JsonNode) (p : Nat) (leaf : JsonScalar) {tail : List UInt8}
    (head : leaf.print = ch :: tail) (stops : Stops isNumberByte rest) :
    parseScalar ch pool.length ⟨pool ++ [freshNode], p, leaf.print ++ rest⟩ =
      .ok ⟨pool ++ [leaf.node p], p + leaf.print.length, rest⟩ := by
  cases leaf with
  | null =>
    cases head
    exact parseLit_print pool p litNull rest fun raw n =>
      { n with type := .null, raw := raw }
  | bool value =>
    cases value with
    | true =>
      cases head
      exact parseLit_print pool p litTrue rest fun raw n =>
        { n with type := .bool, raw := raw }
    | false =>
      cases head
      exact parseLit_print pool p litFalse rest fun raw n =>
        { n with type := .bool, raw := raw }
  | str body =>
    cases head
    simp only [JsonScalar.print, List.cons_append, List.append_assoc,
      List.nil_append, parseScalar, if_true, scanStr_quoted, bind,
      Except.bind, Pctx.setNode, modify_freshNode]
    simp [JsonScalar.node, freshNode, Nat.add_assoc]
  | num number =>
    obtain ⟨first, tail', shape, start⟩ := number_head number
    have same : ch = first := by
      simp only [JsonScalar.print, shape, List.cons.injEq] at head
      exact head.1.symm
    rw [← same] at start
    simp only [JsonScalar.print, parseScalar,
      numberStart_ne start (show quote ≠ 0x2D ∧ _ by decide),
      numberStart_ne start (show (0x74 : UInt8) ≠ 0x2D ∧ _ by decide),
      numberStart_ne start (show (0x66 : UInt8) ≠ 0x2D ∧ _ by decide),
      numberStart_ne start (show (0x6E : UInt8) ≠ 0x2D ∧ _ by decide),
      if_false, scanNum_print _ p number stops, bind, Except.bind,
      Pctx.setNode, modify_freshNode]
    rfl

theorem value_head (value : JsonValue) :
    ∃ ch tail, value.print = ch :: tail ∧ jsonIsWs ch = false ∧ ch ≠ closeOf false ∧ ch ≠ 0xEF := by
  cases value with
  | scalar leaf =>
    obtain ⟨ch, tail, shape, visible, notClose, _⟩ := scalar_head leaf
    exact ⟨ch, tail, shape, visible, notClose⟩
  | empty obj gap => exact ⟨openOf obj, _, rfl, by cases obj <;> decide⟩
  | container obj children =>
    exact ⟨openOf obj, _, rfl, by cases obj <;> decide⟩

theorem slot_head (slot : Slot obj) (value : JsonValue) (back : List UInt8) :
    ∃ (gap : Ws) (ch : UInt8) (tail : List UInt8),
      slot.print ++ (value.print ++ back) = gap.bytes ++ ch :: tail ∧
        jsonIsWs ch = false ∧ ch ≠ closeOf obj ∧ back.length ≤ tail.length := by
  cases slot with
  | element gap =>
    obtain ⟨ch, tail, shape, visible, notClose, _⟩ := value_head value
    refine ⟨gap, ch, tail ++ back, ?_, visible, notClose, ?_⟩
    · simp [Slot.print, shape]
    · simp
  | member before key after gap =>
    refine ⟨before, quote, _, by simp [Slot.print]; rfl, by decide, by decide, ?_⟩
    simp only [List.length_append, List.length_cons]
    omega

theorem children_head : {obj : Bool} → (children : JsonChildren obj) →
    ∃ (gap : Ws) (ch : UInt8) (tail : List UInt8),
      children.print = gap.bytes ++ ch :: tail ∧ jsonIsWs ch = false ∧
        ch ≠ closeOf obj ∧ children.count ≤ tail.length + 1
  | _, .last slot value after => by
    obtain ⟨gap, ch, tail, shape, visible, notClose, _⟩ := slot_head slot value after.bytes
    refine ⟨gap, ch, tail, ?_, visible, notClose, ?_⟩
    · rw [← shape, JsonChildren.print, List.append_assoc]
    · simp [JsonChildren.count]
  | _, .more slot value after rest => by
    obtain ⟨gap, ch, tail, shape, visible, notClose, long⟩ :=
      slot_head slot value (after.bytes ++ comma :: rest.print)
    obtain ⟨restGap, restCh, restTail, restShape, _, _, restLong⟩ := children_head rest
    refine ⟨gap, ch, tail, ?_, visible, notClose, ?_⟩
    · rw [← shape]
      simp only [JsonChildren.print, List.append_assoc]
    · simp only [restShape, List.length_append, List.length_cons] at long
      simp only [JsonChildren.count]
      omega

theorem stops_gap (gap : Ws) (other : isNumberByte ch = false)
    (rest : List UInt8) : Stops isNumberByte (gap.bytes ++ ch :: rest) := by
  obtain ⟨bytes, blank⟩ := gap
  cases bytes with
  | nil => exact (stops_cons ..).mpr other
  | cons first bytes =>
    have isBlank := blank first (List.mem_cons_self ..)
    simp only [jsonIsWs, Bool.or_eq_true, beq_iff_eq] at isBlank
    refine (stops_cons ..).mpr ?_
    rcases isBlank with ((rfl | rfl) | rfl) | rfl <;> decide

/-- A pool in which the parent `idx` got `count` more children, the first of
them `child`, after the previous child `prev` if any. -/
def hang (pool : List JsonNode) (idx prev child count : Nat) : List JsonNode :=
  (if prev ≠ 0 then pool.modify prev fun n => { n with next := child }
    else pool.modify idx fun n => { n with first := child }).modify idx
      fun n => { n with count := n.count + count }

theorem length_hang (pool : List JsonNode) (idx prev child count : Nat) :
    (hang pool idx prev child count).length = pool.length := by
  rw [hang]
  split <;> simp only [List.length_modify]

theorem hang_append {pool : List JsonNode} (parent : idx < pool.length)
    (before : prev < pool.length)
    (back : List JsonNode) (child count : Nat) :
    hang (pool ++ back) idx prev child count = hang pool idx prev child count ++ back := by
  rw [hang, hang]
  split
  · rw [modify_append_left before, modify_append_left (by simpa)]
  · rw [modify_append_left parent, modify_append_left (by simpa)]

theorem linkChild_nodes {pool : List JsonNode} (parent : idx < pool.length)
    (before : prev < pool.length)
    (value : JsonValue) (off p : Nat) (rest : List UInt8) (key : JsonStr)
    (kesc : Bool) :
    linkChild idx prev pool.length key kesc ⟨pool ++ value.nodes {} off pool.length, p, rest⟩ =
      ⟨hang pool idx prev pool.length 1 ++
        value.nodes { key := key, kesc := kesc } off pool.length, p, rest⟩ := by
  rw [← hang_append parent before]
  simp only [linkChild, Pctx.setNode, modify_append_length rfl,
    value.nodes_modify_key, Bool.false_or, hang]
  split <;> rfl

theorem hang_hang {pool : List JsonNode}
    (parent : idx < pool.length) (prev : Nat) (value : JsonValue) (link : Link)
    (off next count : Nat) :
    hang (hang pool idx prev pool.length 1 ++
        value.nodes link off pool.length) idx pool.length next count =
      hang pool idx prev pool.length (count + 1) ++
        value.nodes { link with next := next } off pool.length := by
  have length := length_hang pool idx prev pool.length 1
  have nonzero : pool.length ≠ 0 := by omega
  rw [hang, if_pos nonzero]
  rw [modify_append_length length, value.nodes_modify_next,
    modify_append_left (by rw [length]; exact parent)]
  congr 1
  rw [hang, hang, List.modify_modify_eq]
  congr 1
  funext n
  simp only [Function.comp_apply, Nat.add_assoc, Nat.add_comm 1 count]

theorem skipWs_skipWs (c : Pctx) : skipWs (skipWs c) = skipWs c := by
  simp [skipWs, Pctx.moveTo, List.dropWhile_idempotent]

theorem parseValue_skipWs (cap levels : Nat) (c : Pctx) :
    parseValue cap (levels + 1) (skipWs c) = parseValue cap (levels + 1) c := by
  simp only [parseValue, skipWs_skipWs]

theorem parseChildren_skipWs (skips : ∀ c, value (skipWs c) = value c) (obj : Bool)
    (idx fuel prev : Nat) (c : Pctx) :
    parseChildren value obj idx fuel prev (skipWs c) = parseChildren value obj idx fuel prev c := by
  cases fuel with
  | zero => rfl
  | succ fuel =>
    cases obj with
    | false => simp [parseChildren, parseKey, bind, Except.bind, skips]
    | true => simp [parseChildren, parseKey, skipWs_skipWs]

theorem parseChildren_child {parse : Pctx → Except Stop (Pctx × Nat)} (fuel : Nat) (slot : Slot obj)
    (value : JsonValue) (after : Ws)
    {pool : List JsonNode} (p : Nat)
    (parsed : ∀ (p : Nat) (gap : Ws), parse ⟨pool, p, gap.bytes ++
          (value.print ++ (after.bytes ++ ch :: rest))⟩ = .ok
        (⟨pool ++ value.nodes {} (p + gap.bytes.length) pool.length,
          p + gap.bytes.length + value.print.length,
          after.bytes ++ ch :: rest⟩, pool.length))
    (visible : jsonIsWs ch = false) (parent : idx < pool.length)
    (before : prev < pool.length) :
    parseChildren parse obj idx (fuel + 1) prev
        ⟨pool, p, slot.print ++ (value.print ++ (after.bytes ++ ch :: rest))⟩ =
      let hung := hang pool idx prev pool.length 1 ++
        value.nodes (slot.link p 0) (p + slot.print.length) pool.length
      let stop := p + slot.print.length + value.print.length + after.bytes.length
      if ch = comma then
        parseChildren parse obj idx fuel pool.length ⟨hung, stop + 1, rest⟩
      else if ch = closeOf obj then .ok ⟨hung, stop + 1, rest⟩
      else Pctx.fail ⟨hung, stop, ch :: rest⟩ .eSyntax := by
  obtain ⟨used, gap, length, keyed⟩ := parseKey_print pool p slot
    (value.print ++ (after.bytes ++ ch :: rest))
  have link : (⟨(slot.link p 0).key, (slot.link p 0).kesc, 0⟩ : Link) = slot.link p 0 := by
    cases slot <;> rfl
  have linked := linkChild_nodes parent before value (p + slot.print.length)
    (p + slot.print.length + value.print.length)
    (after.bytes ++ ch :: rest) (slot.link p 0).key (slot.link p 0).kesc
  have skipped : ∀ hung stop, skipWs ⟨hung, stop, after.bytes ++ ch :: rest⟩ =
      ⟨hung, stop + after.bytes.length, ch :: rest⟩ :=
    fun hung stop => skipWs_append hung stop after ((stops_cons ..).mpr visible)
  have value_parsed := parsed (p + used) gap
  rw [Nat.add_assoc p used, length] at value_parsed
  rw [link] at linked
  simp only [parseChildren, keyed, value_parsed, linked, skipped, bind, Except.bind, moveTo_cons]

theorem parseValue_head {pool : List JsonNode} (room : pool.length < cap) (p : Nat) (gap : Ws)
    (visible : jsonIsWs ch = false) {tail : List UInt8} {after : Pctx}
    (parsed : parseNode (parseValue cap levels) ch pool.length
      ⟨pool ++ [freshNode], p + gap.bytes.length, ch :: tail⟩ = .ok after) :
    parseValue cap (levels + 1) ⟨pool, p, gap.bytes ++ ch :: tail⟩ = .ok (after, pool.length) := by
  have skipped := skipWs_append pool p gap
    (show Stops jsonIsWs (ch :: tail) from (stops_cons ..).mpr visible)
  have notFull : ¬ pool.length ≥ cap := by omega
  simp only [parseValue, skipped, allocNode, notFull, if_false, bind, Except.bind, parsed]

theorem parseNode_bracket (value : Pctx → Except Stop (Pctx × Nat))
    (obj : Bool) (out : Nat) (c : Pctx) :
    parseNode value (openOf obj) out c = parseContainer value obj out c := by
  cases obj <;> rfl

theorem parseInside_empty (value : Pctx → Except Stop (Pctx × Nat))
    (obj : Bool) (idx : Nat) (pool : List JsonNode) (p : Nat) (gap : Ws)
    (rest : List UInt8) :
    parseInside value obj idx ⟨pool, p, gap.bytes ++ closeOf obj :: rest⟩ =
      .ok ⟨pool, p + gap.bytes.length + 1, rest⟩ := by
  have skipped := skipWs_append pool p gap (show Stops jsonIsWs (closeOf obj :: rest) from
      (stops_cons ..).mpr (by cases obj <;> decide))
  simp only [parseInside, skipped, if_true, moveTo_cons]

theorem parseInside_children (skips : ∀ c, value (skipWs c) = value c)
    (children : JsonChildren obj) (idx : Nat) (pool : List JsonNode) (p : Nat)
    (rest : List UInt8) :
    ∃ fuel, children.count < fuel ∧ parseInside value obj idx
          ⟨pool, p, children.print ++ closeOf obj :: rest⟩ =
        parseChildren value obj idx fuel 0 ⟨pool, p, children.print ++ closeOf obj :: rest⟩ := by
  obtain ⟨gap, ch, tail, shape, visible, notClose, long⟩ := children_head children
  have skipped := skipWs_append pool p gap
    (show Stops jsonIsWs (ch :: (tail ++ closeOf obj :: rest)) from
      (stops_cons ..).mpr visible)
  have text : children.print ++ closeOf obj :: rest =
      gap.bytes ++ ch :: (tail ++ closeOf obj :: rest) := by
    simp [shape]
  refine ⟨(ch :: (tail ++ closeOf obj :: rest)).length + 1, ?_, ?_⟩
  · simp only [List.length_cons, List.length_append]
    omega
  · rw [← parseChildren_skipWs skips, text]
    simp only [parseInside, skipped, notClose, if_false]

theorem parseContainer_node {pool after : List JsonNode} {p len : Nat} {tail : List UInt8}
    (parsed : parseInside value obj idx ⟨pool, p + 1, tail⟩ = .ok ⟨after, p + len, rest⟩) :
    parseContainer value obj idx ⟨pool, p, openOf obj :: tail⟩ = .ok ⟨after.modify idx fun n =>
        { n with
          type := if obj then .obj else .arr
          raw := { off := p, len := len } }, p + len, rest⟩ := by
  simp only [parseContainer, List.tail_cons, moveTo_cons, parsed, bind,
    Except.bind, Pctx.setNode, Nat.add_sub_cancel_left]

theorem hang_freshNode (pool : List JsonNode) (child count : Nat) :
    hang (pool ++ [freshNode]) pool.length 0 child count =
      pool ++ [{ freshNode with first := child, count := count }] := by
  rw [hang, if_neg (by simp), modify_freshNode, modify_append_length rfl]
  simp [freshNode]

mutual

theorem parseValue_print : (value : JsonValue) → {cap levels : Nat} →
    (pool : List JsonNode) → (p : Nat) → (gap : Ws) → {rest : List UInt8} →
    value.depth ≤ levels → pool.length + value.size ≤ cap →
    Stops isNumberByte rest →
    parseValue cap levels ⟨pool, p, gap.bytes ++ (value.print ++ rest)⟩ = .ok
      (⟨pool ++ value.nodes {} (p + gap.bytes.length) pool.length,
        p + gap.bytes.length + value.print.length, rest⟩, pool.length)
  | .scalar leaf, cap, levels, pool, p, gap, rest, shallow, fits, stops => by
    obtain ⟨levels, rfl⟩ := Nat.exists_eq_add_one.mpr shallow
    obtain ⟨ch, tail, shape, visible, _, notObject, notArray⟩ := scalar_head leaf
    have parsed := parseScalar_print pool (p + gap.bytes.length) leaf shape stops
    rw [JsonValue.nodes, JsonValue.node_linked]
    rw [JsonValue.print, shape, List.cons_append]
    rw [shape, List.cons_append] at parsed
    apply parseValue_head fits p gap visible
    rw [parseNode, if_neg notObject, if_neg notArray]
    exact parsed
  | .empty obj inner, cap, levels, pool, p, gap, rest, shallow, fits, _ => by
    obtain ⟨levels, rfl⟩ := Nat.exists_eq_add_one.mpr shallow
    rw [JsonValue.nodes, JsonValue.node_linked]
    simp only [JsonValue.print, List.cons_append, List.append_assoc,
      List.nil_append, List.length_cons, List.length_append,
      List.length_nil, Nat.zero_add]
    apply parseValue_head fits p gap (by cases obj <;> decide)
    have inside := parseInside_empty (parseValue cap levels) obj
      pool.length (pool ++ [freshNode]) (p + gap.bytes.length + 1) inner rest
    rw [show p + gap.bytes.length + 1 + inner.bytes.length + 1 =
      p + gap.bytes.length + (inner.bytes.length + 2) by omega] at inside
    rw [parseNode_bracket, parseContainer_node inside, modify_freshNode]
    rfl
  | .container obj children, cap, levels, pool, p, gap, rest, shallow, fits,
      _ => by
      obtain ⟨levels, rfl⟩ := Nat.exists_eq_add_one.mpr
        (Nat.lt_of_lt_of_le (Nat.succ_pos children.depth) shallow)
      simp only [JsonValue.depth, JsonValue.size] at shallow fits
      simp only [JsonValue.print, List.cons_append, List.append_assoc,
        List.nil_append, List.length_cons, List.length_append,
        List.length_nil, Nat.zero_add]
      apply parseValue_head (by omega) p gap (by cases obj <;> decide)
      have deep : 0 < levels := by
        have := children.depth_pos
        omega
      obtain ⟨lower, rfl⟩ := Nat.exists_eq_add_one.mpr deep
      obtain ⟨fuel, enough, inside⟩ := parseInside_children
        (parseValue_skipWs cap lower) children pool.length
        (pool ++ [freshNode]) (p + gap.bytes.length + 1) rest
      have parsed := parseChildren_print children (pool ++ [freshNode])
        (p + gap.bytes.length + 1) rest (Nat.le_of_succ_le_succ shallow)
        (show (pool ++ [freshNode]).length + children.size ≤ cap by
          simp; omega) enough
        (show pool.length < (pool ++ [freshNode]).length by simp)
        (show 0 < (pool ++ [freshNode]).length by simp)
      rw [inside.symm, hang_freshNode] at parsed
      rw [show p + gap.bytes.length + 1 + children.print.length + 1 =
        p + gap.bytes.length + (children.print.length + 2) by omega] at parsed
      rw [parseNode_bracket, parseContainer_node parsed, List.append_assoc,
        modify_append_length rfl]
      simp [JsonValue.nodes, JsonValue.node, JsonNode.linked, freshNode]

theorem parseChildren_print : {obj : Bool} → (children : JsonChildren obj) →
    {cap levels fuel idx prev : Nat} → (pool : List JsonNode) → (p : Nat) →
    (rest : List UInt8) → children.depth ≤ levels →
    pool.length + children.size ≤ cap → children.count < fuel →
    idx < pool.length → prev < pool.length →
    parseChildren (parseValue cap levels) obj idx fuel prev
        ⟨pool, p, children.print ++ closeOf obj :: rest⟩ = .ok
      ⟨hang pool idx prev pool.length children.count ++
        children.nodes p pool.length, p + children.print.length + 1, rest⟩
  | obj, .last slot value after, cap, levels, fuel, idx, prev, pool, p, rest,
      shallow, fits, enough, parent, before => by
      obtain ⟨fuel, rfl⟩ := Nat.exists_eq_add_one.mpr (Nat.zero_lt_of_lt enough)
      have stops : Stops isNumberByte (after.bytes ++ closeOf obj :: rest) :=
        stops_gap after (by cases obj <;> decide) rest
      have round := parseChildren_child fuel slot value after p
        (fun p gap => parseValue_print value pool p gap shallow fits stops)
        (by cases obj <;> decide) parent before
      have notComma : closeOf obj ≠ comma := by cases obj <;> decide
      simp only [JsonChildren.print, List.append_assoc]
      rw [round]
      simp only [notComma, if_false, if_true, JsonChildren.count,
        JsonChildren.nodes, List.length_append, Nat.add_assoc]
  | obj, .more slot value after others, cap, levels, fuel, idx, prev, pool, p,
      rest, shallow, fits, enough, parent, before => by
      obtain ⟨fuel, rfl⟩ := Nat.exists_eq_add_one.mpr (Nat.zero_lt_of_lt enough)
      simp only [JsonChildren.depth, JsonChildren.size, JsonChildren.count] at shallow fits enough
      have stops : Stops isNumberByte
          (after.bytes ++ comma :: (others.print ++ closeOf obj :: rest)) :=
        stops_gap after (by decide) _
      have round := parseChildren_child fuel slot value after p
        (fun p gap => parseValue_print value pool p gap (Nat.le_trans (Nat.le_max_left ..) shallow)
          (show pool.length + value.size ≤ cap by omega) stops)
        (by decide) parent before
      have others_parsed := parseChildren_print others (hang pool idx prev pool.length 1 ++
          value.nodes (slot.link p 0) (p + slot.print.length) pool.length)
        (p + slot.print.length + value.print.length + after.bytes.length + 1)
        rest (Nat.le_trans (Nat.le_max_right ..) shallow)
        (show _ + others.size ≤ cap by simp [length_hang]; omega)
        (Nat.lt_of_succ_lt_succ enough)
        (show idx < _ by simp [length_hang]; omega)
        (show pool.length < _ by
          have := value.size_pos
          simp [length_hang]; omega)
      simp only [JsonChildren.print, List.append_assoc, List.cons_append]
      rw [round]
      simp only [if_true]
      rw [others_parsed, hang_hang parent]
      simp only [JsonChildren.count, JsonChildren.nodes, List.length_append,
        length_hang, JsonValue.length_nodes, Slot.link_next,
        List.append_assoc, List.length_cons]
      congr 2
      omega

end

end Pro2Call.Json

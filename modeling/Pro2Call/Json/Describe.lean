import Pro2Call.Json.ParseText
import Pro2Call.Json.Read

namespace Pro2Call.Json

open Pro2Call.Data

def nextBy (d : JsonDoc) : Nat → Option JsonNode → Option JsonNode
  | _, none => none
  | 0, some c => some c
  | i + 1, some c => nextBy d i (jsonNext d c)

def jsonAt (d : JsonDoc) (n : JsonNode) (i : Nat) : Option JsonNode :=
  if i ≥ n.count then none else nextBy d i (jsonFirst d n)

/-- The text a node stands for: its raw slice, for a string with the quotes the
slice leaves off. -/
def nodeText (d : JsonDoc) (node : JsonNode) : List UInt8 :=
  if node.type = .str then quote :: (d.bytes node.raw ++ [quote])
  else d.bytes node.raw

def containerType (obj : Bool) : JsonType :=
  if obj then .obj else .arr

def JsonScalar.type : JsonScalar → JsonType
  | .null => .null
  | .bool _ => .bool
  | .num _ => .num
  | .str _ => .str

def JsonScalar.isInt : JsonScalar → Bool
  | .num number => number.isInt
  | _ => false

def JsonScalar.escaped : JsonScalar → Bool
  | .str body => body.escaped
  | _ => false

/-- The key of a member is there byte for byte, that of an element is empty. -/
def Slot.NamedBy (d : JsonDoc) : {obj : Bool} → Slot obj → JsonNode → Prop
  | _, .element _, node => node.key = {} ∧ node.kesc = false
  | _, .member _ key _ _, node =>
    d.bytes node.key = key.print ∧ node.kesc = key.escaped

mutual

/-- The node at `idx` and those behind it are the ones of the value: itself,
then its children with everything below them, one after the other. -/
def Describes (d : JsonDoc) : JsonValue → Nat → Prop
  | .scalar leaf, idx => ∃ node, d.nodes[idx]? = some node ∧
      node.type = leaf.type ∧ node.int = leaf.isInt ∧
        node.esc = leaf.escaped ∧ nodeText d node = leaf.print ∧ node.count = 0 ∧ node.first = 0
  | .empty obj gap, idx => ∃ node, d.nodes[idx]? = some node ∧ node.type = containerType obj ∧
        nodeText d node = (JsonValue.empty obj gap).print ∧ node.count = 0 ∧ node.first = 0
  | .container obj children, idx => ∃ node, d.nodes[idx]? = some node ∧
      node.type = containerType obj ∧ nodeText d node = (JsonValue.container obj children).print ∧
          node.count = children.count ∧ node.first = idx + 1 ∧
            DescribesChildren d children (idx + 1)

def DescribesChildren (d : JsonDoc) : {obj : Bool} → JsonChildren obj → Nat → Prop
  | _, .last slot value _, idx =>
    Describes d value idx ∧ ∃ node, d.nodes[idx]? = some node ∧ slot.NamedBy d node ∧ node.next = 0
  | _, .more slot value _ rest, idx =>
    (Describes d value idx ∧ ∃ node, d.nodes[idx]? = some node ∧
      slot.NamedBy d node ∧ node.next = idx + value.size) ∧
      DescribesChildren d rest (idx + value.size)

end

theorem bytes_append {d : JsonDoc} (front text back : List UInt8)
    (buf : d.buf = front ++ (text ++ back)) :
    d.bytes ⟨front.length, text.length⟩ = text := by
  rw [JsonDoc.bytes, buf, ← List.append_assoc]
  exact slice_append_length front text back

theorem JsonValue.nodes_eq (value : JsonValue) (link : Link) (off idx : Nat) :
    ∃ below, value.nodes link off idx = (value.node off idx).linked link :: below := by
  cases value with
  | scalar leaf => exact ⟨[], rfl⟩
  | empty obj gap => exact ⟨[], rfl⟩
  | container obj children => exact ⟨_, rfl⟩

variable {value : JsonValue} {node : JsonNode}

section

variable {d : JsonDoc}

theorem getElem?_nodes {link : Link}
    (nodes : d.nodes = front ++ (value.nodes link off front.length ++ back)) :
    d.nodes[front.length]? = some ((value.node off front.length).linked link) := by
  obtain ⟨below, shape⟩ := value.nodes_eq link off front.length
  rw [nodes, shape]
  simp

theorem nodeText_scalar (leaf : JsonScalar) (link : Link) (before after : List UInt8)
    (buf : d.buf = before ++ (leaf.print ++ after)) :
    nodeText d ((leaf.node before.length).linked link) = leaf.print := by
  have bytes := bytes_append before leaf.print after buf
  cases leaf with
  | null => exact bytes
  | bool value => cases value <;> exact bytes
  | num number => exact bytes
  | str body =>
    have inner := bytes_append (before ++ [quote]) body.print
      (quote :: after) (show d.buf = _ by simp [buf, JsonScalar.print])
    rw [List.length_append, List.length_singleton] at inner
    have isStr : ((JsonScalar.node before.length (.str body)).linked link).type = .str := rfl
    rw [nodeText, if_pos isStr]
    exact congrArg (fun bytes => quote :: (bytes ++ [quote])) inner

theorem nodeText_container (type : node.type = containerType obj) {text before after : List UInt8}
    (raw : node.raw = ⟨before.length, text.length⟩)
    (buf : d.buf = before ++ (text ++ after)) : nodeText d node = text := by
  have other : node.type ≠ .str := by
    rw [type]
    cases obj <;> decide
  rw [nodeText, if_neg other, raw]
  exact bytes_append before text after buf

theorem namedBy_link (slot : Slot obj) (buf : d.buf = front ++ (slot.print ++ back))
    (node : JsonNode)
    (next : Nat) :
    slot.NamedBy d (node.linked (slot.link front.length next)) := by
  cases slot with
  | element gap => exact ⟨rfl, rfl⟩
  | member before key after gap =>
    refine ⟨?_, rfl⟩
    have place := bytes_append (front ++ before.bytes ++ [quote])
      key.print (quote :: (after.bytes ++ colon :: (gap.bytes ++ back)))
      (show d.buf = _ by simp [buf, Slot.print])
    simpa [Slot.link, JsonNode.linked, Nat.add_assoc] using place

theorem next_linked (slot : Slot obj) (node : JsonNode)
    (off next : Nat) : (node.linked (slot.link off next)).next = next := by
  cases slot <;> rfl

mutual

theorem describes_nodes : (value : JsonValue) → (front back : List JsonNode) → (link : Link) →
    (before after : List UInt8) →
    d.nodes = front ++ (value.nodes link before.length front.length ++ back) →
    d.buf = before ++ (value.print ++ after) →
    Describes d value front.length
  | .scalar leaf, front, back, link, before, after, nodes, buf => by
    refine ⟨_, getElem?_nodes nodes, ?_, ?_, ?_, nodeText_scalar leaf link before after buf, ?_, ?_⟩
    all_goals
      cases leaf with
      | bool value => cases value <;> rfl
      | _ => rfl
  | .empty obj gap, front, back, link, before, after, nodes, buf => by
    refine ⟨_, getElem?_nodes nodes, rfl, ?_, rfl, rfl⟩
    apply nodeText_container rfl _ buf
    simp [JsonValue.node, JsonNode.linked, JsonValue.print]
  | .container obj children, front, back, link, before, after, nodes, buf => by
    refine ⟨_, getElem?_nodes nodes, rfl, ?_, rfl, rfl, ?_⟩
    · apply nodeText_container rfl _ buf
      simp [JsonValue.node, JsonNode.linked, JsonValue.print]
    · let root := ((JsonValue.container obj children).node before.length front.length).linked link
      have inner := describesChildren_nodes children (front ++ [root]) back
        (before ++ [openOf obj]) (closeOf obj :: after)
        (by simpa [JsonValue.nodes] using nodes)
        (by simpa [JsonValue.print] using buf)
      rwa [List.length_append, List.length_singleton] at inner

theorem describesChildren_nodes : {obj : Bool} →
    (children : JsonChildren obj) → (front back : List JsonNode) →
    (before after : List UInt8) →
    d.nodes = front ++ (children.nodes before.length front.length ++ back) →
    d.buf = before ++ (children.print ++ after) →
    DescribesChildren d children front.length
  | _, .last slot value gap, front, back, before, after, nodes, buf => by
    simp only [JsonChildren.nodes] at nodes
    simp only [JsonChildren.print, List.append_assoc] at buf
    refine ⟨?_, _, getElem?_nodes nodes, namedBy_link slot buf _ 0, next_linked slot _ _ _⟩
    rw [← List.length_append] at nodes
    exact describes_nodes value front back _ (before ++ slot.print)
      (gap.bytes ++ after) nodes (by rw [buf, List.append_assoc])
  | _, .more slot value gap rest, front, back, before, after, nodes, buf => by
    simp only [JsonChildren.nodes, List.append_assoc] at nodes
    simp only [JsonChildren.print, List.append_assoc, List.cons_append] at buf
    refine ⟨⟨?_, _, getElem?_nodes nodes, namedBy_link slot buf _ _, next_linked slot _ _ _⟩, ?_⟩
    · rw [← List.length_append] at nodes
      exact describes_nodes value front _ _ (before ++ slot.print) _ nodes
        (by rw [buf, List.append_assoc])
    · let own := value.nodes (slot.link before.length
        (front.length + value.size)) (before.length + slot.print.length)
        front.length
      have length : (front ++ own).length = front.length + value.size := by
        rw [List.length_append, value.length_nodes]
      have place : (before ++ slot.print ++ value.print ++ gap.bytes ++
          [comma]).length = before.length + slot.print.length +
            value.print.length + gap.bytes.length + 1 := by
        simp only [List.length_append, List.length_singleton]
      rw [← length]
      apply describesChildren_nodes rest (front ++ own) back
        (before ++ slot.print ++ value.print ++ gap.bytes ++ [comma]) after
      · rw [nodes, place, length, List.append_assoc]
      · rw [buf]
        simp

end

end

mutual

def JsonValue.sub : JsonValue → Nat → Option JsonValue
  | value, 0 => some value
  | .container _ children, i + 1 => children.sub i
  | .scalar _, _ + 1 => none
  | .empty _ _, _ + 1 => none

def JsonChildren.sub : {obj : Bool} → JsonChildren obj → Nat → Option JsonValue
  | _, .last _ value _, i => value.sub i
  | _, .more _ value _ rest, i =>
    if i < value.size then value.sub i else rest.sub (i - value.size)

end

mutual

theorem JsonValue.exists_sub : (value : JsonValue) → (i : Nat) →
    i < value.size → ∃ inner, value.sub i = some inner
  | .scalar _, 0, _ => ⟨_, rfl⟩
  | .empty _ _, 0, _ => ⟨_, rfl⟩
  | .container _ _, 0, _ => ⟨_, rfl⟩
  | .container _ children, i + 1, inside =>
    children.exists_sub i (Nat.lt_of_succ_lt_succ inside)

theorem JsonChildren.exists_sub : {obj : Bool} →
    (children : JsonChildren obj) → (i : Nat) → i < children.size →
    ∃ inner, children.sub i = some inner
  | _, .last _ value _, i, inside => value.exists_sub i inside
  | _, .more _ value _ rest, i, inside => by
    rw [JsonChildren.sub]
    split
    · rename_i own
      exact value.exists_sub i own
    · apply rest.exists_sub
      simp only [JsonChildren.size] at inside
      omega

end

mutual

theorem JsonValue.sub_le : (value : JsonValue) → {i : Nat} →
    {inner : JsonValue} → value.sub i = some inner →
    inner.depth ≤ value.depth ∧ inner.print.length ≤ value.print.length
  | .scalar _, 0, _, found => by
    cases found
    exact ⟨Nat.le_refl _, Nat.le_refl _⟩
  | .empty _ _, 0, _, found => by
    cases found
    exact ⟨Nat.le_refl _, Nat.le_refl _⟩
  | .container _ _, 0, _, found => by
    cases found
    exact ⟨Nat.le_refl _, Nat.le_refl _⟩
  | .container _ children, i + 1, _, found => by
    obtain ⟨depth, length⟩ := children.sub_le found
    refine ⟨Nat.le_succ_of_le depth, ?_⟩
    simp only [JsonValue.print, List.length_cons, List.length_append]
    omega

theorem JsonChildren.sub_le : {obj : Bool} → (children : JsonChildren obj) →
    {i : Nat} → {inner : JsonValue} → children.sub i = some inner →
    inner.depth ≤ children.depth ∧ inner.print.length ≤ children.print.length
  | _, .last _ value _, _, _, found => by
    obtain ⟨depth, length⟩ := value.sub_le found
    refine ⟨depth, ?_⟩
    simp only [JsonChildren.print, List.length_append]
    omega
  | _, .more _ value _ rest, _, _, found => by
    simp only [JsonChildren.depth, JsonChildren.print, List.length_append, List.length_cons]
    rw [JsonChildren.sub] at found
    split at found
    · obtain ⟨depth, length⟩ := value.sub_le found
      omega
    · obtain ⟨depth, length⟩ := rest.sub_le found
      omega

end

section

variable {d : JsonDoc}

mutual

theorem Describes.sub : (value : JsonValue) → {idx i : Nat} →
    {inner : JsonValue} → Describes d value idx →
    value.sub i = some inner → Describes d inner (idx + i)
  | .scalar _, _, 0, _, described, found => by
    cases found
    exact described
  | .empty _ _, _, 0, _, described, found => by
    cases found
    exact described
  | .container _ _, _, 0, _, described, found => by
    cases found
    exact described
  | .container _ children, idx, i + 1, _, described, found => by
    obtain ⟨_, _, _, _, _, _, below⟩ := described
    have inner := DescribesChildren.sub children below found
    rwa [Nat.add_assoc, Nat.add_comm 1 i] at inner

theorem DescribesChildren.sub : {obj : Bool} → (children : JsonChildren obj) →
    {idx i : Nat} → {inner : JsonValue} →
    DescribesChildren d children idx → children.sub i = some inner →
    Describes d inner (idx + i)
  | _, .last _ value _, _, _, _, described, found =>
    Describes.sub value described.1 found
  | _, .more _ value _ rest, idx, i, _, described, found => by
    rw [JsonChildren.sub] at found
    split at found
    · exact Describes.sub value described.1.1 found
    · rename_i later
      have inner := DescribesChildren.sub rest described.2 found
      rwa [Nat.add_assoc, Nat.add_sub_cancel' (Nat.not_lt.mp later)] at inner

end

inductive Walk (d : JsonDoc) : Nat → List Nat → Prop
  | done : Walk d 0 []
  | step {i : Nat} {node : JsonNode} {rest : List Nat} (present : i ≠ 0)
      (found : d.nodes[i]? = some node) (later : Walk d node.next rest) :
      Walk d i (i :: rest)

end

def JsonChildren.places : {obj : Bool} → JsonChildren obj → Nat → List Nat
  | _, .last _ _ _, idx => [idx]
  | _, .more _ value _ rest, idx => idx :: rest.places (idx + value.size)

def JsonValue.places : JsonValue → Nat → List Nat
  | .container _ children, idx => children.places (idx + 1)
  | _, _ => []

theorem JsonChildren.length_places : {obj : Bool} → (children : JsonChildren obj) → (idx : Nat) →
    (children.places idx).length = children.count
  | _, .last _ _ _, _ => rfl
  | _, .more _ value _ rest, idx =>
    congrArg (· + 1) (rest.length_places (idx + value.size))

theorem JsonChildren.le_places : {obj : Bool} → (children : JsonChildren obj) → (idx : Nat) →
    ∀ place ∈ children.places idx, idx ≤ place
  | _, .last _ _ _, idx, place, member => by
    rw [List.mem_singleton.mp member]
  | _, .more _ value _ rest, idx, place, member => by
    rcases List.mem_cons.mp member with rfl | member
    · exact Nat.le_refl _
    · have later := rest.le_places (idx + value.size) place member
      omega

theorem JsonChildren.places_increasing : {obj : Bool} →
    (children : JsonChildren obj) → (idx : Nat) →
    (children.places idx).Pairwise (· < ·)
  | _, .last _ _ _, _ => List.pairwise_singleton ..
  | _, .more _ value _ rest, idx => by
    refine List.pairwise_cons.mpr ⟨?_, rest.places_increasing _⟩
    intro place member
    have later := rest.le_places (idx + value.size) place member
    have filled := value.size_pos
    omega

section

variable {d : JsonDoc}

theorem DescribesChildren.walk : {obj : Bool} → (children : JsonChildren obj) →
    {idx : Nat} → DescribesChildren d children idx → idx ≠ 0 →
    Walk d idx (children.places idx)
  | _, .last _ _ _, _, described, present => by
    obtain ⟨_, node, found, _, next⟩ := described
    exact .step present found (next ▸ .done)
  | _, .more _ value _ rest, idx, described, present => by
    obtain ⟨⟨_, node, found, _, next⟩, later⟩ := described
    refine .step present found ?_
    rw [next]
    exact DescribesChildren.walk rest later (by omega)

theorem Walk.follow {places : List Nat} (walk : Walk d i places) :
    d.follow i = places[0]?.bind fun place => d.nodes[place]? := by
  cases walk with
  | done => rfl
  | step present found later =>
    have inside := (List.getElem?_eq_some_iff.mp found).1
    rw [JsonDoc.follow, if_neg (by
      rintro (zero | outside)
      · exact present zero
      · exact absurd inside (Nat.not_lt.mpr outside))]
    rfl

theorem Walk.nextBy {places : List Nat} (walk : Walk d i places) (k : Nat) :
    nextBy d k (d.follow i) = places[k]?.bind fun place => d.nodes[place]? := by
  induction k generalizing i places with
  | zero =>
    rw [walk.follow]
    cases places[0]?.bind fun place => d.nodes[place]? <;> rfl
  | succ k ih =>
    have first := walk.follow
    cases walk with
    | done =>
      rw [first]
      rfl
    | step present found later =>
      rw [first]
      simp only [List.getElem?_cons_zero, Option.bind_some, found,
        Json.nextBy, jsonNext, List.getElem?_cons_succ]
      exact ih later

end

structure Visits (d : JsonDoc) (value : JsonValue) (idx : Nat) (node : JsonNode) : Prop where
  walk : Walk d node.first (value.places idx)
  count : (value.places idx).length = node.count
  increasing : (value.places idx).Pairwise (· < ·)
  jsonAt : ∀ i, jsonAt d node i = (value.places idx)[i]?.bind fun place => d.nodes[place]?

theorem visits_of_walk {d : JsonDoc} (walk : Walk d node.first (value.places idx))
    (count : (value.places idx).length = node.count)
    (increasing : (value.places idx).Pairwise (· < ·)) :
    Visits d value idx node := by
  refine ⟨walk, count, increasing, ?_⟩
  intro i
  rw [jsonAt]
  split
  · rename_i past
    rw [List.getElem?_eq_none (by omega)]
    rfl
  · exact walk.nextBy i

theorem Describes.visits {d : JsonDoc} (described : Describes d value idx)
    (found : d.nodes[idx]? = some node) : Visits d value idx node := by
  cases value with
  | scalar leaf =>
    obtain ⟨_, same, _, _, _, _, count, first⟩ := described
    cases found.symm.trans same
    exact visits_of_walk (first ▸ .done) count.symm .nil
  | empty obj gap =>
    obtain ⟨_, same, _, _, count, first⟩ := described
    cases found.symm.trans same
    exact visits_of_walk (first ▸ .done) count.symm .nil
  | container obj children =>
    obtain ⟨_, same, _, _, count, first, below⟩ := described
    cases found.symm.trans same
    apply visits_of_walk
    · rw [first]
      exact DescribesChildren.walk children below (by omega)
    · rw [count]
      exact children.length_places (idx + 1)
    · exact children.places_increasing (idx + 1)

theorem Describes.nodeText {d : JsonDoc} (described : Describes d value idx)
    (found : d.nodes[idx]? = some node) :
    nodeText d node = value.print := by
  cases value with
  | scalar leaf =>
    obtain ⟨_, same, _, _, _, text, _⟩ := described
    cases found.symm.trans same
    exact text
  | empty obj gap | container obj children =>
    obtain ⟨_, same, _, text, _⟩ := described
    cases found.symm.trans same
    exact text

theorem jsonParse_alone {d : JsonDoc} (short : value.print.length ≤ intMax)
    (shallow : value.depth ≤ jsonMaxDepth) (fits : value.size ≤ d.cap) :
    ∃ after, jsonParse d value.print = some (after, none) ∧
      after.count = value.size ∧ Describes after value 0 := by
  have bare : value.print = [] ++ (Ws.none.bytes ++ (value.print ++ Ws.none.bytes)) := by
    simp [Ws.none]
  have parsed := jsonParse_print (.inl rfl) Ws.none Ws.none
    (by rw [← bare]; exact short) shallow fits
  rw [← bare] at parsed
  refine ⟨_, parsed, ?_, ?_⟩
  · exact value.length_nodes _ _ _
  · exact describes_nodes value [] [] {} [] [] (by simp [Ws.none]) (by simp)

structure Faithful (d : JsonDoc) (value : JsonValue) (idx : Nat) (node : JsonNode) : Prop where
  described : Describes d value idx
  visits : Visits d value idx node
  reparses : ∀ fresh : JsonDoc, value.size ≤ fresh.cap →
    ∃ again, jsonParse fresh (nodeText d node) = some (again, none) ∧
      again.count = value.size ∧ Describes again value 0

theorem Describes.leaf {d : JsonDoc} {value : JsonValue} {node : JsonNode}
    (described : Describes d value idx) (found : d.nodes[idx]? = some node)
    (noObj : node.type ≠ .obj) (noArr : node.type ≠ .arr) :
    ∃ leaf : JsonScalar, node.type = leaf.type ∧ node.int = leaf.isInt ∧
      node.esc = leaf.escaped ∧ Json.nodeText d node = leaf.print := by
  cases value with
  | scalar leaf =>
    obtain ⟨_, same, type, int, esc, text, _⟩ := described
    cases found.symm.trans same
    exact ⟨leaf, type, int, esc, text⟩
  | empty obj gap | container obj children =>
    obtain ⟨_, same, type, _⟩ := described
    cases found.symm.trans same
    cases obj with
    | true => exact absurd type noObj
    | false => exact absurd type noArr

theorem exists_idx_of_mem {d : JsonDoc} {value : JsonValue} {node : JsonNode}
    (nodes : d.nodes = value.nodes {} off 0) (member : node ∈ d.nodes) :
    ∃ idx < value.size, d.nodes[idx]? = some node := by
  obtain ⟨idx, found⟩ := List.mem_iff_getElem?.mp member
  have bound := (List.getElem?_eq_some_iff.mp found).1
  rw [nodes, value.length_nodes] at bound
  exact ⟨idx, bound, found⟩

theorem jsonParse_layout {d after : JsonDoc} (accepted : jsonParse d buf = some (after, none)) :
    ∃ value, JsonText buf value ∧ buf.length ≤ intMax ∧ value.depth ≤ jsonMaxDepth ∧
      (∃ off, after.nodes = value.nodes {} off 0) ∧ Describes after value 0 := by
  have room : 0 < d.cap ∧ buf.length ≤ intMax := by
    by_contra improper
    rw [jsonParse, if_pos (by omega)] at accepted
    cases accepted
  obtain ⟨_, _, same, reached, _⟩ := jsonParse_returns room.1 room.2
  cases accepted.symm.trans same
  obtain ⟨value, text, shallow, fits⟩ := reached rfl
  refine ⟨value, text, room.2, shallow, ?_⟩
  have short := room.2
  obtain ⟨mark, before, behind, marked, rfl⟩ := text
  rw [jsonParse_print marked before behind short shallow fits] at accepted
  cases accepted
  refine ⟨⟨_, rfl⟩, ?_⟩
  exact describes_nodes value [] [] {} (mark ++ before.bytes) behind.bytes (by simp) (by simp)

theorem Describes.inner {d : JsonDoc} {value : JsonValue} (root : Describes d value 0)
    (inside : idx < value.size) :
    ∃ inner, value.sub idx = some inner ∧ Describes d inner idx := by
  obtain ⟨inner, isInner⟩ := value.exists_sub idx inside
  have described := Describes.sub value root isInner
  rw [Nat.zero_add] at described
  exact ⟨inner, isInner, described⟩

theorem jsonParse_describes (d : JsonDoc) (buf : List UInt8) (after : JsonDoc)
    (accepted : jsonParse d buf = some (after, none)) :
    ∃ value, JsonText buf value ∧ after.count = value.size ∧
      ∀ idx node, after.nodes[idx]? = some node → ∃ inner, value.sub idx = some inner ∧
          Faithful after inner idx node := by
  obtain ⟨value, text, short, shallow, ⟨off, nodes⟩, root⟩ := jsonParse_layout accepted
  have count : after.count = value.size := by
    rw [JsonDoc.count, nodes, value.length_nodes]
  refine ⟨value, text, count, ?_⟩
  intro idx node found
  have bound : idx < after.count := (List.getElem?_eq_some_iff.mp found).1
  obtain ⟨inner, isInner, described⟩ := root.inner (count ▸ bound)
  obtain ⟨depth, length⟩ := value.sub_le isInner
  refine ⟨inner, isInner, described, described.visits found, ?_⟩
  intro fresh large
  rw [described.nodeText found]
  obtain ⟨mark, before, behind, -, rfl⟩ := text
  simp only [List.length_append] at short
  exact jsonParse_alone (by omega) (by omega) large

def nestedText : List UInt8 :=
  [0x7B, 0x22, 0x61, 0x22, 0x3A, 0x5B, 0x31, 0x2C, 0x22, 0x78, 0x22, 0x5D, 0x7D]

theorem jsonParse_describes_nested :
    ∃ after value, jsonParse (jsonDocInit 8) nestedText = some (after, none) ∧
      JsonText nestedText value ∧ after.count = 4 ∧ value.size = 4 ∧
        ∀ idx node, after.nodes[idx]? = some node → ∃ inner, value.sub idx = some inner ∧
            Faithful after inner idx node := by
  have facts : (jsonParse (jsonDocInit 8) nestedText).map
      (fun result => (result.1.count, result.2)) = some (4, none) := by
    decide
  obtain ⟨⟨after, rc⟩, parsed, same⟩ := Option.map_eq_some_iff.mp facts
  obtain ⟨count, rfl⟩ := Prod.mk.inj same
  obtain ⟨value, text, size, faithful⟩ :=
    jsonParse_describes (jsonDocInit 8) nestedText after parsed
  exact ⟨after, value, parsed, text, count, size.symm.trans count, faithful⟩

theorem jsonParse_refuses_raw_string :
    (jsonParse (jsonDocInit 2) [0x22, 0x61, 0x22]).map (fun result =>
        (result.2, result.1.nodes[0]?.bind fun node =>
          (jsonParse (jsonDocInit 2) (result.1.bytes node.raw)).map Prod.snd)) =
      some (none, some (some .eSyntax)) := by
  decide

end Pro2Call.Json

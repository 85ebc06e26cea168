import Pro2Call.Json.ParseText

namespace Pro2Call.Json

open Pro2Call.Data

/-! Where the parser gets to on any text, well formed or not: the values it
comes to begin, and how it fails there when the nesting bound or the pool is
used up. -/

structure Sibling (obj : Bool) where
  slot : Slot obj
  value : JsonValue
  after : Ws

section

variable {obj : Bool}

def Sibling.print (sibling : Sibling obj) : List UInt8 :=
  sibling.slot.print ++ (sibling.value.print ++ (sibling.after.bytes ++ [comma]))

def printSiblings (before : List (Sibling obj)) : List UInt8 := before.flatMap Sibling.print

def sizes (values : List JsonValue) : Nat := (values.map JsonValue.size).sum

def values (before : List (Sibling obj)) : List JsonValue := before.map Sibling.value

@[simp] theorem printSiblings_nil : printSiblings ([] : List (Sibling obj)) = [] := rfl

@[simp] theorem printSiblings_cons (sibling : Sibling obj) (before : List (Sibling obj)) :
    printSiblings (sibling :: before) = sibling.print ++ printSiblings before := rfl

@[simp] theorem sizes_nil : sizes [] = 0 := rfl

@[simp] theorem sizes_cons (value : JsonValue) (others : List JsonValue) :
    sizes (value :: others) = value.size + sizes others := by
  simp [sizes]

theorem length_le_printSiblings (before : List (Sibling obj)) :
    before.length ≤ (printSiblings before).length := by
  induction before with
  | nil => exact Nat.le_refl 0
  | cons sibling before ih =>
    simp only [printSiblings_cons, Sibling.print, List.length_append,
      List.length_cons, List.length_nil]
    omega

end

/-- On `text` the parser, with `levels` levels of nesting to go, comes to begin
a value with `left` levels to go, having begun `begun` values before it. The
containers around that value are open, and their children before it are
values of the grammar. -/
inductive Arrives : Nat → List UInt8 → Nat → Nat → Prop
  | here {levels : Nat} {ch : UInt8} {tail : List UInt8}
      (visible : jsonIsWs ch = false) : Arrives levels (ch :: tail) levels 0
  | inside {levels left begun : Nat} {obj : Bool}
      (before : List (Sibling obj)) (slot : Slot obj) {text : List UInt8}
      (shallow : ∀ value ∈ values before, value.depth ≤ levels)
      (starts : before = [] → obj = false → text.head? ≠ some (closeOf false))
      (inner : Arrives levels text left begun) :
      Arrives (levels + 1) (openOf obj :: (printSiblings before ++ (slot.print ++ text))) left
        (begun + sizes (values before) + 1)

theorem Arrives.head {levels left begun : Nat} {text : List UInt8}
    (arrives : Arrives levels text left begun) :
    ∃ ch tail, text = ch :: tail ∧ jsonIsWs ch = false := by
  cases arrives with
  | here visible => exact ⟨_, _, rfl, visible⟩
  | inside before slot shallow starts inner =>
    rename_i obj _
    exact ⟨openOf obj, _, rfl, by cases obj <;> decide⟩

def Fails {α : Type} (rc : JsonErr) (outcome : Except Stop α) : Prop :=
  ∃ p, outcome = .error (.fail rc p)

theorem Fails.bind {outcome : Except Stop α} (fails : Fails rc outcome) (next : α → Except Stop β) :
    Fails rc (outcome >>= next) := by
  obtain ⟨p, rfl⟩ := fails
  exact ⟨p, rfl⟩

def Slot.lead : {obj : Bool} → Slot obj → Ws
  | _, .element gap => gap
  | _, .member before _ _ _ => before

def Slot.flush : {obj : Bool} → Slot obj → Slot obj
  | _, .element _ => .element Ws.none
  | _, .member _ key after gap => .member Ws.none key after gap

theorem Slot.print_flush {obj : Bool} (slot : Slot obj) :
    slot.print = slot.lead.bytes ++ slot.flush.print := by
  cases slot <;> simp [Slot.lead, Slot.flush, Slot.print, Ws.none]

variable {ch : UInt8} {pool : List JsonNode}

theorem Slot.flush_head {obj : Bool} (slot : Slot obj)
    (tail : List UInt8) (visible : jsonIsWs ch = false)
    (starts : obj = false → ch ≠ closeOf false) :
    ∃ first rest, slot.flush.print ++ ch :: tail = first :: rest ∧
      jsonIsWs first = false ∧ first ≠ closeOf obj := by
  cases slot with
  | element gap => exact ⟨ch, tail, rfl, visible, starts rfl⟩
  | member before key after gap =>
    exact ⟨quote, _, rfl, by decide, by decide⟩

section

variable (parse : Pctx → Except Stop (Pctx × Nat)) {obj : Bool}

theorem parseInside_flush (slot : Slot obj) (tail : List UInt8)
    (visible : jsonIsWs ch = false) (starts : obj = false → ch ≠ closeOf false)
    (idx : Nat) (pool : List JsonNode) (p : Nat) :
    parseInside parse obj idx ⟨pool, p, slot.print ++ ch :: tail⟩ =
      parseChildren parse obj idx ((slot.flush.print ++ ch :: tail).length + 1)
        0 ⟨pool, p + slot.lead.bytes.length, slot.flush.print ++ ch :: tail⟩ := by
  obtain ⟨first, rest, shape, firstVisible, notClose⟩ := slot.flush_head tail visible starts
  have skipped := skipWs_append pool p slot.lead (show Stops jsonIsWs (first :: rest) from
      (stops_cons ..).mpr firstVisible)
  rw [slot.print_flush, List.append_assoc, shape]
  simp only [parseInside, skipped, notClose, if_false]

theorem parseInside_siblings (before : List (Sibling obj)) (slot : Slot obj) (tail : List UInt8)
    (visible : jsonIsWs ch = false)
    (starts : before = [] → obj = false → ch ≠ closeOf false)
    (idx : Nat) (pool : List JsonNode) (p : Nat) :
    ∃ (before' : List (Sibling obj)) (slot' : Slot obj) (p' fuel : Nat),
      values before' = values before ∧ before'.length < fuel ∧ parseInside parse obj idx
            ⟨pool, p, printSiblings before ++ (slot.print ++ ch :: tail)⟩ =
          parseChildren parse obj idx fuel 0 ⟨pool, p', printSiblings before' ++
              (slot'.print ++ ch :: tail)⟩ := by
  cases before with
  | nil =>
    exact ⟨[], slot.flush, _, _, rfl, Nat.succ_pos _,
      parseInside_flush parse slot tail visible (starts rfl) idx pool p⟩
  | cons sibling before =>
    obtain ⟨first, rest, shape, firstVisible, notClose, _⟩ := value_head sibling.value
    let back := rest ++ (sibling.after.bytes ++ comma ::
      (printSiblings before ++ (slot.print ++ ch :: tail)))
    have begun := parseInside_flush parse sibling.slot back firstVisible
      (fun _ => notClose) idx pool p
    refine ⟨⟨sibling.slot.flush, sibling.value, sibling.after⟩ :: before,
      slot, p + sibling.slot.lead.bytes.length,
      (sibling.slot.flush.print ++ first :: back).length + 1, rfl, ?_, ?_⟩
    · have long := length_le_printSiblings before
      simp only [back, List.length_append, List.length_cons]
      omega
    · simpa [Sibling.print, shape, back] using begun

theorem parseChildren_fails (slot : Slot obj) {text : List UInt8} (p : Nat)
    (fails : ∀ (p : Nat) (gap : Ws), Fails rc (parse ⟨pool, p, gap.bytes ++ text⟩)) :
    Fails rc (parseChildren parse obj idx (fuel + 1) prev ⟨pool, p, slot.print ++ text⟩) := by
  obtain ⟨used, gap, _, keyed⟩ := parseKey_print pool p slot text
  obtain ⟨q, failed⟩ := fails (p + used) gap
  refine ⟨q, ?_⟩
  simp only [parseChildren, keyed, bind, Except.bind, failed]

end

section

variable {cap levels : Nat} {obj : Bool}

theorem parseChildren_sibling (fuel : Nat) (sibling : Sibling obj) (rest : List UInt8) (p : Nat)
    (shallow : sibling.value.depth ≤ levels)
    (fits : pool.length + sibling.value.size ≤ cap)
    (parent : idx < pool.length) (previous : prev < pool.length) :
    ∃ (pool' : List JsonNode) (prev' p' : Nat),
      pool'.length = pool.length + sibling.value.size ∧ prev' < pool'.length ∧
        parseChildren (parseValue cap levels) obj idx (fuel + 1) prev
            ⟨pool, p, sibling.print ++ rest⟩ =
          parseChildren (parseValue cap levels) obj idx fuel prev' ⟨pool', p', rest⟩ := by
  have stops : Stops isNumberByte (sibling.after.bytes ++ comma :: rest) :=
    stops_gap sibling.after (by decide) rest
  have round := parseChildren_child fuel sibling.slot sibling.value sibling.after p
    (fun p gap => parseValue_print sibling.value pool p gap shallow fits stops)
    (by decide) parent previous
  simp only [if_true] at round
  refine ⟨hang pool idx prev pool.length 1 ++ sibling.value.nodes
      (sibling.slot.link p 0) (p + sibling.slot.print.length) pool.length,
    pool.length, p + sibling.slot.print.length + sibling.value.print.length +
      sibling.after.bytes.length + 1, ?_, ?_, ?_⟩
  · simp [length_hang]
  · have := sibling.value.size_pos
    simp [length_hang]
    omega
  · simp only [Sibling.print, List.append_assoc, List.cons_append, List.nil_append]
    exact round

end

theorem parseValue_visible {cap levels : Nat} (p : Nat) (gap : Ws) (visible : jsonIsWs ch = false)
    (tail : List UInt8) :
    parseValue cap (levels + 1) ⟨pool, p, gap.bytes ++ ch :: tail⟩ =
      if pool.length ≥ cap then
        .error (.fail .eNodes (p + gap.bytes.length))
      else
        parseNode (parseValue cap levels) ch pool.length
            ⟨pool ++ [freshNode], p + gap.bytes.length, ch :: tail⟩ >>=
          fun c => .ok (c, pool.length) := by
  have skipped := skipWs_append pool p gap
    (show Stops jsonIsWs (ch :: tail) from (stops_cons ..).mpr visible)
  simp only [parseValue, skipped, allocNode]
  split <;> rfl

theorem parseContainer_fails {cap levels : Nat} {obj : Bool} {before : List (Sibling obj)}
    {slot : Slot obj}
    {tail : List UInt8} (p : Nat)
    (visible : jsonIsWs ch = false)
    (starts : before = [] → obj = false → ch ≠ closeOf false)
    (fails : ∀ (before' : List (Sibling obj)) (slot' : Slot obj) (p fuel : Nat),
      values before' = values before → before'.length < fuel →
      Fails rc (parseChildren (parseValue cap levels) obj pool.length fuel 0
        ⟨pool ++ [freshNode], p, printSiblings before' ++ (slot'.print ++ ch :: tail)⟩)) :
    Fails rc (parseNode (parseValue cap levels) (openOf obj) pool.length
      ⟨pool ++ [freshNode], p, openOf obj ::
        (printSiblings before ++ (slot.print ++ ch :: tail))⟩) := by
  rw [parseNode_bracket, parseContainer]
  apply Fails.bind
  simp only [List.tail_cons, moveTo_cons]
  obtain ⟨before', slot', p', fuel, same, enough, inside⟩ :=
    parseInside_siblings (parseValue cap levels) before slot tail
      visible starts pool.length (pool ++ [freshNode]) (p + 1)
  rw [inside]
  exact fails before' slot' p' fuel same enough

def ArrivesAmong (levels : Nat) (obj : Bool) (text : List UInt8) (left begun : Nat) : Prop :=
  ∃ (before : List (Sibling obj)) (slot : Slot obj) (inner : List UInt8) (first : Nat),
    text = printSiblings before ++ (slot.print ++ inner) ∧
      (∀ value ∈ values before, value.depth ≤ levels) ∧ inner.head? ≠ some (closeOf false) ∧
          begun = first + sizes (values before) ∧ Arrives levels inner left first

section

variable {levels left begun : Nat} {obj : Bool} {text : List UInt8}

theorem ArrivesAmong.inside (arrives : ArrivesAmong levels obj text left begun) :
    Arrives (levels + 1) (openOf obj :: text) left (begun + 1) := by
  obtain ⟨before, slot, inner, first, rfl, shallow, starts, rfl, arrives⟩ := arrives
  exact .inside before slot shallow (fun _ _ => starts) arrives

theorem Arrives.among (slot : Slot obj) {value : JsonValue}
    (arrives : Arrives levels (value.print ++ rest) left begun) :
    ArrivesAmong levels obj (slot.print ++ (value.print ++ rest)) left begun := by
  obtain ⟨ch, tail, shape, _, notClose, _⟩ := value_head value
  refine ⟨[], slot, value.print ++ rest, begun, rfl, by simp [values], ?_, rfl, arrives⟩
  rw [shape]
  simpa using notClose

theorem ArrivesAmong.later (sibling : Sibling obj) (shallow : sibling.value.depth ≤ levels)
    (arrives : ArrivesAmong levels obj text left begun) :
    ArrivesAmong levels obj (sibling.print ++ text) left (begun + sibling.value.size) := by
  obtain ⟨before, slot, inner, first, rfl, others, starts, rfl, arrives⟩ := arrives
  refine ⟨sibling :: before, slot, inner, first, ?_, ?_, starts, ?_, arrives⟩
  · rw [printSiblings_cons, List.append_assoc]
  · simp only [values, List.map_cons, List.forall_mem_cons]
    exact ⟨shallow, others⟩
  · simp only [values, List.map_cons, sizes_cons]
    omega

end

theorem JsonChildren.size_pos {obj : Bool} (children : JsonChildren obj) : 0 < children.size := by
  cases children with
  | last slot value after => exact value.size_pos
  | more slot value after rest => exact Nat.add_pos_left value.size_pos _

mutual

theorem JsonValue.arrives_last : (value : JsonValue) → {levels : Nat} →
    (rest : List UInt8) → value.depth ≤ levels →
    ∃ left, Arrives levels (value.print ++ rest) (left + 1) (value.size - 1)
  | .scalar leaf, levels, rest, shallow => by
    obtain ⟨ch, tail, shape, visible, _⟩ := scalar_head leaf
    obtain ⟨left, rfl⟩ := Nat.exists_eq_add_one.mpr shallow
    refine ⟨left, ?_⟩
    rw [JsonValue.print, shape]
    exact .here visible
  | .empty obj gap, levels, rest, shallow => by
    obtain ⟨left, rfl⟩ := Nat.exists_eq_add_one.mpr shallow
    exact ⟨left, .here (by cases obj <;> decide)⟩
  | .container obj children, levels, rest, shallow => by
    obtain ⟨levels, rfl⟩ := Nat.exists_eq_add_one.mpr
      (Nat.lt_of_lt_of_le (Nat.succ_pos children.depth) shallow)
    obtain ⟨left, arrives⟩ := children.arrives_last (closeOf obj :: rest)
      (Nat.le_of_succ_le_succ shallow)
    refine ⟨left, ?_⟩
    have entered := arrives.inside
    have filled := children.size_pos
    rw [Nat.sub_add_cancel filled] at entered
    simpa [JsonValue.print, JsonValue.size] using entered

theorem JsonChildren.arrives_last : {obj : Bool} →
    (children : JsonChildren obj) → {levels : Nat} → (rest : List UInt8) →
    children.depth ≤ levels →
    ∃ left, ArrivesAmong levels obj (children.print ++ rest) (left + 1) (children.size - 1)
  | _, .last slot value after, levels, rest, shallow => by
    obtain ⟨left, arrives⟩ := value.arrives_last (after.bytes ++ rest) shallow
    refine ⟨left, ?_⟩
    simpa [JsonChildren.print, JsonChildren.size] using arrives.among slot
  | _, .more slot value after others, levels, rest, shallow => by
    obtain ⟨first, later⟩ := Nat.max_le.mp shallow
    obtain ⟨left, arrives⟩ := others.arrives_last rest later
    have next := arrives.later ⟨slot, value, after⟩ first
    have filled := others.size_pos
    have count : others.size - 1 + value.size = value.size + others.size - 1 := by omega
    rw [count] at next
    refine ⟨left, ?_⟩
    simpa [JsonChildren.print, JsonChildren.size, Sibling.print] using next

end

section

variable {cap levels : Nat}

def FailsFull (cap levels : Nat) : Prop :=
  ∀ {text : List UInt8} {left begun : Nat} {pool : List JsonNode} (p : Nat)
    (gap : Ws), Arrives levels text (left + 1) begun →
    cap ≤ pool.length + begun →
    Fails .eNodes (parseValue cap levels ⟨pool, p, gap.bytes ++ text⟩)

theorem FailsFull.value (full : FailsFull cap levels) (value : JsonValue)
    (rest : List UInt8) (shallow : value.depth ≤ levels) (tooMany : cap < pool.length + value.size)
    (p : Nat)
    (gap : Ws) :
    Fails .eNodes (parseValue cap levels ⟨pool, p, gap.bytes ++ (value.print ++ rest)⟩) := by
  obtain ⟨left, arrives⟩ := value.arrives_last rest shallow
  exact full p gap arrives (by omega)

theorem FailsFull.children (full : FailsFull cap levels) {obj : Bool}
    {left begun idx prev fuel : Nat} (before : List (Sibling obj))
    (slot : Slot obj) {text : List UInt8}
    (arrives : Arrives levels text (left + 1) begun)
    (p : Nat) (shallow : ∀ value ∈ values before, value.depth ≤ levels)
    (tooMany : cap ≤ pool.length + (begun + sizes (values before)))
    (enough : before.length < fuel) (parent : idx < pool.length)
    (previous : prev < pool.length) :
    Fails .eNodes (parseChildren (parseValue cap levels) obj idx fuel prev
      ⟨pool, p, printSiblings before ++ (slot.print ++ text)⟩) := by
  induction before generalizing prev fuel pool p with
  | nil =>
    obtain ⟨fuel, rfl⟩ := Nat.exists_eq_add_one.mpr enough
    apply parseChildren_fails _ slot p
    intro p gap
    exact full p gap arrives tooMany
  | cons sibling before ih =>
    obtain ⟨fuel, rfl⟩ := Nat.exists_eq_add_one.mpr (Nat.zero_lt_of_lt enough)
    simp only [values, List.map_cons, List.forall_mem_cons, sizes_cons] at shallow tooMany
    rw [printSiblings_cons, List.append_assoc]
    rcases Nat.lt_or_ge cap (pool.length + sibling.value.size) with full' | fits
    · simp only [Sibling.print, List.append_assoc]
      apply parseChildren_fails _ sibling.slot p
      exact full.value sibling.value _ shallow.1 full'
    · obtain ⟨pool', prev', p', length, previous', round⟩ :=
        parseChildren_sibling fuel sibling
          (printSiblings before ++ (slot.print ++ text)) p shallow.1 fits
          parent previous
      rw [round]
      apply ih p' shallow.2 _ (Nat.lt_of_succ_lt_succ enough) (by omega) previous'
      simp only [values]
      omega

end

theorem failsFull (cap levels : Nat) : FailsFull cap levels := by
  induction levels with
  | zero =>
    intro text left begun pool p gap arrives
    cases arrives
  | succ levels ih =>
    intro text left begun pool p gap arrives tooMany
    cases arrives with
    | here visible =>
      rw [parseValue_visible p gap visible, if_pos (by omega)]
      exact ⟨_, rfl⟩
    | inside before slot shallow starts inner =>
      rename_i begun obj text
      rw [parseValue_visible p gap (by cases obj <;> decide)]
      split
      · exact ⟨_, rfl⟩
      · obtain ⟨ch, tail, rfl, visible⟩ := inner.head
        apply Fails.bind
        apply parseContainer_fails (p + gap.bytes.length) visible
        · intro bare isArray same
          exact starts bare isArray (by rw [same]; rfl)
        · intro before' slot' p' fuel same enough
          have parent : pool.length < (pool ++ [freshNode]).length := by simp
          apply ih.children before' slot' inner p' _ _ enough parent (Nat.zero_lt_of_lt parent)
          · rw [same]
            exact shallow
          · rw [same, List.length_append, List.length_singleton]
            omega

end Pro2Call.Json

import Pro2Call.Json.Arrive

namespace Pro2Call.Json

open Pro2Call.Data

/-! The size of a pool by the length of the text. It is enough for every text
of the grammar, but a text that is refused in the end may use up more nodes
before that: an opening bracket takes one byte and one node. -/

def uint32Max : Nat := 2 ^ 32 - 1

def jsonNodesFor (len : Nat) : Nat :=
  let n := len / 2 + 2
  if n > uint32Max then uint32Max else n

theorem jsonNodesFor_eq (len : Nat) : jsonNodesFor len = min (len / 2 + 2) uint32Max := by
  rw [jsonNodesFor, Nat.min_def]
  split <;> split <;> omega

theorem jsonNodesFor_pos (len : Nat) : 0 < jsonNodesFor len := by
  rw [jsonNodesFor_eq, uint32Max]
  omega

variable {rc : JsonErr} {c : Pctx} {obj : Bool}

theorem not_fails_ok : ¬ Fails rc (Except.ok result : Except Stop α) := by
  rintro ⟨p, same⟩
  cases same

theorem Fails.code (fails : Fails rc (c.fail other : Except Stop α)) : rc = other := by
  obtain ⟨p, same⟩ := fails
  cases same
  rfl

theorem Fails.of_bind {outcome : Except Stop α}
    {next : α → Except Stop β} (fails : Fails rc (outcome >>= next)) :
    Fails rc outcome ∨ ∃ result, outcome = .ok result ∧ Fails rc (next result) := by
  cases outcome with
  | error stop =>
    obtain ⟨p, same⟩ := fails
    cases same
    exact .inl ⟨p, rfl⟩
  | ok result => exact .inr ⟨result, rfl, fails⟩

theorem scanStr_code (fails : Fails rc (scanStr c)) : rc = .eSyntax := by
  simp only [scanStr] at fails
  split at fails
  · exact fails.code
  · exact absurd fails not_fails_ok

theorem scanLit_code (fails : Fails rc (scanLit c lit)) : rc = .eSyntax := by
  simp only [scanLit] at fails
  split at fails
  · exact absurd fails not_fails_ok
  · exact fails.code

theorem scanNum_code (fails : Fails rc (scanNum c)) : rc = .eSyntax := by
  simp only [scanNum] at fails
  split at fails
  · exact fails.code
  · exact absurd fails not_fails_ok

theorem Fails.of_scan {outcome : Except Stop α}
    {next : α → β} (fails : Fails rc (outcome >>= fun a => .ok (next a))) :
    Fails rc outcome := by
  rcases fails.of_bind with first | ⟨_, _, second⟩
  · exact first
  · exact absurd second not_fails_ok

theorem parseScalar_code (fails : Fails rc (parseScalar ch out c)) : rc = .eSyntax := by
  simp only [parseScalar] at fails
  split at fails
  · exact scanStr_code fails.of_scan
  · split at fails
    · exact scanLit_code fails.of_scan
    · split at fails
      · exact scanLit_code fails.of_scan
      · split at fails
        · exact scanLit_code fails.of_scan
        · exact scanNum_code fails.of_scan

theorem parseKey_code (fails : Fails rc (parseKey obj c)) : rc = .eSyntax := by
  simp only [parseKey] at fails
  split at fails
  · split at fails
    · rcases fails.of_bind with scan | ⟨_, _, rest⟩
      · exact scanStr_code scan
      · split at rest
        · exact absurd rest not_fails_ok
        · exact rest.code
    · exact fails.code
  · exact absurd fails not_fails_ok

def FullSound (cap levels : Nat) (parse : Pctx → Except Stop (Pctx × Nat)) : Prop :=
  ∀ c, Fails .eNodes (parse c) → ∃ (gap : Ws) (text : List UInt8) (left begun : Nat),
      c.rest = gap.bytes ++ text ∧ Arrives levels text (left + 1) begun ∧
        cap ≤ c.nodes.length + begun

section

variable {cap levels : Nat} {parse : Pctx → Except Stop (Pctx × Nat)}
  (sound : ValueSound cap levels parse) (full : FullSound cap levels parse)

include sound full

theorem parseChildren_full (fails : Fails .eNodes (parseChildren parse obj idx fuel prev c)) :
    ∃ (before : List (Sibling obj)) (slot : Slot obj) (text : List UInt8) (left begun : Nat),
      c.rest = printSiblings before ++ (slot.print ++ text) ∧
        (∀ value ∈ values before, value.depth ≤ levels) ∧ Arrives levels text (left + 1) begun ∧
            cap ≤ c.nodes.length + (begun + sizes (values before)) := by
  induction fuel generalizing prev c with
  | zero =>
    obtain ⟨p, same⟩ := fails
    cases same
  | succ fuel ih =>
    simp only [parseChildren] at fails
    rcases fails.of_bind with keyFails | ⟨⟨named, key, kesc⟩, keyed, fails⟩
    · cases parseKey_code keyFails
    · rcases fails.of_bind with valueFails | ⟨⟨valued, child⟩, found, fails⟩
      · -- the child itself
        obtain ⟨gap, text, left, begun, ahead, arrives, tooMany⟩ := full named valueFails
        obtain ⟨nodes, slot, shape⟩ := parseKey_sound keyed ahead
        refine ⟨[], slot, text, left, begun, shape, by simp [values], arrives, ?_⟩
        rw [nodes] at tooMany
        exact tooMany
      · -- a later one
        obtain ⟨gap, value, text, shallow, grown, fits⟩ := sound _ _ _ found
        obtain ⟨nodes, slot, shape⟩ := parseKey_sound keyed text
        obtain ⟨behind, skipped⟩ := skipWs_sound (linkChild idx prev child key kesc valued)
        have count : (skipWs (linkChild idx prev child key kesc
            valued)).nodes.length = valued.nodes.length := length_linkChild ..
        rw [rest_linkChild] at skipped
        simp only at fails
        generalize skipWs (linkChild idx prev child key kesc valued) = hung at fails skipped count
        split at fails
        · cases fails.code
        · rename_i ch rest isNext
          split at fails
          · rename_i isComma
            obtain ⟨before, later, place, left, begun, laterShape, others,
              arrives, tooMany⟩ := ih fails
            refine ⟨⟨slot, value, behind⟩ :: before, later, place, left, begun, ?_, ?_, arrives, ?_⟩
            · simp only [Pctx.moveTo] at laterShape
              rw [shape, skipped, isNext, isComma, laterShape]
              simp [Sibling.print]
            · simp only [values, List.map_cons, List.forall_mem_cons]
              exact ⟨shallow, others⟩
            · simp only [Pctx.moveTo, count, grown, nodes] at tooMany
              simp only [values, List.map_cons, sizes_cons] at tooMany ⊢
              omega
          · split at fails
            · exact absurd fails not_fails_ok
            · cases fails.code

end

theorem exists_indented_siblings (gap : Ws)
    (before : List (Sibling obj)) (slot : Slot obj) (text : List UInt8) :
    ∃ (before' : List (Sibling obj)) (slot' : Slot obj),
      printSiblings before' ++ (slot'.print ++ text) =
          gap.bytes ++ (printSiblings before ++ (slot.print ++ text)) ∧
        values before' = values before := by
  cases before with
  | nil => exact ⟨[], slot.indent gap, by simp [Slot.print_indent], rfl⟩
  | cons sibling before =>
    refine ⟨⟨sibling.slot.indent gap, sibling.value, sibling.after⟩ :: before, slot, ?_, rfl⟩
    simp [Sibling.print, Slot.print_indent]

theorem skipWs_head {ch : UInt8} {rest : List UInt8}
    (next : (skipWs c).rest = ch :: rest) : jsonIsWs ch = false := by
  have stops : Stops jsonIsWs (skipWs c).rest := by
    simp only [skipWs, Pctx.moveTo]
    intro first member
    have outside := List.head?_dropWhile_not jsonIsWs c.rest
    rw [Option.mem_def.mp member] at outside
    exact outside
  rw [next] at stops
  exact (stops_cons ..).mp stops

theorem starts_of_head {slot : Slot obj} {text : List UInt8}
    (shape : ch :: rest = slot.print ++ text)
    (visible : jsonIsWs ch = false) (notClose : ch ≠ closeOf obj)
    (isArray : obj = false) : text.head? ≠ some (closeOf false) := by
  subst isArray
  cases slot with
  | element gap =>
    obtain ⟨bytes, blank⟩ := gap
    cases bytes with
    | nil =>
      rw [show text = ch :: rest from shape.symm]
      simpa using notClose
    | cons first bytes =>
      cases shape
      rw [blank ch (List.mem_cons_self ..)] at visible
      cases visible

theorem parseInside_full {cap levels : Nat} {parse : Pctx → Except Stop (Pctx × Nat)}
    (sound : ValueSound cap levels parse) (full : FullSound cap levels parse)
    (fails : Fails .eNodes (parseInside parse obj idx c)) :
    ∃ left begun, Arrives (levels + 1) (openOf obj :: c.rest) (left + 1)
        (begun + 1) ∧ cap ≤ c.nodes.length + begun := by
  obtain ⟨gap, skipped⟩ := skipWs_sound c
  have nodes : (skipWs c).nodes = c.nodes := rfl
  have head := @skipWs_head c
  simp only [parseInside] at fails
  generalize skipWs c = start at fails skipped nodes head
  split at fails
  · cases fails.code
  · rename_i ch rest isNext
    split at fails
    · exact absurd fails not_fails_ok
    · rename_i notClose
      obtain ⟨before, slot, text, left, begun, shape, shallow, arrives, tooMany⟩ :=
        parseChildren_full sound full fails
      obtain ⟨before', slot', indented, same⟩ := exists_indented_siblings gap before slot text
      refine ⟨left, begun + sizes (values before), ?_, ?_⟩
      · rw [skipped, shape, ← indented, ← same]
        apply Arrives.inside before' slot' _ _ arrives
        · rw [same]
          exact shallow
        · intro bare
          have first : before = [] := by
            rw [bare] at same
            exact List.map_eq_nil_iff.mp same.symm
          rw [first, printSiblings_nil, List.nil_append, isNext] at shape
          exact starts_of_head shape (head isNext) notClose
      · rw [nodes] at tooMany
        exact tooMany

theorem parseValue_full (cap levels : Nat) : FullSound cap levels (parseValue cap levels) := by
  induction levels with
  | zero =>
    intro c fails
    cases fails.code
  | succ levels ih =>
    intro c fails
    obtain ⟨gap, skipped⟩ := skipWs_sound c
    have nodes : (skipWs c).nodes = c.nodes := rfl
    have head := @skipWs_head c
    simp only [parseValue] at fails
    generalize skipWs c = start at fails skipped nodes head
    split at fails
    · cases fails.code
    · rename_i ch rest isNext
      rcases fails.of_bind with allocFails | ⟨⟨fresh, idx⟩, allocated, fails⟩
      · simp only [allocNode] at allocFails
        split at allocFails
        · rename_i isFull
          refine ⟨gap, ch :: rest, levels, 0, ?_, .here (head isNext), ?_⟩
          · rw [skipped, isNext]
          · rw [nodes] at isFull
            exact isFull
        · exact absurd allocFails not_fails_ok
      · simp only [allocNode] at allocated
        split at allocated
        · cases allocated
        · cases allocated
          have nodeFails := fails.of_scan
          -- only a container begins further values
          have entered : ∀ obj, ch = openOf obj →
              Fails .eNodes (parseContainer (parseValue cap levels) obj start.nodes.length
                ⟨start.nodes ++ [freshNode], start.p, start.rest⟩) →
              ∃ (gap : Ws) (text : List UInt8) (left begun : Nat), c.rest = gap.bytes ++ text ∧
                  Arrives (levels + 1) text (left + 1) begun ∧ cap ≤ c.nodes.length + begun := by
            intro obj isOpen containerFails
            have inside := containerFails.of_scan
            simp only [isNext, List.tail_cons, moveTo_cons] at inside
            obtain ⟨left, begun, arrives, tooMany⟩ :=
              parseInside_full (parseValue_sound cap levels) ih inside
            refine ⟨gap, openOf obj :: rest, left, begun + 1, ?_, arrives, ?_⟩
            · rw [skipped, isNext, isOpen]
            · simp only [List.length_append, List.length_singleton, nodes] at tooMany
              omega
          simp only [parseNode] at nodeFails
          split at nodeFails
          · rename_i isObject
            exact entered true isObject nodeFails
          · split at nodeFails
            · rename_i isArray
              exact entered false isArray nodeFails
            · cases parseScalar_code nodeFails

def Begins (buf : List UInt8) (begun : Nat) : Prop :=
  ∃ (mark : List UInt8) (before : Ws) (text : List UInt8) (left : Nat),
    (mark = [] ∨ mark = bom) ∧ buf = mark ++ (before.bytes ++ text) ∧
      Arrives jsonMaxDepth text (left + 1) begun

theorem Arrives.not_marked {levels left begun : Nat} {text : List UInt8}
    (arrives : Arrives levels text left begun) (before : Ws)
    (others : 0 < begun) : bom.isPrefixOf (before.bytes ++ text) = false := by
  cases arrives with
  | here visible => cases others
  | inside siblings slot shallow starts inner =>
    rename_i obj _
    obtain ⟨bytes, blank⟩ := before
    cases bytes with
    | nil =>
      have notMark : (0xEF : UInt8) ≠ openOf obj := by cases obj <;> decide
      simp [bom, List.isPrefixOf, notMark]
    | cons first bytes =>
      have notMark : (0xEF : UInt8) ≠ first := by
        rintro rfl
        exact absurd (blank 0xEF (List.mem_cons_self ..)) (by decide)
      simp [bom, List.isPrefixOf, notMark]

theorem jsonParse_nodes {after : JsonDoc} (failed : jsonParse d buf = some (after, some .eNodes)) :
    buf.length ≤ intMax ∧ ∃ begun, Begins buf begun ∧ d.cap ≤ begun := by
  rw [jsonParse] at failed
  split at failed
  · cases failed
  · rename_i proper
    refine ⟨by omega, ?_⟩
    have found : Fails .eNodes (parseDocument d.cap
        ⟨[], if bom.isPrefixOf buf then bom.length else 0,
          buf.drop (if bom.isPrefixOf buf then bom.length else 0)⟩) := by
      simp only at failed
      split at failed
      · cases failed
      · rename_i rc p stopped
        cases failed
        exact ⟨p, stopped⟩
      · cases failed
    have valueFails : Fails .eNodes (parseValue d.cap jsonMaxDepth
        ⟨[], if bom.isPrefixOf buf then bom.length else 0,
          buf.drop (if bom.isPrefixOf buf then bom.length else 0)⟩) := by
      rcases found.of_bind with first | ⟨⟨valued, out⟩, _, second⟩
      · exact first
      · simp only at second
        split at second
        · exact absurd second not_fails_ok
        · cases second.code
    obtain ⟨gap, text, left, begun, shape, arrives, tooMany⟩ := parseValue_full _ _ _ valueFails
    simp only [List.length_nil, Nat.zero_add] at shape tooMany
    refine ⟨begun, ?_, tooMany⟩
    split at shape
    · rename_i isMarked
      obtain ⟨rest, whole⟩ := List.isPrefixOf_iff_prefix.mp isMarked
      refine ⟨bom, gap, text, left, .inr rfl, ?_, arrives⟩
      rw [← whole, List.drop_left] at shape
      rw [← whole, shape]
    · exact ⟨[], gap, text, left, .inl rfl, by simpa using shape, arrives⟩

theorem jsonParse_overfull {d : JsonDoc} {buf : List UInt8} (room : 0 < d.cap)
    (short : buf.length ≤ intMax)
    (begins : Begins buf begun) (tooMany : d.cap ≤ begun) :
    ∃ after, jsonParse d buf = some (after, some .eNodes) := by
  obtain ⟨mark, before, text, left, marked, rfl, arrives⟩ := begins
  have proper : ¬ (d.cap = 0 ∨ (mark ++ (before.bytes ++ text)).length > intMax) := by omega
  have skipped : (if bom.isPrefixOf (mark ++ (before.bytes ++ text))
      then bom.length else 0) = mark.length := by
    rcases marked with rfl | rfl
    · rw [List.nil_append, arrives.not_marked before (by omega)]
      rfl
    · rw [if_pos (by simp)]
  obtain ⟨p, failed⟩ : Fails .eNodes (parseValue d.cap jsonMaxDepth
      ⟨[], mark.length, before.bytes ++ text⟩) :=
    failsFull d.cap jsonMaxDepth mark.length before arrives (by simpa using tooMany)
  rw [jsonParse, if_neg proper]
  simp only [skipped, List.drop_left, parseDocument, failed, bind, Except.bind]
  exact ⟨_, rfl⟩

theorem jsonParse_nodesFor_iff (buf : List UInt8) :
    (∀ d : JsonDoc, d.cap = jsonNodesFor buf.length →
      ∀ after, jsonParse d buf ≠ some (after, some .eNodes)) ↔
      (buf.length ≤ intMax → ∀ begun, Begins buf begun → begun < jsonNodesFor buf.length) := by
  constructor
  · intro never short begun begins
    by_contra tooMany
    obtain ⟨after, failed⟩ := jsonParse_overfull
      (d := jsonDocInit (jsonNodesFor buf.length)) (jsonNodesFor_pos _) short
      begins (Nat.not_lt.mp tooMany)
    exact never _ rfl after failed
  · intro few d sized after failed
    obtain ⟨short, begun, begins, tooMany⟩ := jsonParse_nodes failed
    have bound := few short begun begins
    omega

def fiveOpen : List UInt8 := List.replicate 5 0x5B

theorem jsonParse_fiveOpen_nodes :
    (jsonParse (jsonDocInit (jsonNodesFor fiveOpen.length)) fiveOpen).map
        Prod.snd = some (some .eNodes) ∧
      (jsonParse (jsonDocInit 5) fiveOpen).map Prod.snd = some (some .eSyntax) := by
  decide

end Pro2Call.Json

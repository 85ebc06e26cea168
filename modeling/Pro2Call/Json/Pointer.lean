import Pro2Call.Json.Body

namespace Pro2Call.Json

open Pro2Call.Data

/-! JSON Pointer: the lookup of `json_ptr` and, over the value a text stands for,
what RFC 6901 designates. -/

def slash : UInt8 := 0x2F
def tilde : UInt8 := 0x7E

/-- The loop over the members; no chain of a document is longer than its nodes. -/
def getLoop (d : JsonDoc) (key : List UInt8) : Nat → Option JsonNode → Option JsonNode
  | 0, _ => none
  | _ + 1, none => none
  | fuel + 1, some c =>
    if jsonBodyEq (d.bytes c.key) c.kesc key then some c else getLoop d key fuel (jsonNext d c)

def jsonGet (d : JsonDoc) (n : JsonNode) (key : List UInt8) : Option JsonNode :=
  if n.type ≠ .obj then none else getLoop d key d.count (jsonFirst d n)

def ptrUnescape : List UInt8 → Option (List UInt8)
  | [] => some []
  | c :: rest =>
    if c ≠ tilde then (ptrUnescape rest).map (c :: ·)
    else
      match rest with
      | [] => none
      | e :: rest =>
        if e = 0x30 then (ptrUnescape rest).map (tilde :: ·)
        else if e = 0x31 then (ptrUnescape rest).map (slash :: ·)
        else none

def ptrMember (d : JsonDoc) (obj : JsonNode) (tok : List UInt8) : Option JsonNode :=
  if tilde ∈ tok then
    if tok.length > 256 then none
    else
      match ptrUnescape tok with
      | none => none
      | some key => jsonGet d obj key
  else jsonGet d obj tok

def digitsValue : List UInt8 → Nat → Option Nat
  | [], v => some v
  | c :: rest, v =>
    if jsonIsDigit c then digitsValue rest (v * 10 + (c.toNat - 0x30))
    else none

def ptrElement (d : JsonDoc) (arr : JsonNode) (tok : List UInt8) : Option JsonNode :=
  if tok.length = 0 ∨ tok.length > 9 then none
  else if tok.head? = some 0x30 ∧ tok.length > 1 then none
  else
    match digitsValue tok 0 with
    | none => none
    | some i => jsonAt d arr i

def ptrStep (d : JsonDoc) (n : JsonNode) (tok : List UInt8) : Option JsonNode :=
  if n.type = .obj then ptrMember d n tok
  else if n.type = .arr then ptrElement d n tok
  else none

/-- One token a round; `fuel` is more than the bytes left. -/
def ptrLoop (d : JsonDoc) : Nat → JsonNode → List UInt8 → Option JsonNode
  | 0, _, _ => none
  | fuel + 1, n, p =>
    match ptrStep d n (p.takeWhile (· != slash)) with
    | none => none
    | some n =>
      match p.dropWhile (· != slash) with
      | [] => some n
      | _ :: rest => ptrLoop d fuel n rest

def jsonPtr (d : JsonDoc) (ptr : List UInt8) : Option JsonNode :=
  match jsonRoot d with
  | none => none
  | some n =>
    match ptr with
    | [] => some n
    | c :: p => if c ≠ slash then none else ptrLoop d (p.length + 1) n p

def escapeName (name : List UInt8) : List UInt8 :=
  name.flatMap fun c =>
    if c = tilde then [tilde, 0x30] else if c = slash then [tilde, 0x31] else [c]

def Slot.name : {obj : Bool} → Slot obj → List UInt8
  | _, .element _ => []
  | _, .member _ key _ _ => key.text

structure Entry where
  name : List UInt8
  place : Nat
  value : JsonValue

def JsonChildren.entries : {obj : Bool} → JsonChildren obj → Nat → List Entry
  | _, .last slot value _, idx => [⟨slot.name, idx, value⟩]
  | _, .more slot value _ rest, idx =>
    ⟨slot.name, idx, value⟩ :: rest.entries (idx + value.size)

def arrayIndex (tok : List UInt8) : Option Nat :=
  if tok = [] ∨ (tok.head? = some 0x30 ∧ tok ≠ [0x30]) then none else digitsValue tok 0

def JsonValue.child : JsonValue → Nat → List UInt8 → Option Entry
  | .container true children, idx, tok =>
    (children.entries (idx + 1)).find? fun entry => escapeName entry.name == tok
  | .container false children, idx, tok =>
    (arrayIndex tok).bind fun i => (children.entries (idx + 1))[i]?
  | _, _, _ => none

def JsonValue.designated : JsonValue → Nat → List (List UInt8) → Option Nat
  | _, idx, [] => some idx
  | value, idx, tok :: rest =>
    (value.child idx tok).bind fun entry => entry.value.designated entry.place rest

def JsonValue.pointee (value : JsonValue) : List UInt8 → Option Nat
  | [] => some 0
  | c :: p => if c = slash then value.designated 0 (p.splitOnP (· == slash)) else none

/-- The code's own bounds on a token: an escaped name of 256 bytes, an index of
nine digits. -/
def JsonValue.TokenFits (tok : List UInt8) : JsonValue → Prop
  | .container true _ => tilde ∈ tok → tok.length ≤ 256
  | .container false _ => tok.length ≤ 9
  | _ => True

def JsonValue.TokensFit : JsonValue → Nat → List (List UInt8) → Prop
  | _, _, [] => True
  | value, idx, tok :: rest => value.TokenFits tok ∧
    ∀ entry ∈ value.child idx tok, entry.value.TokensFit entry.place rest

def JsonValue.PointerFits (value : JsonValue) : List UInt8 → Prop
  | [] => True
  | _ :: p => value.TokensFit 0 (p.splitOnP (· == slash))

theorem ptrUnescape_cons (plain : c ≠ tilde) (rest : List UInt8) :
    ptrUnescape (c :: rest) = (ptrUnescape rest).map (c :: ·) := by
  cases rest <;> exact if_pos plain

theorem ptrUnescape_escapeName (name : List UInt8) : ptrUnescape (escapeName name) = some name := by
  induction name with
  | nil => rfl
  | cons c name ih =>
    rw [escapeName, List.flatMap_cons, ← escapeName]
    split_ifs with isTilde isSlash
    · subst isTilde
      simp [ptrUnescape, ih]
    · subst isSlash
      simp [ptrUnescape, ih]
    · rw [List.singleton_append, ptrUnescape_cons isTilde, ih]
      rfl

theorem escapeName_of_ptrUnescape {tok name : List UInt8} (whole : slash ∉ tok)
    (read : ptrUnescape tok = some name) : escapeName name = tok := by
  fun_induction ptrUnescape tok generalizing name with
  | case1 =>
    cases read
    rfl
  | case2 c rest plain ih =>
    obtain ⟨behind, later, rfl⟩ := Option.map_eq_some_iff.mp read
    rw [List.mem_cons, not_or] at whole
    rw [escapeName, List.flatMap_cons, if_neg plain, if_neg (Ne.symm whole.1), ← escapeName,
      ih whole.2 later]
    rfl
  | case3 => contradiction
  | case4 c notPlain rest ih =>
    obtain ⟨behind, later, rfl⟩ := Option.map_eq_some_iff.mp read
    rw [escapeName, List.flatMap_cons, if_pos rfl, ← escapeName,
      ih (fun member => whole (by simp [member])) later, not_not.mp notPlain]
    rfl
  | case5 c notPlain rest _ ih =>
    obtain ⟨behind, later, rfl⟩ := Option.map_eq_some_iff.mp read
    rw [escapeName, List.flatMap_cons, if_neg (by decide), if_pos rfl, ← escapeName,
      ih (fun member => whole (by simp [member])) later, not_not.mp notPlain]
    rfl
  | case6 => contradiction

theorem escapeName_eq_iff {tok name : List UInt8} (whole : slash ∉ tok) :
    escapeName name = tok ↔ ptrUnescape tok = some name := by
  constructor
  · rintro rfl
    exact ptrUnescape_escapeName name
  · exact escapeName_of_ptrUnescape whole

theorem ptrUnescape_plain (plain : tilde ∉ tok) : ptrUnescape tok = some tok := by
  induction tok with
  | nil => rfl
  | cons c rest ih =>
    rw [List.mem_cons, not_or] at plain
    rw [ptrUnescape_cons (Ne.symm plain.1), ih plain.2]
    rfl

theorem ptrMember_eq (d : JsonDoc) (obj : JsonNode) (tok : List UInt8) :
    ptrMember d obj tok = if tilde ∈ tok ∧ tok.length > 256 then none
      else (ptrUnescape tok).bind (jsonGet d obj) := by
  rw [ptrMember]
  by_cases escaped : tilde ∈ tok
  · simp only [escaped, if_true, true_and]
    cases ptrUnescape tok <;> rfl
  · simp only [escaped, if_false, false_and, ptrUnescape_plain escaped]
    rfl

section

variable {d : JsonDoc}

theorem JsonChildren.map_place_entries : {obj : Bool} → (children : JsonChildren obj) →
    (idx : Nat) → (children.entries idx).map Entry.place = children.places idx
  | _, .last _ _ _, _ => rfl
  | _, .more _ value _ rest, idx =>
    congrArg (idx :: ·) (rest.map_place_entries (idx + value.size))

theorem DescribesChildren.entry : {obj : Bool} → (children : JsonChildren obj) → {idx : Nat} →
    DescribesChildren d children idx → ∀ entry ∈ children.entries idx,
      Describes d entry.value entry.place
  | _, .last _ _ _, _, described, entry, member => by
    rw [List.mem_singleton.mp member]
    exact described.1
  | _, .more _ _ _ rest, _, described, entry, member => by
    rcases List.mem_cons.mp member with rfl | member
    · exact described.1.1
    · exact DescribesChildren.entry rest described.2 entry member

theorem follow_of_getElem? {node : JsonNode} (present : idx ≠ 0)
    (found : d.nodes[idx]? = some node) : d.follow idx = some node := by
  have inside := (List.getElem?_eq_some_iff.mp found).1
  have linked : ¬ (idx = 0 ∨ idx ≥ d.count) := not_or.mpr ⟨present, Nat.not_le.mpr inside⟩
  rw [JsonDoc.follow, if_neg linked, found]

theorem getLoop_named {key : List UInt8} {node : JsonNode} {body : JsonBody}
    (named : d.bytes node.key = body.print ∧ node.kesc = body.escaped) (fuel : Nat) :
    getLoop d key (fuel + 1) (some node) =
      if body.text = key then some node else getLoop d key fuel (jsonNext d node) := by
  rw [getLoop, named.1, named.2]
  exact if_congr (body.reads.eq_iff key) rfl rfl

theorem DescribesChildren.getLoop (key : List UInt8) : (children : JsonChildren true) →
    {idx fuel : Nat} → DescribesChildren d children idx → idx ≠ 0 → children.count ≤ fuel →
    getLoop d key fuel (d.follow idx) =
      ((children.entries idx).find? fun entry => entry.name == key).bind
        fun entry => d.nodes[entry.place]?
  | .last (.member before body after gap) value _, idx, fuel + 1, described, present, _ => by
    obtain ⟨-, node, found, named, next⟩ := described
    rw [follow_of_getElem? present found, getLoop_named named, jsonNext, next]
    simp only [JsonChildren.entries, Slot.name, List.find?_cons, List.find?_nil]
    split
    · rename_i mine
      rw [beq_iff_eq.mpr mine]
      exact found.symm
    · rename_i other
      rw [beq_eq_false_iff_ne.mpr other]
      cases fuel <;> rfl
  | .more (.member before body after gap) value _ rest, idx, fuel + 1, described, present,
    room => by
    obtain ⟨⟨-, node, found, named, next⟩, later⟩ := described
    have behind := DescribesChildren.getLoop key rest later (by omega) (Nat.le_of_succ_le_succ room)
    rw [follow_of_getElem? present found, getLoop_named named, jsonNext, next, behind]
    simp only [JsonChildren.entries, Slot.name, List.find?_cons]
    split
    · rename_i mine
      rw [beq_iff_eq.mpr mine]
      exact found.symm
    · rename_i other
      rw [beq_eq_false_iff_ne.mpr other]

theorem Describes.present : {value : JsonValue} → {idx : Nat} → Describes d value idx →
    ∃ node, d.nodes[idx]? = some node
  | .scalar _, _, ⟨node, found, _⟩ => ⟨node, found⟩
  | .empty _ _, _, ⟨node, found, _⟩ => ⟨node, found⟩
  | .container _ _, _, ⟨node, found, _⟩ => ⟨node, found⟩

theorem Describes.size_le {value : JsonValue} (described : Describes d value idx) :
    idx + value.size ≤ d.count := by
  have filled := value.size_pos
  obtain ⟨inner, last⟩ := value.exists_sub (value.size - 1) (by omega)
  obtain ⟨node, found⟩ := (Describes.sub value described last).present
  have inside := (List.getElem?_eq_some_iff.mp found).1
  rw [JsonDoc.count]
  omega

theorem JsonChildren.count_le_size : (children : JsonChildren obj) → children.count ≤ children.size
  | .last _ value _ => value.size_pos
  | .more _ value _ rest => by
    have filled := value.size_pos
    have others := rest.count_le_size
    rw [JsonChildren.count, JsonChildren.size]
    omega

theorem Describes.child {value : JsonValue} {entry : Entry}
    (described : Describes d value idx) (found : value.child idx tok = some entry) :
    Describes d entry.value entry.place := by
  match value with
  | .scalar _ => cases found
  | .empty _ _ => cases found
  | .container obj children =>
    obtain ⟨_, _, _, _, _, _, below⟩ := described
    refine DescribesChildren.entry children below entry ?_
    cases obj with
    | true => exact List.mem_of_find?_eq_some found
    | false =>
      obtain ⟨i, -, found⟩ := Option.bind_eq_some_iff.mp found
      exact List.mem_of_getElem? found

theorem find?_escapeName (whole : slash ∉ tok) (entries : List Entry) :
    (entries.find? fun entry => escapeName entry.name == tok) =
      (ptrUnescape tok).bind fun key => entries.find? fun entry => entry.name == key := by
  have same : ∀ entry : Entry, escapeName entry.name = tok ↔ ptrUnescape tok = some entry.name :=
    fun entry => escapeName_eq_iff whole
  cases read : ptrUnescape tok with
  | none =>
    refine List.find?_eq_none.mpr ?_
    intro entry _ spelled
    have spells := (same entry).mp (beq_iff_eq.mp spelled)
    rw [read] at spells
    cases spells
  | some key =>
    refine congrArg (entries.find? ·) (funext fun entry => ?_)
    rw [Bool.eq_iff_iff, beq_iff_eq, beq_iff_eq, same entry, read, Option.some_inj, eq_comm]

theorem ptrElement_eq (arr : JsonNode) {tok : List UInt8} (short : tok.length ≤ 9) :
    ptrElement d arr tok = (arrayIndex tok).bind (jsonAt d arr) := by
  have canonical : (tok.head? = some 0x30 ∧ tok.length > 1) ↔
      (tok.head? = some 0x30 ∧ tok ≠ [0x30]) := by
    match tok with
    | [] => simp
    | [c] => simp
    | c :: e :: rest => simp
  rw [ptrElement, arrayIndex]
  by_cases blank : tok = []
  · rw [if_pos (.inl (List.length_eq_zero_iff.mpr blank)), if_pos (.inl blank)]
    rfl
  · have filled := mt List.length_eq_zero_iff.mp blank
    rw [if_neg (by omega)]
    by_cases leading : tok.head? = Option.some 0x30 ∧ tok ≠ [0x30]
    · rw [if_pos (canonical.mpr leading), if_pos (.inr leading)]
      rfl
    · rw [if_neg (mt canonical.mp leading), if_neg (not_or.mpr ⟨blank, leading⟩)]
      cases digitsValue tok 0 <;> rfl

theorem Describes.ptrStep {value : JsonValue} {node : JsonNode} (described : Describes d value idx)
    (found : d.nodes[idx]? = some node)
    (whole : slash ∉ tok) :
    (value.TokenFits tok → ptrStep d node tok =
      (value.child idx tok).bind fun entry => d.nodes[entry.place]?) ∧
    (¬ value.TokenFits tok → ptrStep d node tok = none) := by
  match value with
  | .scalar leaf =>
    obtain ⟨_, same, type, _⟩ := described
    cases found.symm.trans same
    have scalar : Json.ptrStep d node tok = none := by
      rw [Json.ptrStep, type]
      cases leaf <;> rfl
    exact ⟨fun _ => scalar, fun _ => scalar⟩
  | .empty obj gap =>
    obtain ⟨_, same, type, _, count, first⟩ := described
    cases found.symm.trans same
    have empty : Json.ptrStep d node tok = none := by
      cases obj with
      | true =>
        have nothing : ∀ key, jsonGet d node key = none := by
          intro key
          rw [jsonGet, jsonFirst, first]
          cases d.count <;> exact ite_self none
        have object : node.type = .obj := type
        rw [Json.ptrStep, if_pos object, ptrMember_eq]
        simp [nothing]
      | false =>
        have nothing : ∀ i, jsonAt d node i = none := fun i => if_pos (by omega)
        have array : node.type = .arr := type
        simp only [Json.ptrStep, array, ptrElement, nothing]
        cases digitsValue tok 0 <;> simp
    exact ⟨fun _ => empty, fun _ => empty⟩
  | .container true children =>
    have visible := described.size_le
    obtain ⟨_, same, type, _, count, first, below⟩ := described
    cases found.symm.trans same
    have object : node.type = .obj := type
    have get : ∀ key, jsonGet d node key =
        ((children.entries (idx + 1)).find? fun entry => entry.name == key).bind
          fun entry => d.nodes[entry.place]? := by
      intro key
      have fuel := children.count_le_size
      rw [JsonValue.size] at visible
      rw [jsonGet, if_neg (not_not.mpr object), jsonFirst, first]
      exact DescribesChildren.getLoop key children below (by omega) (by omega)
    rw [Json.ptrStep, if_pos object, ptrMember_eq]
    constructor
    · intro fits
      rw [if_neg fun past => absurd (fits past.1) (Nat.not_le.mpr past.2), JsonValue.child,
        find?_escapeName whole, Option.bind_assoc]
      exact congrArg _ (funext get)
    · intro past
      refine if_pos ?_
      rwa [JsonValue.TokenFits, Classical.not_imp, Nat.not_le] at past
  | .container false children =>
    have visits := described.visits found
    obtain ⟨_, same, type, _⟩ := described
    cases found.symm.trans same
    have array : node.type = .arr := type
    have other : node.type ≠ .obj := by
      rw [array]
      decide
    rw [Json.ptrStep, if_neg other, if_pos array]
    constructor
    · intro fits
      rw [ptrElement_eq node fits, JsonValue.child, Option.bind_assoc]
      refine congrArg _ (funext fun i => ?_)
      rw [visits.jsonAt, JsonValue.places, ← JsonChildren.map_place_entries, List.getElem?_map]
      cases (children.entries (idx + 1))[i]? <;> rfl
    · intro past
      exact if_pos (.inr (Nat.not_le.mp past))

theorem slash_notMem_takeWhile (p : List UInt8) : slash ∉ p.takeWhile (· != slash) := by
  intro member
  have other := List.mem_takeWhile_imp member
  simp at other

theorem splitOnP_slash (p : List UInt8) : p.splitOnP (· == slash) = p.takeWhile (· != slash) ::
      match p.dropWhile (· != slash) with
      | [] => []
      | _ :: rest => rest.splitOnP (· == slash) := by
  have token : ∀ c ∈ p.takeWhile (· != slash), (c == slash) = false := by
    intro c member
    simpa using List.mem_takeWhile_imp member
  have parts := List.takeWhile_append_dropWhile (p := (· != slash)) (l := p)
  have stops := List.head?_dropWhile_not (· != slash) p
  cases tail : p.dropWhile (· != slash) with
  | nil =>
    rw [tail, List.append_nil] at parts
    rw [parts] at token ⊢
    exact List.splitOnP_eq_singleton token
  | cons c rest =>
    rw [tail] at parts stops
    have isSlash : (c == slash) = true := by simpa using stops
    conv_lhs => rw [← parts]
    exact List.splitOnP_append_cons_of_forall_mem token c isSlash rest

theorem Describes.ptrLoop {value : JsonValue} {node : JsonNode}
    {p : List UInt8} (described : Describes d value idx) (found : d.nodes[idx]? = some node)
    (room : p.length < fuel) :
    (value.TokensFit idx (p.splitOnP (· == slash)) → ptrLoop d fuel node p =
      (value.designated idx (p.splitOnP (· == slash))).bind fun place => d.nodes[place]?) ∧
    (¬ value.TokensFit idx (p.splitOnP (· == slash)) → ptrLoop d fuel node p = none) := by
  induction fuel generalizing value idx node p with
  | zero => exact absurd room (Nat.not_lt_zero _)
  | succ fuel ih =>
    obtain ⟨within, past⟩ := described.ptrStep found (slash_notMem_takeWhile p)
    rw [splitOnP_slash p, Json.ptrLoop]
    simp only [JsonValue.TokensFit, JsonValue.designated]
    by_cases fits : value.TokenFits (p.takeWhile (· != slash))
    · rw [within fits]
      cases step : value.child idx (p.takeWhile (· != slash)) with
      | none => simp [fits]
      | some entry =>
        have below := described.child step
        obtain ⟨next, here⟩ := below.present
        simp only [fits, true_and, Option.bind_some, here, Option.mem_some, forall_eq']
        cases tail : p.dropWhile (· != slash) with
        | nil => simp [JsonValue.TokensFit, JsonValue.designated, here]
        | cons c rest =>
          refine ih below here ?_
          have shorter := (List.dropWhile_sublist (· != slash) (l := p)).length_le
          rw [tail, List.length_cons] at shorter
          omega
    · rw [past fits]
      exact ⟨fun both => absurd both.1 fits, fun _ => rfl⟩

theorem Describes.designated {value : JsonValue} {idx place : Nat}
    (described : Describes d value idx) (found : value.designated idx toks = some place) :
    ∃ node, d.nodes[place]? = some node := by
  induction toks generalizing value idx with
  | nil =>
    cases found
    exact described.present
  | cons tok rest ih =>
    obtain ⟨entry, step, found⟩ := Option.bind_eq_some_iff.mp found
    exact ih (described.child step) found

theorem Describes.pointee {value : JsonValue} {place : Nat}
    (root : Describes d value 0) (found : value.pointee ptr = some place) :
    ∃ node, d.nodes[place]? = some node := by
  cases ptr with
  | nil =>
    cases found
    exact root.present
  | cons c p =>
    rw [JsonValue.pointee] at found
    split at found
    · exact root.designated found
    · cases found

theorem Describes.jsonPtr {value : JsonValue} (root : Describes d value 0) (ptr : List UInt8) :
    (value.PointerFits ptr →
      jsonPtr d ptr = (value.pointee ptr).bind fun place => d.nodes[place]?) ∧
    (¬ value.PointerFits ptr → jsonPtr d ptr = none) := by
  obtain ⟨node, found⟩ := root.present
  have first : jsonRoot d = some node := by
    have inside := (List.getElem?_eq_some_iff.mp found).1
    rw [jsonRoot, if_neg (by rw [JsonDoc.count]; omega), found]
  cases ptr with
  | nil => simp [Json.jsonPtr, first, JsonValue.pointee, JsonValue.PointerFits, found]
  | cons c p =>
    simp only [Json.jsonPtr, first, JsonValue.pointee, JsonValue.PointerFits]
    by_cases start : c = slash
    · rw [if_neg (not_not.mpr start), if_pos start]
      exact root.ptrLoop found (Nat.lt_succ_self p.length)
    · simp [start]

end

theorem jsonPtr_eq_iff (d : JsonDoc) (buf : List UInt8) (after : JsonDoc)
    (accepted : jsonParse d buf = some (after, none)) :
    ∃ value, JsonText buf value ∧ Describes after value 0 ∧
      ∀ ptr, (jsonPtr after ptr = (value.pointee ptr).bind fun place => after.nodes[place]?) ↔
        ((value.pointee ptr).isSome → value.PointerFits ptr) := by
  obtain ⟨value, text, -, -, -, root⟩ := jsonParse_layout accepted
  refine ⟨value, text, root, ?_⟩
  intro ptr
  obtain ⟨within, past⟩ := root.jsonPtr ptr
  by_cases fits : value.PointerFits ptr
  · exact iff_of_true (within fits) fun _ => fits
  · rw [past fits]
    cases target : value.pointee ptr with
    | none => simp
    | some place =>
      obtain ⟨_, there⟩ := root.pointee target
      simp [fits, there]

theorem jsonPtr_eq_iff_nested : ∃ after value, JsonText nestedText value ∧
    jsonParse (jsonDocInit 8) nestedText = some (after, none) ∧ Describes after value 0 ∧
      ∀ ptr, (jsonPtr after ptr = (value.pointee ptr).bind fun place => after.nodes[place]?) ↔
        ((value.pointee ptr).isSome → value.PointerFits ptr) := by
  have facts : (jsonParse (jsonDocInit 8) nestedText).map Prod.snd = some none := by
    decide
  obtain ⟨⟨after, rc⟩, parsed, rfl⟩ := Option.map_eq_some_iff.mp facts
  obtain ⟨value, text, described, agrees⟩ := jsonPtr_eq_iff (jsonDocInit 8) nestedText after parsed
  exact ⟨after, value, text, parsed, described, agrees⟩

def longName : JsonBody := .plain tilde (by decide) :: List.replicate 255 (.plain 0x61 (by decide))

def longMember : JsonValue :=
  .container true (.last (.member .none longName .none .none) (.scalar .null) .none)

def longToken : List UInt8 := tilde :: 0x30 :: List.replicate 255 0x61

/-- A name of 256 bytes, one of them a tilde, makes a token of 257. -/
theorem jsonPtr_misses_long_name : ∃ after, JsonText longMember.print longMember ∧
    jsonParse (jsonDocInit 2) longMember.print = some (after, none) ∧
      Describes after longMember 0 ∧ longMember.pointee (slash :: longToken) = some 1 ∧
        after.nodes[1]?.isSome ∧ jsonPtr after (slash :: longToken) = none := by
  obtain ⟨after, parsed, count, described⟩ :=
    @jsonParse_alone longMember (jsonDocInit 2) (by decide +kernel) (by decide) (by decide)
  have target : longMember.pointee (slash :: longToken) = some 1 := by decide +kernel
  have token : longToken.splitOnP (· == slash) = [longToken] := by decide +kernel
  have escaped : tilde ∈ longToken := by decide
  have long : ¬ longToken.length ≤ 256 := by decide +kernel
  have past : ¬ longMember.PointerFits (slash :: longToken) := by
    rw [JsonValue.PointerFits, token]
    exact fun fits => long (fits.1 escaped)
  obtain ⟨node, there⟩ := described.pointee target
  refine ⟨after, ⟨[], .none, .none, .inl rfl, ?_⟩, parsed, described, target, by simp [there],
    (described.jsonPtr (slash :: longToken)).2 past⟩
  simp [Ws.none]

end Pro2Call.Json

import Pro2Call.Json.ParseSound

namespace Pro2Call.Json

open Pro2Call.Data

theorem print_ne_bom (before after : Ws) (value : JsonValue) :
    bom.isPrefixOf (before.bytes ++ (value.print ++ after.bytes)) = false := by
  obtain ⟨bytes, blank⟩ := before
  cases bytes with
  | nil =>
    obtain ⟨ch, tail, shape, _, _, notMark⟩ := value_head value
    simp [shape, bom, List.isPrefixOf, notMark.symm]
  | cons first bytes =>
    have notMark : first ≠ 0xEF := by
      rintro rfl
      exact absurd (blank 0xEF (List.mem_cons_self ..)) (by decide)
    simp [bom, List.isPrefixOf, notMark.symm]

theorem stops_ws (gap : Ws) : Stops isNumberByte gap.bytes := by
  obtain ⟨bytes, blank⟩ := gap
  cases bytes with
  | nil => exact stops_nil _
  | cons first bytes =>
    have blankFirst : ∀ c ∈ [first], jsonIsWs c = true := by
      intro c member
      exact blank c (by simp_all)
    exact stops_gap ⟨[first], blankFirst⟩ (show isNumberByte 0x20 = false by decide) bytes

theorem skipWs_end (pool : List JsonNode) (p : Nat) (gap : Ws) :
    skipWs ⟨pool, p, gap.bytes⟩ = ⟨pool, p + gap.bytes.length, []⟩ := by
  have skipped := skipWs_append pool p gap (stops_nil jsonIsWs)
  rwa [List.append_nil] at skipped

theorem parseDocument_print (p : Nat) (before after : Ws)
    {value : JsonValue} (shallow : value.depth ≤ jsonMaxDepth)
    (fits : value.size ≤ cap) :
    parseDocument cap ⟨[], p, before.bytes ++ (value.print ++ after.bytes)⟩ = .ok
      ⟨value.nodes {} (p + before.bytes.length) 0,
        p + before.bytes.length + value.print.length + after.bytes.length,
        []⟩ := by
  have parsed := parseValue_print value [] p before shallow (by simpa using fits) (stops_ws after)
  simp only [parseDocument, parsed, bind, Except.bind, skipWs_end, if_true]
  rfl

theorem parseDocument_sound {c after : Pctx} (parsed : parseDocument cap c = .ok after) :
    ∃ (before : Ws) (value : JsonValue) (behind : Ws),
      c.rest = before.bytes ++ (value.print ++ behind.bytes) ∧
        value.depth ≤ jsonMaxDepth ∧ c.nodes.length + value.size ≤ cap := by
  simp only [parseDocument] at parsed
  obtain ⟨⟨valued, out⟩, found, parsed⟩ := exists_of_bind_ok parsed
  obtain ⟨before, value, text, shallow, grown, fits⟩ :=
    parseValue_sound cap jsonMaxDepth _ _ _ found
  obtain ⟨behind, skipped⟩ := skipWs_sound valued
  simp only at parsed
  split at parsed
  · rename_i atEnd
    rw [atEnd, List.append_nil] at skipped
    refine ⟨before, value, behind, ?_, shallow, ?_⟩
    · rw [text, skipped]
    · omega
  · cases parsed

theorem parseDocument_returns (cap : Nat) (c : Pctx) : Returns (parseDocument cap c) := by
  apply bind_ne_error (parseValue_returns cap jsonMaxDepth c)
  rintro ⟨valued, out⟩ _
  simp only
  split
  · exact returns_ok _
  · exact returns_fail _ _

theorem bom_skipped {mark : List UInt8} (marked : mark = [] ∨ mark = bom) {before after : Ws}
    {value : JsonValue} :
    (if bom.isPrefixOf (mark ++ (before.bytes ++ (value.print ++ after.bytes))) then bom.length
      else 0) = mark.length := by
  rcases marked with rfl | rfl
  · rw [List.nil_append, print_ne_bom]
    rfl
  · rw [if_pos (by simp)]

theorem jsonParse_print {d : JsonDoc} {mark : List UInt8}
    (marked : mark = [] ∨ mark = bom) (before after : Ws) {value : JsonValue}
    (short : (mark ++ (before.bytes ++ (value.print ++ after.bytes))).length ≤ intMax)
    (shallow : value.depth ≤ jsonMaxDepth) (fits : value.size ≤ d.cap) :
    jsonParse d (mark ++ (before.bytes ++ (value.print ++ after.bytes))) =
      some ({ d with
        nodes := value.nodes {} (mark.length + before.bytes.length) 0
        buf := mark ++ (before.bytes ++ (value.print ++ after.bytes))
        errOff := 0 }, none) := by
  have room := value.size_pos
  have proper : ¬ (d.cap = 0 ∨ (mark ++ (before.bytes ++
      (value.print ++ after.bytes))).length > intMax) := by omega
  rw [jsonParse, if_neg proper]
  simp only [bom_skipped marked, List.drop_left,
    parseDocument_print mark.length before after shallow fits]

theorem jsonParse_returns {d : JsonDoc} {buf : List UInt8}
    (room : 0 < d.cap) (short : buf.length ≤ intMax) :
    ∃ after rc, jsonParse d buf = some (after, rc) ∧ (rc = none → ∃ value, JsonText buf value ∧
        value.depth ≤ jsonMaxDepth ∧ value.size ≤ d.cap) ∧
      (rc ≠ none → after.count = 0) := by
  have proper : ¬ (d.cap = 0 ∨ buf.length > intMax) := by omega
  rw [jsonParse, if_neg proper]
  simp only
  have returns := parseDocument_returns d.cap ⟨[], if bom.isPrefixOf buf then bom.length else 0,
      buf.drop (if bom.isPrefixOf buf then bom.length else 0)⟩
  split
  · rename_i c parsed
    refine ⟨_, _, rfl, fun _ => ?_, fun failed => absurd rfl failed⟩
    obtain ⟨before, value, behind, text, shallow, fits⟩ := parseDocument_sound parsed
    refine ⟨value, ?_, shallow, by simpa using fits⟩
    simp only at text
    split at text
    · rename_i isMarked
      obtain ⟨rest, shape⟩ := List.isPrefixOf_iff_prefix.mp isMarked
      refine ⟨bom, before, behind, .inr rfl, ?_⟩
      rw [← shape, List.drop_left] at text
      rw [← shape, text]
    · exact ⟨[], before, behind, .inl rfl, by simpa using text⟩
  · rename_i rc p _
    exact ⟨_, _, rfl, (fun ok => nomatch ok), fun _ => rfl⟩
  · rename_i stalled
    exact absurd stalled returns

mutual

theorem JsonValue.size_le_length : (value : JsonValue) → value.size ≤ value.print.length
  | .scalar leaf => by
    obtain ⟨ch, tail, shape, _⟩ := scalar_head leaf
    simp [JsonValue.size, JsonValue.print, shape]
  | .empty obj gap => by
    simp [JsonValue.size, JsonValue.print]
  | .container obj children => by
    have inner := children.size_le_length
    simp only [JsonValue.size, JsonValue.print, List.length_cons, List.length_append]
    omega

theorem JsonChildren.size_le_length : {obj : Bool} →
    (children : JsonChildren obj) → children.size ≤ children.print.length
  | _, .last slot value after => by
    have inner := value.size_le_length
    simp only [JsonChildren.size, JsonChildren.print, List.length_append]
    omega
  | _, .more slot value after rest => by
    have inner := value.size_le_length
    have others := rest.size_le_length
    simp only [JsonChildren.size, JsonChildren.print, List.length_append, List.length_cons]
    omega

end

theorem size_le_of_jsonText {value : JsonValue}
    (text : JsonText buf value) : value.size ≤ buf.length := by
  obtain ⟨mark, before, after, _, rfl⟩ := text
  have inner := value.size_le_length
  simp only [List.length_append]
  omega

theorem jsonParse_accepts_jsonText (d : JsonDoc) (buf : List UInt8)
    (room : 0 < d.cap) (short : buf.length ≤ intMax)
    (large : ∀ value, JsonText buf value → value.size ≤ d.cap) :
    ∃ after rc, jsonParse d buf = some (after, rc) ∧ (rc = none ↔
        ∃ value, JsonText buf value ∧ value.depth ≤ jsonMaxDepth) ∧
      (rc ≠ none → after.count = 0) := by
  obtain ⟨after, rc, parsed, accepted, cleared⟩ := jsonParse_returns room short
  refine ⟨after, rc, parsed, ⟨?_, ?_⟩, cleared⟩
  · intro ok
    obtain ⟨value, text, shallow, _⟩ := accepted ok
    exact ⟨value, text, shallow⟩
  · rintro ⟨value, text, shallow⟩
    have fits := large value text
    obtain ⟨mark, before, behind, marked, rfl⟩ := text
    rw [jsonParse_print marked before behind short shallow fits] at parsed
    cases parsed
    rfl

theorem jsonParse_accepts_nested_array :
    0 < (jsonDocInit 5).cap ∧ ([0x5B, 0x5B, 0x31, 0x5D, 0x5D] : List UInt8).length ≤ intMax ∧
      ∃ after rc, jsonParse (jsonDocInit 5) [0x5B, 0x5B, 0x31, 0x5D, 0x5D] = some (after, rc) ∧
          (rc = none ↔ ∃ value, JsonText [0x5B, 0x5B, 0x31, 0x5D, 0x5D] value ∧
              value.depth ≤ jsonMaxDepth) ∧
          (rc ≠ none → after.count = 0) :=
  ⟨by decide, by decide, jsonParse_accepts_jsonText (jsonDocInit 5) [0x5B, 0x5B, 0x31, 0x5D, 0x5D]
      (by decide) (by decide) fun _ text => size_le_of_jsonText text⟩

def blanksZero (count : Nat) : List UInt8 := List.replicate count 0x20 ++ [0x30]

theorem length_blanksZero (count : Nat) : (blanksZero count).length = count + 1 := by
  simp [blanksZero]

def zeroValue : JsonValue := .scalar (.num ⟨false, .zero, none, none⟩)

theorem jsonText_blanksZero (count : Nat) : JsonText (blanksZero count) zeroValue := by
  refine ⟨[], ⟨List.replicate count 0x20, ?_⟩, Ws.none, .inl rfl, rfl⟩
  intro c member
  rw [(List.mem_replicate.mp member).2]
  decide

theorem jsonParse_long {buf : List UInt8} (long : intMax < buf.length) :
    jsonParse d buf = some (d, some .eInval) := by
  rw [jsonParse, if_pos (.inr long)]

theorem jsonParse_refuses_long_jsonText :
    ∃ (d : JsonDoc) (buf : List UInt8), (∀ value, JsonText buf value → value.size ≤ d.cap) ∧
        (∃ value, JsonText buf value ∧ value.depth ≤ jsonMaxDepth) ∧
          ∃ after, jsonParse d buf = some (after, some .eInval) ∧ after.count ≠ 0 := by
  have length := length_blanksZero intMax
  refine ⟨{ cap := intMax + 1, nodes := [freshNode] }, blanksZero intMax,
    ?_, ⟨zeroValue, jsonText_blanksZero intMax, by decide⟩, _,
    jsonParse_long (by omega), ?_⟩
  · intro value text
    have bound := size_le_of_jsonText text
    rwa [length] at bound
  · simp [JsonDoc.count]

end Pro2Call.Json

import Pro2Call.Json.Parse
import Pro2Call.Data.Bytes

namespace Pro2Call.Json

open Pro2Call.Data

/-! Reading a parsed document: navigation, typed reads and the expansion of
escapes. A lookup without a result is `none`. -/

def JsonDoc.bytes (d : JsonDoc) (s : JsonStr) : List UInt8 := slice d.buf s.off s.len

def jsonRoot (d : JsonDoc) : Option JsonNode :=
  if d.count = 0 then none else d.nodes[0]?

def JsonDoc.follow (d : JsonDoc) (i : Nat) : Option JsonNode :=
  if i = 0 ∨ i ≥ d.count then none else d.nodes[i]?

def jsonFirst (d : JsonDoc) (n : JsonNode) : Option JsonNode := d.follow n.first

def jsonNext (d : JsonDoc) (n : JsonNode) : Option JsonNode := d.follow n.next

def utf8Enc (cp : Nat) : List UInt8 :=
  if cp < 0x80 then [UInt8.ofNat cp]
  else if cp < 0x800 then
    [UInt8.ofNat (0xC0 ||| cp >>> 6), UInt8.ofNat (0x80 ||| cp &&& 0x3F)]
  else if cp < 0x10000 then
    [UInt8.ofNat (0xE0 ||| cp >>> 12), UInt8.ofNat (0x80 ||| cp >>> 6 &&& 0x3F),
      UInt8.ofNat (0x80 ||| cp &&& 0x3F)]
  else
    [UInt8.ofNat (0xF0 ||| cp >>> 18), UInt8.ofNat (0x80 ||| cp >>> 12 &&& 0x3F),
      UInt8.ofNat (0x80 ||| cp >>> 6 &&& 0x3F),
      UInt8.ofNat (0x80 ||| cp &&& 0x3F)]

def hex4 : List UInt8 → Option (Nat × List UInt8)
  | a :: b :: c :: d :: rest => do
      let a ← jsonHex a
      let b ← jsonHex b
      let c ← jsonHex c
      let d ← jsonHex d
      some (((a <<< 4 ||| b) <<< 4 ||| c) <<< 4 ||| d, rest)
  | _ => none

/-- The low half of a surrogate pair, when it is what comes next. -/
def lowSurrogate : List UInt8 → Option (Nat × List UInt8)
  | a :: b :: rest => do
      if a = backslash ∧ b = 0x75 then
        let (lo, rest) ← hex4 rest
        if 0xDC00 ≤ lo ∧ lo ≤ 0xDFFF then some (lo, rest) else none
      else none
  | _ => none

/-- The code point of an escape with the digits `cp`, taking the other half of
a surrogate pair from the text behind it. -/
def codePoint (cp : Nat) (rest : List UInt8) : Nat × List UInt8 :=
  if 0xD800 ≤ cp ∧ cp ≤ 0xDBFF then
    match lowSurrogate rest with
    | some (lo, rest) =>
      (0x10000 + (cp - 0xD800) <<< 10 + (lo - 0xDC00), rest)
    | none => (0xFFFD, rest)
  else if 0xDC00 ≤ cp ∧ cp ≤ 0xDFFF then (0xFFFD, rest)
  else (cp, rest)

def shortValue (c : UInt8) : Option UInt8 :=
  if c = quote ∨ c = backslash ∨ c = 0x2F then some c
  else if c = 0x62 then some 0x08
  else if c = 0x66 then some 0x0C
  else if c = 0x6E then some 0x0A
  else if c = 0x72 then some 0x0D
  else if c = 0x74 then some 0x09
  else none

def jsonNextChr : List UInt8 → Option (List UInt8 × List UInt8)
  | [] => none
  | s :: rest =>
    if s = backslash then
      match rest with
      | [] => none
      | c :: rest =>
        match shortValue c with
        | some byte => some ([byte], rest)
        | none =>
          if c = 0x75 then do
            let (cp, rest) ← hex4 rest
            let (cp, rest) := codePoint cp rest
            some (utf8Enc cp, rest)
          else none
    else some ([s], rest)

theorem hex4_length {text rest : List UInt8} (read : hex4 text = some (cp, rest)) :
    rest.length < text.length := by
  match text with
  | [] | [_] | [_, _] | [_, _, _] => simp [hex4] at read
  | a :: b :: c :: d :: tail =>
    simp only [hex4, Option.bind_eq_bind, Option.bind_eq_some_iff] at read
    obtain ⟨_, _, _, _, _, _, _, _, result⟩ := read
    cases result
    simp only [List.length_cons]
    omega

theorem codePoint_length (cp : Nat) (rest : List UInt8) :
    (codePoint cp rest).2.length ≤ rest.length := by
  simp only [codePoint]
  split
  · split
    · rename_i lo tail found
      match rest with
      | [] | [_] => simp [lowSurrogate] at found
      | a :: b :: rest =>
        simp only [lowSurrogate] at found
        split at found
        · obtain ⟨⟨low, behind⟩, read, found⟩ :=
            Option.bind_eq_some_iff.mp found
          have shorter := hex4_length read
          simp only at found
          split at found
          · cases found
            simp only [List.length_cons]
            omega
          · cases found
        · cases found
    · exact Nat.le_refl _
  · split <;> exact Nat.le_refl _

theorem jsonNextChr_length {text chr rest : List UInt8}
    (read : jsonNextChr text = some (chr, rest)) :
    rest.length < text.length := by
  match text with
  | [] => cases read
  | s :: tail =>
    simp only [jsonNextChr] at read
    split at read
    · split at read
      · cases read
      · rename_i c behind
        split at read
        · cases read
          simp only [List.length_cons]
          omega
        · split at read
          · obtain ⟨⟨cp, after⟩, digits, read⟩ :=
              Option.bind_eq_some_iff.mp read
            cases read
            have shorter := hex4_length digits
            have shortest := codePoint_length cp after
            simp only [List.length_cons]
            omega
          · cases read
    · cases read
      simp

def expandLoop (cap : Nat) (p out : List UInt8) : Except JsonErr (List UInt8) :=
  match p with
  | [] => .ok out
  | s :: tail =>
    match _ : jsonNextChr (s :: tail) with
    | none => .error .eSyntax
    | some (chr, rest) =>
      if out.length + chr.length > cap then .error .eOverflow
      else expandLoop cap rest (out ++ chr)
termination_by p.length
decreasing_by exact jsonNextChr_length ‹_›

theorem expandLoop_step {p out chr rest : List UInt8} (read : jsonNextChr p = some (chr, rest))
    (fits : out.length + chr.length ≤ cap) :
    expandLoop cap p out = expandLoop cap rest (out ++ chr) := by
  cases p with
  | nil => cases read
  | cons s tail =>
    rw [expandLoop]
    split
    · rename_i unread
      rw [read] at unread
      cases unread
    · rename_i _ _ again
      rw [read] at again
      cases again
      exact if_neg (Nat.not_lt.mpr fits)

def jsonBodyExpand (body : List UInt8) (esc : Bool) (cap : Nat) : Except JsonErr (List UInt8) :=
  if esc then expandLoop cap body []
  else if body.length > cap then .error .eOverflow
  else .ok body

end Pro2Call.Json

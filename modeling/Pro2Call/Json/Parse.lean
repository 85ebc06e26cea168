import Pro2Call.Json.Text

namespace Pro2Call.Json

inductive JsonErr where
  | eSyntax
  | eNodes
  | eDepth
  | eTrailing
  | eType
  | eMissing
  | eRange
  | eOverflow
  | eState
  | eInval
  deriving DecidableEq, Repr

inductive JsonType where
  | null
  | bool
  | num
  | str
  | arr
  | obj
  deriving DecidableEq, Repr

def jsonMaxDepth : Nat := 32

def intMax : Nat := 2 ^ 31 - 1

structure JsonStr where
  off : Nat := 0
  len : Nat := 0
  deriving DecidableEq, Repr

structure JsonNode where
  type : JsonType := .null
  esc : Bool := false
  kesc : Bool := false
  int : Bool := false
  count : Nat := 0
  first : Nat := 0
  next : Nat := 0
  key : JsonStr := {}
  raw : JsonStr := {}
  deriving DecidableEq, Repr

def freshNode : JsonNode := {}

/-- A document: the part of the caller's pool in use, its capacity and the
text the slices point into. -/
structure JsonDoc where
  cap : Nat
  nodes : List JsonNode := []
  buf : List UInt8 := []
  errOff : Nat := 0
  deriving DecidableEq, Repr

def JsonDoc.count (d : JsonDoc) : Nat := d.nodes.length

/-- The parser's cursor: the nodes allocated so far, the offset reached and
the bytes from there to the end of the buffer. -/
structure Pctx where
  nodes : List JsonNode
  p : Nat
  rest : List UInt8
  deriving DecidableEq, Repr

/-- How a parse that does not succeed ends: with an error code at an offset,
or, in the model only, with its steps used up. -/
inductive Stop where
  | fail (rc : JsonErr) (p : Nat)
  | stalled
  deriving DecidableEq, Repr

def Pctx.fail {α : Type} (c : Pctx) (rc : JsonErr) : Except Stop α := .error (.fail rc c.p)

def Pctx.moveTo (c : Pctx) (rest : List UInt8) : Pctx :=
  { c with p := c.p + (c.rest.length - rest.length), rest := rest }

def Pctx.setNode (c : Pctx) (i : Nat) (f : JsonNode → JsonNode) : Pctx :=
  { c with nodes := c.nodes.modify i f }

def skipWs (c : Pctx) : Pctx := c.moveTo (c.rest.dropWhile jsonIsWs)

def allocNode (cap : Nat) (c : Pctx) : Except Stop (Pctx × Nat) :=
  if c.nodes.length ≥ cap then c.fail .eNodes
  else .ok ({ c with nodes := c.nodes ++ [freshNode] }, c.nodes.length)

/-- The loop of `scanStr`, from behind the opening quote to behind the closing
one, and whether it passed an escape. -/
def scanBody : List UInt8 → Option (List UInt8 × Bool)
  | [] => none
  | ch :: rest =>
    if ch = quote then some (rest, false)
    else if ch = backslash then
      match rest with
      | [] => none
      | letter :: rest =>
        if isShortEscape letter then
          (scanBody rest).map fun scanned => (scanned.1, true)
        else if letter = 0x75 then
          match rest with
          | a :: b :: c :: d :: rest =>
            if [a, b, c, d].all fun digit => (jsonHex digit).isSome then
              (scanBody rest).map fun scanned => (scanned.1, true)
            else none
          | _ => none
        else none
    else if ch < 0x20 then none
    else scanBody rest

def scanStr (c : Pctx) : Except Stop (Pctx × JsonStr × Bool) :=
  match scanBody c.rest.tail with
  | none => c.fail .eSyntax
  | some (rest, esc) =>
    .ok (c.moveTo rest, { off := c.p + 1, len := c.rest.tail.length - rest.length - 1 }, esc)

def scanDigits : List UInt8 → Option (List UInt8)
  | [] => none
  | ch :: rest =>
    if jsonIsDigit ch then some (rest.dropWhile jsonIsDigit) else none

def scanInt : List UInt8 → Option (List UInt8)
  | [] => none
  | ch :: rest =>
    if ch = 0x30 then some rest else scanDigits (ch :: rest)

def scanFrac : List UInt8 → Option (List UInt8 × Bool)
  | [] => some ([], true)
  | ch :: rest =>
    if ch = 0x2E then (scanDigits rest).map fun rest => (rest, false)
    else some (ch :: rest, true)

def skipSign : List UInt8 → List UInt8
  | [] => []
  | ch :: rest => if ch = 0x2B ∨ ch = 0x2D then rest else ch :: rest

def scanExp : List UInt8 → Option (List UInt8 × Bool)
  | [] => some ([], true)
  | ch :: rest =>
    if ch = 0x65 ∨ ch = 0x45 then
      (scanDigits (skipSign rest)).map fun rest => (rest, false)
    else some (ch :: rest, true)

def skipMinus : List UInt8 → List UInt8
  | [] => []
  | ch :: rest => if ch = 0x2D then rest else ch :: rest

/-- The body of `scanNum`: what follows the number, and whether it had neither
a fraction nor an exponent. -/
def scanLiteral (text : List UInt8) : Option (List UInt8 × Bool) := do
  let rest ← scanInt (skipMinus text)
  let (rest, whole) ← scanFrac rest
  let (rest, unscaled) ← scanExp rest
  some (rest, whole && unscaled)

def scanNum (c : Pctx) : Except Stop (Pctx × JsonStr × Bool) :=
  match scanLiteral c.rest with
  | none => c.fail .eSyntax
  | some (rest, isint) =>
    .ok (c.moveTo rest, { off := c.p, len := c.rest.length - rest.length }, isint)

def scanLit (c : Pctx) (lit : List UInt8) : Except Stop (Pctx × JsonStr) :=
  if lit.isPrefixOf c.rest then
    .ok (c.moveTo (c.rest.drop lit.length), { off := c.p, len := lit.length })
  else c.fail .eSyntax

def parseKey (obj : Bool) (c : Pctx) : Except Stop (Pctx × JsonStr × Bool) :=
  if obj then
    let c := skipWs c
    if c.rest.head? = some quote then do
      let (c, key, kesc) ← scanStr c
      let c := skipWs c
      if c.rest.head? = some colon then
        .ok (c.moveTo c.rest.tail, key, kesc)
      else c.fail .eSyntax
    else c.fail .eSyntax
  else .ok (c, {}, false)

def linkChild (idx prev child : Nat) (key : JsonStr) (kesc : Bool) (c : Pctx) : Pctx :=
  let c := c.setNode child fun n =>
    { n with key := key, kesc := n.kesc || kesc }
  let c :=
    if prev ≠ 0 then c.setNode prev fun n => { n with next := child }
    else c.setNode idx fun n => { n with first := child }
  c.setNode idx fun n => { n with count := n.count + 1 }

def parseChildren (value : Pctx → Except Stop (Pctx × Nat)) (obj : Bool)
    (idx : Nat) : Nat → Nat → Pctx → Except Stop Pctx
  | 0, _, _ => .error .stalled
  | fuel + 1, prev, c => do
      let (c, key, kesc) ← parseKey obj c
      let (c, child) ← value c
      let c := skipWs (linkChild idx prev child key kesc c)
      match c.rest with
      | [] => c.fail .eSyntax
      | ch :: rest =>
        if ch = comma then
          parseChildren value obj idx fuel child (c.moveTo rest)
        else if ch = closeOf obj then .ok (c.moveTo rest)
        else c.fail .eSyntax

def parseInside (value : Pctx → Except Stop (Pctx × Nat)) (obj : Bool)
    (idx : Nat) (c : Pctx) : Except Stop Pctx :=
  let c := skipWs c
  match c.rest with
  | [] => c.fail .eSyntax
  | ch :: rest =>
    if ch = closeOf obj then .ok (c.moveTo rest)
    else parseChildren value obj idx (c.rest.length + 1) 0 c

def parseContainer (value : Pctx → Except Stop (Pctx × Nat)) (obj : Bool)
    (idx : Nat) (c : Pctx) : Except Stop Pctx := do
  let start := c.p
  let c ← parseInside value obj idx (c.moveTo c.rest.tail)
  .ok (c.setNode idx fun n =>
    { n with
      type := if obj then .obj else .arr
      raw := { off := start, len := c.p - start } })

def parseScalar (ch : UInt8) (out : Nat) (c : Pctx) : Except Stop Pctx :=
  if ch = quote then do
    let (c, raw, esc) ← scanStr c
    .ok (c.setNode out fun n => { n with type := .str, raw := raw, esc := esc })
  else if ch = 0x74 then do
    let (c, raw) ← scanLit c litTrue
    .ok (c.setNode out fun n => { n with type := .bool, raw := raw })
  else if ch = 0x66 then do
    let (c, raw) ← scanLit c litFalse
    .ok (c.setNode out fun n => { n with type := .bool, raw := raw })
  else if ch = 0x6E then do
    let (c, raw) ← scanLit c litNull
    .ok (c.setNode out fun n => { n with type := .null, raw := raw })
  else do
    let (c, raw, isint) ← scanNum c
    .ok (c.setNode out fun n =>
      { n with type := .num, raw := raw, int := isint })

def parseNode (value : Pctx → Except Stop (Pctx × Nat)) (ch : UInt8)
    (out : Nat) (c : Pctx) : Except Stop Pctx :=
  if ch = openOf true then parseContainer value true out c
  else if ch = openOf false then parseContainer value false out c
  else parseScalar ch out c

def parseValue (cap : Nat) : Nat → Pctx → Except Stop (Pctx × Nat)
  | 0, c => c.fail .eDepth
  | levels + 1, c =>
    let c := skipWs c
    match c.rest with
    | [] => c.fail .eSyntax
    | ch :: _ => do
        let (c, out) ← allocNode cap c
        let c ← parseNode (parseValue cap levels) ch out c
        .ok (c, out)

def parseDocument (cap : Nat) (c : Pctx) : Except Stop Pctx := do
  let (c, _) ← parseValue cap jsonMaxDepth c
  let c := skipWs c
  if c.rest = [] then .ok c else c.fail .eTrailing

def jsonDocInit (cap : Nat) : JsonDoc where
  cap := cap

/-- `none` only if the parse stalled; the code is `none` for `JSON_OK`. -/
def jsonParse (d : JsonDoc) (buf : List UInt8) : Option (JsonDoc × Option JsonErr) :=
  if d.cap = 0 ∨ buf.length > intMax then some (d, some .eInval)
  else
    let skipped := if bom.isPrefixOf buf then bom.length else 0
    let c : Pctx := { nodes := [], p := skipped, rest := buf.drop skipped }
    match parseDocument d.cap c with
    | .ok c => some ({ d with nodes := c.nodes, buf := buf, errOff := 0 }, none)
    | .error (.fail rc p) =>
      some ({ d with nodes := [], buf := buf, errOff := p }, some rc)
    | .error .stalled => none

end Pro2Call.Json

import Pro2Call.Sip.Param

namespace Pro2Call.Sip

open Pro2Call.Data

structure SipAddr where
  display : Option Bytes
  uri : Bytes
  params : Option Bytes
  tag : Option Bytes
  deriving DecidableEq, Repr

def closeQuote : Bytes → Option (Bytes × Bytes)
  | [] => none
  | c :: rest =>
    if c = quote then some ([], rest)
    else if c = backslash then
      match rest with
      | [] => none
      | d :: rest => (closeQuote rest).map fun parts => (c :: d :: parts.1, parts.2)
    else (closeQuote rest).map fun parts => (c :: parts.1, parts.2)

def withTag (display : Option Bytes) (uri : Bytes) (params : Option Bytes) : SipAddr :=
  ⟨display, uri, params, params.bind (sipParam · (ascii "tag"))⟩

def paramsBehind (p : Bytes) : Option Bytes :=
  let q := p.dropWhile sipIsWs
  if q.head? = some semi then some q.tail else none

def parseAngle (display p : Bytes) : Except SipErr SipAddr :=
  match breakAt 0x3E p with
  | none => .error .uri
  | some (uri, p) =>
    if uri = [] then .error .uri else .ok (withTag (some display) uri (paramsBehind p))

def parseBare (p : Bytes) : Except SipErr SipAddr :=
  let (front, params) :=
    match breakAt semi p with
    | none => (p, none)
    | some (front, params) => (front, some params)
  let uri := front.rdropWhile sipIsWs
  if uri = [] then .error .uri else .ok (withTag none uri params)

def sipAddrParse (value : Bytes) : Except SipErr SipAddr :=
  if value = [] then .error .uri
  else
    let p := value.dropWhile sipIsWs
    if p.head? = some quote then
      match closeQuote p.tail with
      | none => .error .uri
      | some (display, p) =>
        match breakAt 0x3C p with
        | none => .error .uri
        | some (_, p) => parseAngle display p
    else
      match breakAt 0x3C p with
      | none => parseBare p
      | some (display, p) => parseAngle (display.rdropWhile sipIsWs) p

structure SipVia where
  transport : Bytes
  host : Bytes
  port : Nat
  params : Option Bytes
  branch : Option Bytes
  deriving DecidableEq, Repr

def sipViaParse (value : Bytes) : Except SipErr SipVia :=
  if value.length < 8 ∨ (value.take 8).map sipLc ≠ ascii "sip/2.0/" then .error .header
  else
    let p := value.drop 8
    let transport := p.takeWhile (outside (ascii " \t"))
    let q := p.dropWhile (outside (ascii " \t"))
    if transport = [] ∨ q = [] then .error .header
    else
      match parseHostport (q.dropWhile sipIsWs) with
      | .error _ => .error .header
      | .ok (host, port, p) =>
        let params := paramsBehind p
        .ok ⟨transport, host, port, params, params.bind (sipParam · (ascii "branch"))⟩

/-! Header values as the grammar has them, in front of their parameters. -/

def isUriChar (c : UInt8) : Bool := isUnreserved c || (ascii ";/?:@&=+$,[]\x60").contains c

/-- A name and a URI in angle brackets, or a URI alone. The white space in front
of the bracket belongs to a name of tokens. -/
inductive AddrFront where
  | tokens (display uri : Bytes)
  | quoted (display : List QuotedChar) (gap uri : Bytes)
  | bare (uri : Bytes)
  deriving DecidableEq, Repr

def AddrFront.text : AddrFront → Bytes
  | .tokens display uri => display ++ 0x3C :: (uri ++ [0x3E])
  | .quoted display gap uri =>
    quote :: (quotedText display ++ quote :: (gap ++ 0x3C :: (uri ++ [0x3E])))
  | .bare uri => uri

def AddrFront.uri : AddrFront → Bytes
  | .tokens _ uri => uri
  | .quoted _ _ uri => uri
  | .bare uri => uri

def AddrFront.Grammar : AddrFront → Prop
  | .tokens display uri => (∀ c ∈ display, isToken c || isGap c) ∧ uri ≠ [] ∧ ∀ c ∈ uri, isUriChar c
  | .quoted display gap uri => (∀ char ∈ display, char.Grammar) ∧ (∀ c ∈ gap, isGap c) ∧
      uri ≠ [] ∧ ∀ c ∈ uri, isUriChar c
  | .bare uri => uri ≠ [] ∧ ∀ c ∈ uri, isUriChar c ∧ c ∉ ascii ";,?"

def withParams (trail : Bytes) (params : List GenericParam) : Bytes :=
  trail ++ if params = [] then [] else semi :: paramsText params

structure AddrText where
  lead : Bytes := []
  front : AddrFront
  trail : Bytes := []
  deriving DecidableEq, Repr

def AddrText.text (a : AddrText) (params : List GenericParam) : Bytes :=
  a.lead ++ (a.front.text ++ withParams a.trail params)

structure AddrText.Grammar (a : AddrText) : Prop where
  lead : ∀ c ∈ a.lead, isGap c
  front : a.front.Grammar
  trail : ∀ c ∈ a.trail, isGap c

def slash (gaps : Bytes × Bytes) : Bytes := gaps.1 ++ 0x2F :: gaps.2

/-- `slashes` is the white space around the slashes; the port comes with that
around the colon. -/
structure ViaText where
  name : Bytes
  slashes : (Bytes × Bytes) × (Bytes × Bytes) := (([], []), ([], []))
  transport : Bytes
  gap : Bytes
  host : Host
  port : Option (Bytes × Bytes × Bytes) := none
  trail : Bytes := []
  deriving DecidableEq, Repr

def ViaText.protocol (v : ViaText) : Bytes :=
  v.name ++ (slash v.slashes.1 ++ (ascii "2.0" ++ slash v.slashes.2))

def ViaText.text (v : ViaText) (params : List GenericParam) : Bytes :=
  v.protocol ++ (v.transport ++ (v.gap ++ (v.host.text ++
    (v.port.elim [] (fun (left, right, digits) => left ++ colon :: (right ++ digits)) ++
      withParams v.trail params))))

structure ViaText.Grammar (v : ViaText) : Prop where
  name : v.name.map lower = ascii "sip"
  transport : v.transport ≠ [] ∧ ∀ c ∈ v.transport, isToken c
  gap : v.gap ≠ []
  gaps : ∀ gap ∈ [v.slashes.1.1, v.slashes.1.2, v.slashes.2.1, v.slashes.2.2, v.gap, v.trail] ++
    v.port.elim [] (fun (left, right, _) => [left, right]), ∀ c ∈ gap, isGap c
  host : v.host.Grammar
  port : ∀ port ∈ v.port, port.2.2 ≠ [] ∧ port.2.2.all isDigit

/-- No folded line, but in front of a name of tokens, and no angle bracket behind a URI
that stands alone. -/
structure AddrText.Plain (a : AddrText) (params : List GenericParam) : Prop where
  lead : (∃ display uri, a.front = .tokens display uri) ∨ ∀ c ∈ a.lead, sipIsWs c = true
  trail : ∀ c ∈ a.trail, sipIsWs c = true
  bare : ∀ uri, a.front = .bare uri → (0x3C : UInt8) ∉ paramsText params

/-- No white space around the slashes and the colon, no folded line, and a port
that fits. -/
structure ViaText.Plain (v : ViaText) : Prop where
  slashes : v.slashes = (([], []), ([], []))
  port : ∀ port ∈ v.port, port.1 = [] ∧ port.2.1 = []
  fits : PortFits (v.port.map fun port => port.2.2)
  gaps : ∀ gap ∈ [v.gap, v.trail], ∀ c ∈ gap, sipIsWs c = true
  short : v.host.value.length < 2 ^ 32

variable {params : List GenericParam}

theorem paramsBehind_text {trail : Bytes} (blank : ∀ c ∈ trail, sipIsWs c = true) :
    paramsBehind (withParams trail params) =
      if params = [] then none else some (paramsText params) := by
  rw [paramsBehind, withParams]
  by_cases bare : params = []
  · rw [if_pos bare, if_pos bare, List.append_nil, List.dropWhile_eq_nil_iff.mpr blank]
    rfl
  · rw [if_neg bare, if_neg bare, dropWhile_append_of_stops blank (by simp [sipIsWs, semi])]
    rfl

theorem bind_sipParam (grammar : ∀ p ∈ params, p.Grammar) {name : Bytes} (present : name ≠ [])
    (token : ∀ c ∈ name, isToken c) (clear : Clear name params) :
    (if params = [] then none else some (paramsText params)).bind (sipParam · name) =
      paramValue params name := by
  by_cases bare : params = []
  · rw [if_pos bare, bare]
    rfl
  · rw [if_neg bare]
    exact sipParam_paramsText token present grammar clear

theorem closeQuote_text (grammar : ∀ char ∈ chars, char.Grammar) (rest : Bytes) :
    closeQuote (quotedText chars ++ quote :: rest) = some (quotedText chars, rest) := by
  induction chars with
  | nil =>
    rw [quotedText, List.flatMap_nil, List.nil_append, closeQuote.eq_def]
    exact if_pos rfl
  | cons char chars ih =>
    obtain ⟨first, others⟩ := List.forall_mem_cons.mp grammar
    have later := ih others
    rw [quotedText] at later ⊢
    cases char with
    | plain c =>
      rw [List.flatMap_cons, QuotedChar.text, List.append_assoc, List.singleton_append,
        closeQuote.eq_def]
      dsimp only
      rw [if_neg first.1, if_neg first.2, later]
      rfl
    | pair c =>
      rw [List.flatMap_cons, QuotedChar.text, List.append_assoc]
      simp only [List.cons_append, List.nil_append]
      rw [closeQuote.eq_def]
      dsimp only
      rw [if_neg (by decide), if_pos rfl, later]
      rfl

theorem parseAngle_text {display uri trail : Bytes} (present : uri ≠ [])
    (chars : ∀ c ∈ uri, isUriChar c) (blank : ∀ c ∈ trail, sipIsWs c = true) :
    parseAngle display (uri ++ [0x3E] ++ withParams trail params) = .ok
      (withTag (some display) uri (if params = [] then none else some (paramsText params))) := by
  have clean : (0x3E : UInt8) ∉ uri := fun member => absurd (chars _ member) (by decide)
  rw [List.append_assoc, List.singleton_append, parseAngle, breakAt_append clean]
  dsimp only
  rw [if_neg present, paramsBehind_text blank]

theorem isUriChar_bare {c : UInt8} (inside : isUriChar c) : sipIsWs c = false :=
  sipIsWs_of_class (by decide) (by decide) inside

theorem parseBare_text {uri trail : Bytes} (present : uri ≠ [])
    (chars : ∀ c ∈ uri, isUriChar c ∧ c ∉ ascii ";,?") (blank : ∀ c ∈ trail, sipIsWs c = true) :
    parseBare (uri ++ withParams trail params) =
      .ok (withTag none uri (if params = [] then none else some (paramsText params))) := by
  have clean : semi ∉ uri ++ trail := by
    rw [List.mem_append, not_or]
    exact ⟨fun member => (chars _ member).2 (by decide),
      fun member => absurd (blank _ member) (by decide)⟩
  have trimmed : (uri ++ trail).rdropWhile sipIsWs = uri :=
    rdropWhile_append_of_last (fun c last => isUriChar_bare (chars c (List.mem_of_getLast? last)).1)
      blank
  rw [parseBare, withParams, ← List.append_assoc]
  by_cases bare : params = []
  · rw [if_pos bare, if_pos bare, List.append_nil, breakAt_eq_none clean]
    dsimp only
    rw [trimmed, if_neg present]
  · rw [if_neg bare, if_neg bare, breakAt_append clean]
    dsimp only
    rw [trimmed, if_neg present]

section Addr

variable {trail : Bytes} (trailBlank : ∀ c ∈ trail, sipIsWs c = true)
include trailBlank

theorem sipAddrParse_tokens {display uri : Bytes} (tokens : ∀ c ∈ display, isToken c || isGap c)
    (present : uri ≠ []) (chars : ∀ c ∈ uri, isUriChar c) :
    ∃ shown, sipAddrParse (AddrFront.text (.tokens display uri) ++ withParams trail params) =
      .ok (withTag (some shown) uri (if params = [] then none else some (paramsText params))) := by
  have clean {m : UInt8} (mark : ¬(isToken m || isGap m)) : m ∉ display.dropWhile sipIsWs :=
    fun member => mark (tokens m ((List.dropWhile_suffix _).mem member))
  have skipped :
      (AddrFront.text (.tokens display uri) ++ withParams trail params).dropWhile sipIsWs =
        display.dropWhile sipIsWs ++ 0x3C :: (uri ++ [0x3E] ++ withParams trail params) := by
    rw [AddrFront.text, List.append_assoc, List.dropWhile_append]
    split
    next empty => simp_all [sipIsWs]
    next => simp
  have opens : (display.dropWhile sipIsWs ++
      0x3C :: (uri ++ [0x3E] ++ withParams trail params)).head? ≠ some quote := by
    cases shown : display.dropWhile sipIsWs with
    | nil => simp [quote]
    | cons c rest =>
      rintro ⟨⟩
      exact clean (by decide) (shown ▸ List.mem_cons_self)
  refine ⟨(display.dropWhile sipIsWs).rdropWhile sipIsWs, ?_⟩
  rw [sipAddrParse, if_neg (by simp [AddrFront.text])]
  dsimp only
  rw [skipped, if_neg opens, breakAt_append (clean (by decide))]
  exact parseAngle_text present chars trailBlank

variable {lead : Bytes} (leadBlank : ∀ c ∈ lead, sipIsWs c = true)
include leadBlank

theorem sipAddrParse_quoted {gap uri : Bytes}
    (grammar : ∀ char ∈ display, char.Grammar) (white : ∀ c ∈ gap, isGap c)
    (present : uri ≠ []) (chars : ∀ c ∈ uri, isUriChar c) :
    sipAddrParse (lead ++ (AddrFront.text (.quoted display gap uri) ++ withParams trail params)) =
      .ok (withTag (some (quotedText display)) uri
        (if params = [] then none else some (paramsText params))) := by
  have clean : (0x3C : UInt8) ∉ gap := fun member => absurd (white _ member) (by decide)
  have shape : AddrFront.text (.quoted display gap uri) ++ withParams trail params =
      quote :: (quotedText display ++ quote :: (gap ++ 0x3C :: (uri ++ [0x3E] ++
        withParams trail params))) := by
    simp [AddrFront.text]
  rw [shape, sipAddrParse, if_neg (by simp)]
  dsimp only
  rw [dropWhile_append_of_stops leadBlank (by simp [sipIsWs, quote]), List.head?_cons, if_pos rfl,
    List.tail_cons, closeQuote_text grammar]
  dsimp only
  rw [breakAt_append clean]
  exact parseAngle_text present chars trailBlank

theorem sipAddrParse_bare {uri : Bytes} (present : uri ≠ [])
    (chars : ∀ c ∈ uri, isUriChar c ∧ c ∉ ascii ";,?")
    (unmarked : (0x3C : UInt8) ∉ paramsText params) :
    sipAddrParse (lead ++ (uri ++ withParams trail params)) =
      .ok (withTag none uri (if params = [] then none else some (paramsText params))) := by
  obtain ⟨first, rest, split⟩ := List.exists_cons_of_ne_nil present
  have start := (chars first (by simp [split])).1
  have bare := isUriChar_bare start
  have other : first ≠ quote := by
    rintro rfl
    exact absurd start (by decide)
  have clean : (0x3C : UInt8) ∉ uri ++ withParams trail params := by
    rw [withParams, List.mem_append, List.mem_append]
    rintro (inUri | inTrail | inParams)
    · exact absurd (chars _ inUri).1 (by decide)
    · exact absurd (trailBlank _ inTrail) (by decide)
    · split at inParams
      · contradiction
      · exact unmarked ((List.mem_cons.mp inParams).resolve_left (by decide))
  rw [sipAddrParse, if_neg (by simp [split])]
  dsimp only
  rw [dropWhile_append_of_stops leadBlank (by simp [split, bare]),
    if_neg (by simpa [split] using other), breakAt_eq_none clean]
  exact parseBare_text present chars trailBlank

end Addr

theorem AddrText.Grammar.parse {a : AddrText} (grammar : a.Grammar) (plain : a.Plain params) :
    ∃ display, sipAddrParse (a.text params) = .ok (withTag display a.front.uri
      (if params = [] then none else some (paramsText params))) := by
  obtain ⟨lead, front, trail⟩ := grammar
  have blank (other : ∀ display uri, a.front ≠ .tokens display uri) :
      ∀ c ∈ a.lead, sipIsWs c = true :=
    plain.lead.resolve_left fun ⟨display, uri, form⟩ => other display uri form
  rw [AddrText.text]
  cases form : a.front with
  | tokens display uri =>
    rw [form] at front
    obtain ⟨tokens, present, chars⟩ := front
    -- the white space in front counts as part of the name
    have shown : ∀ c ∈ a.lead ++ display, isToken c || isGap c :=
      List.forall_mem_append.mpr ⟨fun c member => by simp [lead c member], tokens⟩
    obtain ⟨shown, parsed⟩ := sipAddrParse_tokens plain.trail shown present chars
    refine ⟨some shown, ?_⟩
    simpa [AddrFront.text, AddrFront.uri] using parsed
  | quoted display gap uri =>
    rw [form] at front
    obtain ⟨chars, white, present, uriChars⟩ := front
    exact ⟨_, sipAddrParse_quoted plain.trail (blank (by simp [form])) chars white present uriChars⟩
  | bare uri =>
    rw [form] at front
    exact ⟨_, sipAddrParse_bare plain.trail (blank (by simp [form])) front.1 front.2
      (plain.bare uri form)⟩

theorem ViaText.Grammar.protocol {v : ViaText} (grammar : v.Grammar) (plain : v.Plain) :
    v.protocol.length = 8 ∧ v.protocol.map sipLc = ascii "sip/2.0/" := by
  have name := map_sipLc_of_letters (letters_of_map grammar.name (by decide +kernel))
  have length : v.name.length = 3 := by
    rw [← List.length_map lower, grammar.name]
    rfl
  rw [ViaText.protocol, plain.slashes]
  refine ⟨by simp [slash, length, ascii], ?_⟩
  rw [List.map_append, name, grammar.name]
  decide

theorem stops_withParams {trail : Bytes} (blank : ∀ c ∈ trail, sipIsWs c = true) :
    Stops (outside (ascii ";? \t")) (withParams trail params) := by
  have marks (c : UInt8) (white : sipIsWs c) : outside (ascii ";? \t") c = false := by
    obtain rfl | rfl := sipIsWs_iff.mp white <;> decide
  rw [withParams]
  cases trail with
  | nil =>
    rw [List.nil_append]
    split
    · exact stops_nil _
    · exact (stops_cons _ _ _).mpr (by decide)
  | cons c rest => exact (stops_cons _ _ _).mpr (marks c (blank c List.mem_cons_self))

theorem Host.Grammar.stops {host : Host} (grammar : host.Grammar) (rest : Bytes) :
    Stops sipIsWs (host.text ++ rest) := by
  cases host with
  | name text =>
    obtain ⟨present, chars⟩ := grammar
    obtain ⟨c, text, rfl⟩ := List.exists_cons_of_ne_nil present
    exact (stops_cons _ _ _).mpr (sipIsWs_of_class
      (p := fun c => isAlphanum c || (ascii "-.").contains c) (by decide)
      (by decide) (chars c List.mem_cons_self))
  | ipv6 text => exact (stops_cons _ _ _).mpr (by decide)

variable (params) in
theorem ViaText.Grammar.parse {v : ViaText} (grammar : v.Grammar) (plain : v.Plain) :
    ∃ port, sipViaParse (v.text params) = .ok ⟨v.transport, v.host.value, port,
      if params = [] then none else some (paramsText params),
      (if params = [] then none else some (paramsText params)).bind
        (sipParam · (ascii "branch"))⟩ := by
  have gapBlank := plain.gaps v.gap (by simp)
  have trailBlank := plain.gaps v.trail (by simp)
  have blank (c : UInt8) (white : sipIsWs c) : outside (ascii " \t") c = false := by
    obtain rfl | rfl := sipIsWs_iff.mp white <;> decide
  have tokens : ∀ c ∈ v.transport, outside (ascii " \t") c = true := fun c member =>
    outside_of_class (by decide) (grammar.transport.2 c member)
  obtain ⟨length, protocol⟩ := grammar.protocol plain
  have port : v.port.elim [] (fun (left, right, digits) => left ++ colon :: (right ++ digits)) =
      behind colon (v.port.map fun port => port.2.2) := by
    cases form : v.port with
    | none => rfl
    | some parts =>
      obtain ⟨left, right, digits⟩ := parts
      obtain ⟨rfl, rfl⟩ := plain.port _ form
      rfl
  have decimal : ∀ digits ∈ v.port.map (fun port => port.2.2),
      digits ≠ [] ∧ digits.all isDigit := by
    intro digits member
    obtain ⟨parts, form, rfl⟩ := Option.map_eq_some_iff.mp member
    exact grammar.port parts form
  have ends : Stops (outside (ascii ";? \t")) (withParams v.trail params) :=
    stops_withParams trailBlank
  have hostPresent : v.host.value.length % 2 ^ 32 ≠ 0 := by
    rw [Nat.mod_eq_of_lt plain.short]
    exact grammar.host.value_pos.ne'
  have read := (grammar.host.parseHostport decimal ends).mpr ⟨hostPresent, plain.fits, rfl⟩
  obtain ⟨first, gap, split⟩ := List.exists_cons_of_ne_nil grammar.gap
  have stops (rest : Bytes) : Stops (outside (ascii " \t")) (v.gap ++ rest) := by
    rw [split, List.cons_append, stops_cons]
    exact blank first (gapBlank first (by simp [split]))
  have front (rest : Bytes) : (v.protocol ++ rest).take 8 = v.protocol := List.take_left' length
  have back (rest : Bytes) : (v.protocol ++ rest).drop 8 = rest := List.drop_left' length
  have long (rest : Bytes) : ¬(v.protocol ++ rest).length < 8 := by
    rw [List.length_append]
    omega
  refine ⟨(v.port.map fun port => port.2.2).elim 0 decimalValue, ?_⟩
  rw [ViaText.text, port, sipViaParse, front, back, protocol, if_neg (not_or.mpr ⟨long _, by simp⟩)]
  dsimp only
  rw [takeWhile_append_of_stops tokens (stops _), dropWhile_append_of_stops tokens (stops _),
    if_neg (by simp [grammar.transport.1, split]),
    dropWhile_append_of_stops gapBlank (grammar.host.stops _), read]
  dsimp only
  rw [paramsBehind_text trailBlank, cut_eq_iff.mpr plain.short]

/-- With nothing in its way the first parameter with the name is found, in a list of
parameters and behind an address or a Via. -/
theorem sipParam_generic (grammar : ∀ p ∈ params, p.Grammar) :
    (∀ name, name ≠ [] → (∀ c ∈ name, isToken c) → Clear name params →
      sipParam (paramsText params) name = paramValue params name) ∧
    (∀ a : AddrText, a.Grammar → a.Plain params → Clear (ascii "tag") params →
      ∃ addr, sipAddrParse (a.text params) = .ok addr ∧ addr.uri = a.front.uri ∧
        addr.tag = paramValue params (ascii "tag")) ∧
    ∀ v : ViaText, v.Grammar → v.Plain → Clear (ascii "branch") params →
      ∃ via, sipViaParse (v.text params) = .ok via ∧ via.transport = v.transport ∧
        via.host = v.host.value ∧ via.branch = paramValue params (ascii "branch") := by
  refine ⟨fun name present token => sipParam_paramsText token present grammar,
    fun a right unfolded clear => ?_, fun v right unfolded clear => ?_⟩
  · obtain ⟨display, parsed⟩ := right.parse unfolded
    exact ⟨_, parsed, rfl, bind_sipParam grammar (by decide) (by decide +kernel) clear⟩
  · obtain ⟨port, parsed⟩ := right.parse params unfolded
    exact ⟨_, parsed, rfl, rfl, bind_sipParam grammar (by decide) (by decide +kernel) clear⟩

def viaParams : List GenericParam :=
  [{ name := ascii "x", value := some ([], [], .quoted ((ascii "a;b").map .plain)) },
    { lead := [space], name := ascii "Branch"
      value := some ([space], [], .quoted [.plain 0x7A, .pair quote]) },
    { name := ascii "y", value := some ([], [], .quoted ((ascii ";branch=1").map .plain)) }]

theorem sipParam_generic_via :
    sipParam (ascii "x=\"a;b\"; Branch =\"z\\\"\";y=\";branch=1\"") (ascii "branch") =
      some (ascii "\"z\\\"\"") ∧
    ∃ via, sipViaParse (ascii
        "SIP/2.0/UDP a:5060;x=\"a;b\"; Branch =\"z\\\"\";y=\";branch=1\"") = .ok via ∧
      via.branch = some (ascii "\"z\\\"\"") := by
  have clear : Clear (ascii "branch") viaParams :=
    ⟨by decide +kernel, ⟨by decide +kernel, by decide +kernel⟩⟩
  obtain ⟨value, -, via⟩ := @sipParam_generic viaParams
    (List.forall_mem_cons.mpr ⟨⟨by decide +kernel, by decide, by decide +kernel⟩,
      List.forall_mem_cons.mpr ⟨⟨by decide +kernel, by decide, by decide +kernel⟩,
        List.forall_mem_singleton.mpr ⟨by decide +kernel, by decide, by decide +kernel⟩⟩⟩)
  obtain ⟨found, parsed, -, -, branch⟩ := via
    { name := ascii "SIP", transport := ascii "UDP", gap := [space], host := .name (ascii "a")
      port := some ([], [], ascii "5060") }
    ⟨by decide +kernel, by decide +kernel, by decide, by decide +kernel, by decide +kernel,
      by decide +kernel⟩
    ⟨rfl, by decide +kernel, by decide +kernel, by decide +kernel, by decide +kernel⟩ clear
  exact ⟨value (ascii "branch") (by decide) (by decide +kernel) clear, found, parsed, branch⟩

/-- A tag in the quoted string of another parameter is taken for the tag. -/
theorem sipParam_quoted_semicolon :
    paramsText [
        { name := ascii "x", value := some ([], [], .quoted ((ascii ";tag=1").map .plain)) },
        { name := ascii "tag", value := some ([], [], .plain (ascii "2")) }] =
      ascii "x=\";tag=1\";tag=2" ∧
    sipParam (ascii "x=\";tag=1\";tag=2") (ascii "tag") = some (ascii "1\"") := by
  decide +kernel

end Pro2Call.Sip

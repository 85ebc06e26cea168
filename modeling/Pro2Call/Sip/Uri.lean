import Pro2Call.Data.Run
import Pro2Call.Sip.HdrNames

namespace Pro2Call.Sip

open Pro2Call.Data

def semi : UInt8 := 0x3B

def question : UInt8 := 0x3F

def atSign : UInt8 := 0x40

inductive UriScheme where
  | sip | sips | tel | other
  deriving DecidableEq, Repr

structure SipUri where
  scheme : UriScheme
  schemeName : Bytes
  user : Option Bytes
  host : Bytes
  port : Nat
  params : Option Bytes
  headers : Option Bytes
  deriving DecidableEq, Repr

/-- A slice whose length was narrowed to 32 bits. -/
def cut (s : Bytes) : Bytes := s.take (s.length % 2 ^ 32)

def outside (set : Bytes) (c : UInt8) : Bool := !set.contains c

def parseHost (p : Bytes) : Except SipErr (Bytes × Bytes) :=
  if p.head? = some 0x5B then
    match breakAt 0x5D p with
    | none => .error .uri
    | some (front, rest) => .ok (cut front.tail, rest)
  else
    .ok (cut (p.takeWhile (outside (ascii ":;? \t"))), p.dropWhile (outside (ascii ":;? \t")))

def parseHostport (p : Bytes) : Except SipErr (Bytes × Nat × Bytes) := do
  let (host, p) ← parseHost p
  if host.length = 0 then .error .uri
  else if p.head? = some colon then
    match sipParseU32 (p.tail.takeWhile (outside (ascii ";? \t"))) with
    | none => .error .uri
    | some v =>
      if v = 0 ∨ 0xFFFF < v then .error .uri
      else .ok (host, v, p.tail.dropWhile (outside (ascii ";? \t")))
  else .ok (host, 0, p)

def parseTail (p : Bytes) : Option Bytes × Option Bytes :=
  let (front, headers) :=
    match breakAt question p with
    | none => (p, none)
    | some (front, headers) => (front, some (cut headers))
  (if front.head? = some semi then some (cut front.tail) else none, headers)

def uriScheme (name : Bytes) : UriScheme :=
  if name.length = 3 ∧ name.map sipLc = ascii "sip" then .sip
  else if name.length = 4 ∧ name.map sipLc = ascii "sips" then .sips
  else if name.length = 3 ∧ name.map sipLc = ascii "tel" then .tel
  else .other

/-- The last `@` in front of the first `;` or `?` ends the user. -/
def splitUser (p : Bytes) : Option Bytes × Bytes :=
  match breakAt atSign (p.takeWhile (outside (ascii ";?"))).reverse with
  | none => (none, p)
  | some (_, user) => (some (cut user.reverse), p.drop (user.length + 1))

def sipUriParse (b : Bytes) : Except SipErr SipUri :=
  match breakAt colon b with
  | none => .error .uri
  | some (name, p) =>
    if name = [] then .error .uri
    else if uriScheme name = .tel then
      let user := cut (p.takeWhile (outside (ascii ";?")))
      if user.length = 0 then .error .uri
      else
        let (params, headers) := parseTail (p.dropWhile (outside (ascii ";?")))
        .ok ⟨.tel, cut name, some user, [], 0, params, headers⟩
    else do
      let (user, p) := splitUser p
      let (host, port, p) ← parseHostport p
      let (params, headers) := parseTail p
      .ok ⟨uriScheme name, cut name, user, host, port, params, headers⟩

/-! The texts of SIP and SIPS URIs, by their parts. Every URI of RFC 3261 has this
form; `%` stands for the escapes, whose digits are among the letters. -/

def isAlphanum (c : UInt8) : Bool := isDigit c || isLetter (lower c)

def isUnreserved (c : UInt8) : Bool := isAlphanum c || (ascii "-_.!~*'()%").contains c

inductive Host where
  | name (text : Bytes)
  | ipv6 (text : Bytes)
  deriving DecidableEq, Repr

def Host.text : Host → Bytes
  | .name text => text
  | .ipv6 text => 0x5B :: text ++ [0x5D]

def Host.value : Host → Bytes
  | .name text => text
  | .ipv6 text => text

structure UriText where
  scheme : Bytes
  userinfo : Option Bytes
  host : Host
  port : Option Bytes
  params : Option Bytes
  headers : Option Bytes
  deriving DecidableEq, Repr

def behind (mark : UInt8) (part : Option Bytes) : Bytes := part.elim [] (mark :: ·)

def UriText.tail (u : UriText) : Bytes := behind semi u.params ++ behind question u.headers

def UriText.hostport (u : UriText) : Bytes := u.host.text ++ behind colon u.port

def UriText.text (u : UriText) : Bytes :=
  u.scheme ++ colon :: (u.userinfo.elim [] (· ++ [atSign]) ++ (u.hostport ++ u.tail))

def Host.Grammar : Host → Prop
  | .name text => text ≠ [] ∧ ∀ c ∈ text, isAlphanum c || (ascii "-.").contains c
  | .ipv6 text => text ≠ [] ∧ ∀ c ∈ text, isAlphanum c || (ascii ":.").contains c

instance : (host : Host) → Decidable host.Grammar
  | .name _ => inferInstanceAs (Decidable (_ ∧ _))
  | .ipv6 _ => inferInstanceAs (Decidable (_ ∧ _))

theorem Host.Grammar.value_pos {host : Host} (grammar : host.Grammar) : 0 < host.value.length := by
  cases host with
  | name text => exact List.length_pos_iff.mpr grammar.1
  | ipv6 text => exact List.length_pos_iff.mpr grammar.1

structure UriText.Grammar (u : UriText) : Prop where
  scheme : u.scheme.map lower = ascii "sip" ∨ u.scheme.map lower = ascii "sips"
  userinfo : ∀ info ∈ u.userinfo, ∀ c ∈ info, isUnreserved c || (ascii "&=+$,;?/:").contains c
  host : u.host.Grammar
  port : ∀ digits ∈ u.port, digits ≠ [] ∧ digits.all isDigit
  params : ∀ text ∈ u.params, ∀ c ∈ text, isUnreserved c || (ascii "[]/:&+$=;\x60").contains c
  headers : ∀ text ∈ u.headers, ∀ c ∈ text, isUnreserved c || (ascii "[]/?:+$&=").contains c

def UriText.kind (u : UriText) : UriScheme :=
  if u.scheme.map lower = ascii "sip" then .sip else .sips

def UriText.parts (u : UriText) : SipUri where
  scheme := u.kind
  schemeName := u.scheme
  user := u.userinfo
  host := u.host.value
  port := u.port.elim 0 decimalValue
  params := u.params
  headers := u.headers

def PortFits (port : Option Bytes) : Prop :=
  ∀ digits ∈ port, digits.length ≤ 10 ∧ 0 < decimalValue digits ∧ decimalValue digits ≤ 0xFFFF

instance (port : Option Bytes) : Decidable (PortFits port) :=
  inferInstanceAs (Decidable (∀ digits ∈ port, _))

structure UriText.Plain (u : UriText) : Prop where
  userinfo : ∀ info ∈ u.userinfo, semi ∉ info ∧ question ∉ info
  port : PortFits u.port
  short : u.host.value.length < 2 ^ 32 ∧
    ∀ part ∈ [u.userinfo, u.params, u.headers], ∀ text ∈ part, text.length < 2 ^ 32

theorem mem_of_outside {set : Bytes} (stop : outside set c = false) : c ∈ set := by
  simpa [outside] using stop

theorem outside_of_class {set : Bytes} (apart : set.any p = false)
    (inside : p c) : outside set c := by
  by_contra marked
  exact List.any_eq_false.mp apart c (mem_of_outside (Bool.eq_false_iff.mpr marked)) inside

theorem sipIsWs_iff : sipIsWs c = true ↔ c = 0x20 ∨ c = 0x09 := by
  rw [sipIsWs, Bool.or_eq_true, decide_eq_true_eq, decide_eq_true_eq]

theorem sipIsWs_of_class {p : UInt8 → Bool} (space : p 0x20 = false) (tab : p 0x09 = false)
    (inside : p c) : sipIsWs c = false := by
  by_contra blank
  obtain rfl | rfl := sipIsWs_iff.mp (Bool.eq_true_of_not_eq_false blank)
  · exact absurd inside (by rw [space]; decide)
  · exact absurd inside (by rw [tab]; decide)

theorem letters_of_map {text ref : Bytes} (same : text.map lower = ref)
    (letters : ∀ c ∈ ref, isLetter c) : ∀ c ∈ text, isLetter (lower c) := by
  intro c member
  exact letters _ (same ▸ List.mem_map_of_mem member)

theorem map_sipLc_of_letters {text : Bytes} (letters : ∀ c ∈ text, isLetter (lower c)) :
    text.map sipLc = text.map lower :=
  List.map_congr_left fun c member =>
    sipLc_of_lower c (Bool.or_eq_true_iff.mpr (.inl (letters c member)))

theorem length_cut (s : Bytes) : (cut s).length = s.length % 2 ^ 32 := by
  rw [cut, List.length_take]
  exact Nat.min_eq_left (Nat.mod_le _ _)

theorem cut_eq_iff : cut s = s ↔ s.length < 2 ^ 32 := by
  constructor
  · intro same
    have length := congrArg List.length same
    rw [length_cut] at length
    omega
  · intro short
    rw [cut, Nat.mod_eq_of_lt short, List.take_length]

theorem map_cut_eq_iff {part : Option Bytes} :
    part.map cut = part ↔ ∀ text ∈ part, text.length < 2 ^ 32 := by
  cases part <;> simp [cut_eq_iff]

theorem stops_behind {mark : UInt8} (stop : more mark = false)
    (part : Option Bytes) {rest : Bytes} (stops : Stops more rest) :
    Stops more (behind mark part ++ rest) := by
  cases part with
  | none => exact stops
  | some text => simpa [behind] using stop

section Hostport

variable {host : Host} {rest : Bytes}

theorem Host.Grammar.parseHost (grammar : host.Grammar)
    (stops : Stops (outside (ascii ":;? \t")) rest) :
    Sip.parseHost (host.text ++ rest) = .ok (cut host.value, rest) := by
  cases host with
  | name text =>
    obtain ⟨present, plain⟩ := grammar
    obtain ⟨first, text, rfl⟩ := List.exists_cons_of_ne_nil present
    have all : ∀ c ∈ first :: text, outside (ascii ":;? \t") c = true := fun c member =>
      outside_of_class (p := fun c => isAlphanum c || (ascii "-.").contains c) (by decide)
        (plain c member)
    have named : (first :: text ++ rest).head? ≠ some 0x5B := by
      intro same
      cases same
      exact absurd (plain 0x5B List.mem_cons_self) (by decide)
    rw [Sip.parseHost, Host.text, if_neg named, takeWhile_append_of_stops all stops,
      dropWhile_append_of_stops all stops]
    rfl
  | ipv6 text =>
    have close : (0x5D : UInt8) ∉ (0x5B : UInt8) :: text := by
      intro member
      obtain same | inside := List.mem_cons.mp member
      · exact absurd same (by decide)
      · exact absurd (grammar.2 _ inside) (by decide)
    have whole : Host.text (.ipv6 text) ++ rest = (0x5B :: text) ++ 0x5D :: rest := by
      simp [Host.text]
    have opens : ((0x5B :: text) ++ 0x5D :: rest).head? = some 0x5B := rfl
    rw [Sip.parseHost, whole, if_pos opens, breakAt_append close]
    rfl

theorem sipParseU32_digits (present : digits ≠ []) (all : digits.all isDigit) :
    sipParseU32 digits =
      if digits.length ≤ 10 ∧ decimalValue digits ≤ 0xFFFFFFFF then some (decimalValue digits)
      else none := by
  have nonempty := List.length_pos_iff.mpr present
  rw [sipParseU32, all]
  by_cases long : 10 < digits.length
  · rw [if_pos (.inr long), if_neg (by omega)]
  by_cases large : 0xFFFFFFFF < decimalValue digits
  · rw [if_neg (by omega), if_neg (by simp), if_pos large, if_neg (by omega)]
  · rw [if_neg (by omega), if_neg (by simp), if_neg large, if_pos (by omega)]

theorem Host.Grammar.parseHostport (grammar : host.Grammar)
    (decimal : ∀ digits ∈ port, digits ≠ [] ∧ digits.all isDigit)
    (ends : Stops (outside (ascii ";? \t")) rest) :
    Sip.parseHostport (host.text ++ (behind colon port ++ rest)) = .ok result ↔
      host.value.length % 2 ^ 32 ≠ 0 ∧ PortFits port ∧
        result = (cut host.value, port.elim 0 decimalValue, rest) := by
  have marks : ∀ c ∈ ascii ";? \t", outside (ascii ":;? \t") c = false ∧ c ≠ colon :=
    List.all_iff_forall_prop.mp (by decide)
  have stops : Stops (outside (ascii ":;? \t")) (behind colon port ++ rest) :=
    stops_behind (by decide) port fun c first => (marks c (mem_of_outside (ends c first))).1
  rw [Sip.parseHostport, grammar.parseHost stops]
  show (if (cut host.value).length = 0 then _ else _) = _ ↔ _
  rw [length_cut]
  by_cases empty : host.value.length % 2 ^ 32 = 0
  · rw [if_pos empty]
    exact iff_of_false (by simp) fun right => right.1 empty
  rw [if_neg empty]
  cases port with
  | none =>
    have other : (behind colon none ++ rest).head? ≠ some colon := fun first =>
      (marks colon (mem_of_outside (ends colon first))).2 rfl
    rw [if_neg other]
    constructor
    · intro same
      exact ⟨empty, by simp [PortFits], (Except.ok.inj same).symm⟩
    · rintro ⟨-, -, rfl⟩
      rfl
  | some digits =>
    obtain ⟨present, all⟩ := decimal digits rfl
    have plain : ∀ c ∈ digits, outside (ascii ";? \t") c = true := fun c member =>
      outside_of_class (by decide) (List.all_eq_true.mp all c member)
    have first : (behind colon (some digits) ++ rest).head? = some colon := rfl
    have tail : (behind colon (some digits) ++ rest).tail = digits ++ rest := rfl
    have fits : PortFits (some digits) ↔
        digits.length ≤ 10 ∧ 0 < decimalValue digits ∧ decimalValue digits ≤ 0xFFFF := by
      simp [PortFits]
    rw [if_pos first, tail, takeWhile_append_of_stops plain ends,
      dropWhile_append_of_stops plain ends, sipParseU32_digits present all, fits]
    by_cases read : digits.length ≤ 10 ∧ decimalValue digits ≤ 0xFFFFFFFF
    · rw [if_pos read]
      dsimp only
      by_cases wrong : decimalValue digits = 0 ∨ 0xFFFF < decimalValue digits
      · rw [if_pos wrong]
        exact iff_of_false (by simp) fun right => by omega
      · rw [if_neg wrong]
        constructor
        · intro same
          exact ⟨empty, by omega, (Except.ok.inj same).symm⟩
        · rintro ⟨-, -, rfl⟩
          rfl
    · rw [if_neg read]
      exact iff_of_false (by simp) fun right => by omega

end Hostport

variable {u : UriText}

theorem UriText.stops_tail (first : more semi = false)
    (second : more question = false) : Stops more u.tail := by
  have headers := stops_behind second u.headers (stops_nil more)
  rw [List.append_nil] at headers
  exact stops_behind first u.params headers

section Grammar

variable (grammar : u.Grammar)
include grammar

theorem UriText.Grammar.letters : ∀ c ∈ u.scheme, isLetter (lower c) := by
  obtain sip | sips := grammar.scheme
  · exact letters_of_map sip (by decide +kernel)
  · exact letters_of_map sips (by decide +kernel)

theorem UriText.Grammar.colon_not_mem : colon ∉ u.scheme :=
  fun member => absurd (grammar.letters colon member) (by decide)

theorem UriText.Grammar.uriScheme :
    Sip.uriScheme u.scheme = u.kind ∧ Sip.uriScheme u.scheme ≠ .tel ∧
      u.scheme ≠ [] ∧ cut u.scheme = u.scheme := by
  have same := map_sipLc_of_letters grammar.letters
  have length : u.scheme.length = (u.scheme.map lower).length := List.length_map _ |>.symm
  have scheme : Sip.uriScheme u.scheme = u.kind ∧ Sip.uriScheme u.scheme ≠ .tel ∧
      0 < u.scheme.length ∧ u.scheme.length < 2 ^ 32 := by
    rw [Sip.uriScheme, same, UriText.kind]
    obtain sip | sips := grammar.scheme
    · rw [sip] at length ⊢
      rw [length]
      decide
    · rw [sips] at length ⊢
      rw [length]
      decide
  obtain ⟨right, other, present, short⟩ := scheme
  exact ⟨right, other, List.length_pos_iff.mp present, cut_eq_iff.mpr short⟩

theorem UriText.Grammar.hostport_mem (member : c ∈ u.hostport) : outside (ascii ";?@") c := by
  have host := grammar.host
  obtain inHost | inPort := List.mem_append.mp member
  · cases form : u.host with
    | name text =>
      rw [form] at host inHost
      exact outside_of_class (p := fun c => isAlphanum c || (ascii "-.").contains c)
        (by decide) (host.2 c inHost)
    | ipv6 text =>
      rw [form] at host inHost
      simp only [Host.text, List.cons_append, List.mem_cons, List.mem_append, List.not_mem_nil,
        or_false] at inHost
      obtain rfl | inText | rfl := inHost
      · decide
      · exact outside_of_class (p := fun c => isAlphanum c || (ascii ":.").contains c)
          (by decide) (host.2 c inText)
      · decide
  · cases form : u.port with
    | none =>
      rw [form] at inPort
      contradiction
    | some text =>
      rw [form] at inPort
      obtain rfl | inText := List.mem_cons.mp inPort
      · decide
      · have digits := List.all_eq_true.mp (grammar.port text form).2
        exact outside_of_class (by decide) (digits c inText)

theorem UriText.Grammar.parseHostport :
    Sip.parseHostport (u.hostport ++ u.tail) = .ok result ↔
      u.host.value.length % 2 ^ 32 ≠ 0 ∧ PortFits u.port ∧
        result = (cut u.host.value, u.port.elim 0 decimalValue, u.tail) := by
  rw [UriText.hostport, List.append_assoc]
  exact grammar.host.parseHostport grammar.port (UriText.stops_tail (by decide) (by decide))

theorem UriText.Grammar.parseTail :
    Sip.parseTail u.tail = (u.params.map cut, u.headers.map cut) := by
  have clean : question ∉ behind semi u.params := by
    intro member
    cases params : u.params with
    | none =>
      rw [params] at member
      contradiction
    | some text =>
      rw [params] at member
      obtain same | inside := List.mem_cons.mp member
      · exact absurd same (by decide)
      · exact absurd (grammar.params text params _ inside) (by decide)
  have front : ∀ headers : Option Bytes, (if (behind semi u.params).head? = some semi then
      some (cut (behind semi u.params).tail) else none, headers) = (u.params.map cut, headers) := by
    intro headers
    cases u.params with
    | none => rfl
    | some text => rfl
  rw [UriText.tail, Sip.parseTail]
  cases u.headers with
  | none =>
    have empty : behind question none = [] := rfl
    rw [empty, List.append_nil, breakAt_eq_none clean]
    exact front none
  | some text =>
    have marked : behind question (some text) = question :: text := rfl
    rw [marked, breakAt_append clean]
    exact front (some (cut text))

theorem UriText.Grammar.atSign_not_mem (userinfo : u.userinfo = some info) :
    atSign ∉ info := fun member =>
  absurd (grammar.userinfo info userinfo _ member) (by decide)

theorem UriText.Grammar.splitUser_plain
    (plain : ∀ info ∈ u.userinfo, semi ∉ info ∧ question ∉ info) :
    splitUser (u.userinfo.elim [] (· ++ [atSign]) ++ (u.hostport ++ u.tail)) =
      (u.userinfo.map cut, u.hostport ++ u.tail) := by
  have hostport : ∀ c ∈ u.hostport, outside (ascii ";?") c = true := fun c member =>
    outside_of_class (by decide) (grammar.hostport_mem member)
  have stops : Stops (outside (ascii ";?")) u.tail := UriText.stops_tail (by decide) (by decide)
  have clean : atSign ∉ u.hostport.reverse := fun member =>
    absurd (grammar.hostport_mem (List.mem_reverse.mp member)) (by decide)
  cases userinfo : u.userinfo with
  | none =>
    rw [splitUser]
    simp only [Option.elim_none, List.nil_append]
    rw [takeWhile_append_of_stops hostport stops, breakAt_eq_none clean]
    rfl
  | some info =>
    obtain ⟨first, second⟩ := plain info userinfo
    have all : ∀ c ∈ info ++ atSign :: u.hostport, outside (ascii ";?") c = true := by
      intro c member
      obtain inInfo | rfl | inHost := by simpa using member
      · by_contra stop
        have marks : ∀ m ∈ ascii ";?", m = semi ∨ m = question :=
          List.all_iff_forall_prop.mp (by decide)
        obtain rfl | rfl := marks c (mem_of_outside (Bool.eq_false_iff.mpr stop))
        · exact first inInfo
        · exact second inInfo
      · decide
      · exact hostport c inHost
    have shape : info ++ [atSign] ++ (u.hostport ++ u.tail) =
        info ++ atSign :: u.hostport ++ u.tail := by simp
    have reversed : (info ++ atSign :: u.hostport).reverse =
        u.hostport.reverse ++ atSign :: info.reverse := by simp
    rw [splitUser]
    simp only [Option.elim_some]
    rw [shape, takeWhile_append_of_stops all stops, reversed, breakAt_append clean]
    dsimp only
    rw [List.reverse_reverse, ← shape, List.length_reverse]
    simp

theorem UriText.Grammar.splitUser_marked (userinfo : u.userinfo = some info)
    (marked : semi ∈ info ∨ question ∈ info) (rest : Bytes) :
    splitUser (info ++ rest) = (none, info ++ rest) := by
  have stops : ∃ c ∈ info, outside (ascii ";?") c = false := by
    obtain member | member := marked
    · exact ⟨semi, member, by decide⟩
    · exact ⟨question, member, by decide⟩
  have front : (info ++ rest).takeWhile (outside (ascii ";?")) =
      info.takeWhile (outside (ascii ";?")) := by
    rw [List.takeWhile_append, if_neg]
    intro same
    obtain ⟨c, member, stop⟩ := stops
    have front := List.takeWhile_prefix (l := info) (outside (ascii ";?"))
    have whole := front.eq_of_length same
    exact absurd (List.takeWhile_eq_self_iff.mp whole c member) (by rw [stop]; simp)
  have clean : atSign ∉ (info.takeWhile (outside (ascii ";?"))).reverse := fun member =>
    grammar.atSign_not_mem userinfo (List.takeWhile_subset _ (List.mem_reverse.mp member))
  rw [splitUser, front, breakAt_eq_none clean]

theorem UriText.Grammar.sipUriParse_text :
    sipUriParse u.text = (do
      let (user, p) := splitUser (u.userinfo.elim [] (· ++ [atSign]) ++ (u.hostport ++ u.tail))
      let (host, port, p) ← Sip.parseHostport p
      let (params, headers) := Sip.parseTail p
      .ok ⟨u.kind, u.scheme, user, host, port, params, headers⟩) := by
  obtain ⟨kind, other, present, short⟩ := grammar.uriScheme
  rw [sipUriParse, UriText.text, breakAt_append grammar.colon_not_mem]
  dsimp only
  rw [if_neg present, if_neg other, kind, short]

end Grammar

/-- A URI of the grammar is read as it is unless its user has a `;` or a `?`, its
port does not fit, or a part is too long for its length. -/
theorem sipUriParse_exact_iff (grammar : u.Grammar) :
    sipUriParse u.text = .ok u.parts ↔ u.Plain := by
  rw [grammar.sipUriParse_text]
  by_cases plain : ∀ info ∈ u.userinfo, semi ∉ info ∧ question ∉ info
  · rw [grammar.splitUser_plain plain]
    constructor
    · intro parsed
      obtain ⟨⟨host, port, rest⟩, read, parsed⟩ := exists_of_bind_ok parsed
      obtain ⟨present, fits, same⟩ := grammar.parseHostport.mp read
      cases same
      dsimp only at parsed
      rw [grammar.parseTail] at parsed
      have parts := Except.ok.inj parsed
      rw [UriText.parts, SipUri.mk.injEq] at parts
      obtain ⟨-, -, user, host, -, params, headers⟩ := parts
      refine ⟨plain, fits, cut_eq_iff.mp host, ?_⟩
      simp only [List.forall_mem_cons, List.not_mem_nil, false_imp_iff, implies_true, and_true]
      exact ⟨map_cut_eq_iff.mp user, map_cut_eq_iff.mp params, map_cut_eq_iff.mp headers⟩
    · intro right
      obtain ⟨host, short⟩ := right.short
      simp only [List.forall_mem_cons, List.not_mem_nil, false_imp_iff, implies_true, and_true]
        at short
      obtain ⟨user, params, headers⟩ := short
      have present : u.host.value.length % 2 ^ 32 ≠ 0 := by
        rw [Nat.mod_eq_of_lt host]
        exact grammar.host.value_pos.ne'
      have read := grammar.parseHostport.mpr ⟨present, right.port, rfl⟩
      dsimp only
      rw [read]
      show (match Sip.parseTail u.tail with | (params, headers) => Except.ok _) = _
      rw [grammar.parseTail, map_cut_eq_iff.mpr user, map_cut_eq_iff.mpr params,
        map_cut_eq_iff.mpr headers, cut_eq_iff.mpr host]
      rfl
  · refine iff_of_false ?_ fun right => plain right.userinfo
    simp only [not_forall, not_and_or, not_not] at plain
    obtain ⟨info, userinfo, marked⟩ := plain
    have first : u.userinfo.elim [] (· ++ [atSign]) ++ (u.hostport ++ u.tail) =
        info ++ ([atSign] ++ (u.hostport ++ u.tail)) := by
      rw [Option.mem_def.mp userinfo]
      simp
    rw [first, grammar.splitUser_marked userinfo marked]
    intro parsed
    obtain ⟨⟨host, port, rest⟩, -, parsed⟩ := exists_of_bind_ok parsed
    dsimp only at parsed
    have parts := Except.ok.inj parsed
    rw [UriText.parts, SipUri.mk.injEq, Option.mem_def.mp userinfo] at parts
    exact absurd parts.2.2.1 (by simp)

def secureUri : UriText where
  scheme := ascii "SIPS"
  userinfo := some (ascii "alice:pw")
  host := .ipv6 (ascii "::1")
  port := some (ascii "5061")
  params := some (ascii "lr;transport=tls")
  headers := some (ascii "Subject=a?")

theorem sipUriParse_exact_secure :
    sipUriParse (ascii "SIPS:alice:pw@[::1]:5061;lr;transport=tls?Subject=a?") =
      .ok secureUri.parts :=
  (sipUriParse_exact_iff (u := secureUri)
    ⟨by decide, by decide +kernel, by decide +kernel, by decide,
      by decide +kernel, by decide +kernel⟩).mpr
    ⟨by decide, by decide, by decide⟩

def dialUri : UriText where
  scheme := ascii "sip"
  userinfo := some (ascii "+1;ext=2")
  host := .name (ascii "example.com")
  port := none
  params := none
  headers := none

theorem sipUriParse_user_semicolon : dialUri.text = ascii "sip:+1;ext=2@example.com" ∧
    sipUriParse dialUri.text =
      .ok ⟨.sip, ascii "sip", none, ascii "+1", 0, some (ascii "ext=2@example.com"), none⟩ ∧
    dialUri.parts.user = some (ascii "+1;ext=2") ∧ dialUri.parts.host = ascii "example.com" := by
  decide

end Pro2Call.Sip

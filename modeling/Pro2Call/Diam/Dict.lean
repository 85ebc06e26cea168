import Mathlib.Algebra.Group.Int.Defs
import Mathlib.Algebra.Group.Nat.Defs
import Mathlib.Data.List.Find
import Mathlib.Data.Prod.Lex
import Pro2Call.Data.SortedTable

namespace Pro2Call.Diam.Gen

open Pro2Call.Data

/-! The dictionary generator: the model `build` resolves a specification into, the
enumerators and tables its templates write, and the searches in those tables. -/

inductive AvpType where
  | octetString
  | integer32
  | integer64
  | unsigned32
  | unsigned64
  | float32
  | float64
  | grouped
  | enumerated
  | utf8String
  | diameterIdentity
  | diameterUri
  | address
  | time
  | ipFilterRule
  | qosFilterRule
  deriving DecidableEq, Repr

def types : List AvpType :=
  [.octetString, .integer32, .integer64, .unsigned32, .unsigned64, .float32, .float64, .grouped,
    .enumerated, .utf8String, .diameterIdentity, .diameterUri, .address, .time, .ipFilterRule,
    .qosFilterRule]

def typeEnum : AvpType → String
  | .octetString => "OCTET_STRING"
  | .integer32 => "INTEGER32"
  | .integer64 => "INTEGER64"
  | .unsigned32 => "UNSIGNED32"
  | .unsigned64 => "UNSIGNED64"
  | .float32 => "FLOAT32"
  | .float64 => "FLOAT64"
  | .grouped => "GROUPED"
  | .enumerated => "ENUMERATED"
  | .utf8String => "UTF8_STRING"
  | .diameterIdentity => "IDENTITY"
  | .diameterUri => "URI"
  | .address => "ADDRESS"
  | .time => "TIME"
  | .ipFilterRule => "IP_FILTER_RULE"
  | .qosFilterRule => "QOS_FILTER_RULE"

def deriveCName (name : String) : String :=
  let parts := (name.toList.splitOnP fun c => !c.isAlphanum).filter (· ≠ [])
  String.ofList (['_'].intercalate (parts.map (List.map Char.toUpper)))

structure Vendor where
  name : String
  id : UInt32
  deriving DecidableEq, Repr

structure App where
  cname : String
  id : UInt32
  deriving DecidableEq, Repr

structure Command where
  name : String
  code : UInt32
  deriving DecidableEq, Repr

structure Enum where
  name : String
  cname : String
  value : Int
  deriving DecidableEq, Repr

structure Avp where
  name : String
  cname : String
  code : UInt32
  vendor : String
  vendorId : UInt32
  type : AvpType
  mandatory : Bool
  enums : List Enum
  deriving DecidableEq, Repr

structure Spec where
  vendors : List Vendor
  apps : List App
  commands : List Command
  avps : List Avp
  deriving DecidableEq, Repr

/-- `vendorExpr` and `flagsExpr` are names joined by `|`, `0` when there is none. -/
structure AvpEntry where
  enum : String
  code : UInt32
  vendorExpr : List String
  vendorId : UInt32
  typeEnum : String
  flagsExpr : List String
  name : String
  deriving DecidableEq, Repr

structure ValueName where
  vendorId : UInt32
  vendorExpr : List String
  code : UInt32
  value : Int
  name : String
  deriving DecidableEq, Repr

/-- The entries of vendors, applications, commands and enumerated values are enumerators
with their values. -/
structure Model where
  vendors : List (String × UInt32)
  apps : List (String × UInt32)
  cmds : List (String × UInt32)
  avps : List AvpEntry
  enums : List (String × Int)
  values : List ValueName
  deriving DecidableEq, Repr

inductive BuildError where
  | unknownVendor (avp vendor : String)
  deriving DecidableEq, Repr

def vendorEnum (name : String) : String := "DIAM_VENDOR_" ++ deriveCName name

def vendorExpr (spec : Spec) (name : String) : Option String :=
  (spec.vendors.reverse.find? fun v => v.name = name).map fun v => vendorEnum v.name

def avpVendorExpr (spec : Spec) (a : Avp) : Except BuildError (List String) :=
  if a.vendor = "" then .ok []
  else
    match vendorExpr spec a.vendor with
    | none => .error (.unknownVendor a.name a.vendor)
    | some e => .ok [e]

def avpFlagsExpr (a : Avp) : List String :=
  if a.mandatory ∧ a.vendor ≠ "" then ["DIAM_AVP_F_VENDOR", "DIAM_AVP_F_MANDATORY"]
  else if a.mandatory then ["DIAM_AVP_F_MANDATORY"]
  else if a.vendor ≠ "" then ["DIAM_AVP_F_VENDOR"]
  else []

/-- Values written as unsigned, taken as the signed ones of the same 32 bits. -/
def foldValue (v : Int) : Int :=
  if 0x7FFFFFFF < v ∧ v ≤ 0xFFFFFFFF then v.bmod (2 ^ 32) else v

def avpEntry (a : Avp) (expr : List String) : AvpEntry where
  enum := "DIAM_AVP_" ++ a.cname
  code := a.code
  vendorExpr := expr
  vendorId := a.vendorId
  typeEnum := "DIAM_TYPE_" ++ typeEnum a.type
  flagsExpr := avpFlagsExpr a
  name := a.name

def enumConst (a : Avp) (en : Enum) : String × Int :=
  ("DIAM_" ++ a.cname ++ "_" ++ en.cname, foldValue en.value)

def valueName (e : AvpEntry) (en : Enum) : ValueName where
  vendorId := e.vendorId
  vendorExpr := e.vendorExpr
  code := e.code
  value := foldValue en.value
  name := en.name

structure AvpRow where
  entry : AvpEntry
  enums : List (String × Int)
  values : List ValueName

def avpRow (spec : Spec) (a : Avp) : Except BuildError AvpRow := do
  let expr ← avpVendorExpr spec a
  let entry := avpEntry a expr
  .ok ⟨entry, a.enums.map (enumConst a), a.enums.map (valueName entry)⟩

def avpLess (a b : AvpEntry) : Bool :=
  if a.vendorId ≠ b.vendorId then a.vendorId < b.vendorId else a.code < b.code

def valueLess (a b : ValueName) : Bool :=
  if a.vendorId ≠ b.vendorId then a.vendorId < b.vendorId
  else if a.code ≠ b.code then a.code < b.code
  else a.value < b.value

def build (spec : Spec) : Except BuildError Model := do
  let rows ← spec.avps.mapM (avpRow spec)
  .ok {
    vendors := spec.vendors.map fun v => (vendorEnum v.name, v.id)
    apps := sliceStable (fun a b => a.2 < b.2)
      (spec.apps.map fun a => ("DIAM_APP_" ++ a.cname, a.id))
    cmds := sliceStable (fun a b => a.2 < b.2)
      (spec.commands.map fun c => ("DIAM_CMD_" ++ deriveCName c.name, c.code))
    avps := sliceStable avpLess (rows.map AvpRow.entry)
    enums := rows.flatMap AvpRow.enums
    values := sliceStable valueLess (rows.flatMap AvpRow.values) }

/-- The AVP flags of `diam.h` and the enumerators of the generated header. -/
def enumerators (m : Model) : List (String × Int) :=
  [("DIAM_AVP_F_VENDOR", 0x80), ("DIAM_AVP_F_MANDATORY", 0x40), ("DIAM_AVP_F_PROTECTED", 0x20)] ++
    types.zipIdx.map (fun t => ("DIAM_TYPE_" ++ typeEnum t.1, (t.2 : Int))) ++
    m.vendors.map (fun e => (e.1, (e.2.toNat : Int))) ++
    m.apps.map (fun e => (e.1, (e.2.toNat : Int))) ++
    m.cmds.map (fun e => (e.1, (e.2.toNat : Int))) ++
    m.avps.map (fun e => (e.enum, (e.code.toNat : Int))) ++ m.enums

structure DictEntry where
  code : UInt32
  vendorId : UInt32
  type : UInt8
  flags : UInt8
  name : String
  deriving DecidableEq, Repr

structure ValueEntry where
  vendorId : UInt32
  code : UInt32
  value : Int32
  name : String
  deriving DecidableEq, Repr

structure Tables where
  dict : List DictEntry
  values : List ValueEntry
  deriving DecidableEq, Repr

def evalExpr (env : List (String × Int)) (expr : List String) : Option UInt32 :=
  expr.foldlM (fun acc name => (env.lookup name).map fun v => acc ||| UInt32.ofInt v) 0

def dictEntry (env : List (String × Int)) (e : AvpEntry) : Option DictEntry := do
  let code ← env.lookup e.enum
  let vendorId ← evalExpr env e.vendorExpr
  let type ← env.lookup e.typeEnum
  let flags ← evalExpr env e.flagsExpr
  some ⟨UInt32.ofInt code, vendorId, UInt8.ofInt type, flags.toUInt8, e.name⟩

def valueEntry (env : List (String × Int)) (v : ValueName) : Option ValueEntry := do
  let vendorId ← evalExpr env v.vendorExpr
  some ⟨vendorId, v.code, Int32.ofInt v.value, v.name⟩

/-- The tables of the generated file; an enumerator declared twice does not compile. -/
def compile (m : Model) : Option Tables :=
  if ((enumerators m).map Prod.fst).Nodup then do
    let dict ← m.avps.mapM (dictEntry (enumerators m))
    let values ← m.values.mapM (valueEntry (enumerators m))
    some ⟨dict, values⟩
  else none

def diamDictGet (dict : List DictEntry) (code vendorId : UInt32) : Option DictEntry :=
  searchTable (fun e => e.vendorId < vendorId || (e.vendorId == vendorId && e.code < code))
    (fun e => e.code == code && e.vendorId == vendorId) dict

def diamEnumName (values : List ValueEntry) (code vendorId : UInt32) (value : Int32) :
    Option String :=
  (searchTable (fun e => e.vendorId < vendorId || (e.vendorId == vendorId &&
      (e.code < code || (e.code == code && e.value < value))))
    (fun e => e.vendorId == vendorId && e.code == code && e.value == value) values).map
    ValueEntry.name

/-- An AVP of no vendor with id 0, or of a declared vendor with its id. -/
def Avp.Declared (spec : Spec) (a : Avp) : Prop :=
  (a.vendor = "" ∧ a.vendorId = 0) ∨
    (a.vendor ≠ "" ∧ ∃ v ∈ spec.vendors, v.name = a.vendor ∧ v.id = a.vendorId)

def exprOf (a : Avp) : List String := if a.vendor = "" then [] else [vendorEnum a.vendor]

def rowOf (a : Avp) : AvpRow where
  entry := avpEntry a (exprOf a)
  enums := a.enums.map (enumConst a)
  values := a.enums.map (valueName (avpEntry a (exprOf a)))

def modelOf (spec : Spec) : Model where
  vendors := spec.vendors.map fun v => (vendorEnum v.name, v.id)
  apps := sliceStable (fun a b => a.2 < b.2) (spec.apps.map fun a => ("DIAM_APP_" ++ a.cname, a.id))
  cmds := sliceStable (fun a b => a.2 < b.2)
    (spec.commands.map fun c => ("DIAM_CMD_" ++ deriveCName c.name, c.code))
  avps := sliceStable avpLess (spec.avps.map fun a => (rowOf a).entry)
  enums := spec.avps.flatMap fun a => (rowOf a).enums
  values := sliceStable valueLess (spec.avps.flatMap fun a => (rowOf a).values)

theorem avpVendorExpr_of_declared {spec : Spec} {a : Avp} (declared : a.Declared spec) :
    avpVendorExpr spec a = .ok (exprOf a) := by
  rcases declared with ⟨standard, _⟩ | ⟨named, v, member, same, _⟩
  · rw [avpVendorExpr, exprOf, if_pos standard, if_pos standard]
  · have found : (spec.vendors.reverse.find? fun v => v.name = a.vendor).isSome := by
      rw [List.find?_isSome]
      exact ⟨v, List.mem_reverse.mpr member, by simpa using same⟩
    obtain ⟨w, last⟩ := Option.isSome_iff_exists.mp found
    have name : w.name = a.vendor := by simpa using List.find?_some last
    rw [avpVendorExpr, exprOf, if_neg named, if_neg named, vendorExpr, last, Option.map_some, name]

theorem mapM_of_forall [Monad m] [LawfulMonad m] {f : α → m β}
    {l : List α} (each : ∀ a ∈ l, f a = pure (g a)) : l.mapM f = pure (l.map g) := by
  induction l with
  | nil => rfl
  | cons a l ih =>
    rw [List.mapM_cons, each a List.mem_cons_self,
      ih fun b member => each b (List.mem_cons_of_mem a member)]
    simp

theorem build_of_declared {spec : Spec} (declared : ∀ a ∈ spec.avps, a.Declared spec) :
    build spec = .ok (modelOf spec) := by
  have rows : spec.avps.mapM (avpRow spec) = .ok (spec.avps.map rowOf) := by
    refine mapM_of_forall fun a member => ?_
    rw [avpRow, avpVendorExpr_of_declared (declared a member)]
    rfl
  rw [build, rows]
  simp only [bind, Except.bind, List.map_map, List.flatMap_map]
  rfl

theorem mem_enumerators (m : Model) (e : String × Int) : e ∈ enumerators m ↔
    e ∈ [("DIAM_AVP_F_VENDOR", 0x80), ("DIAM_AVP_F_MANDATORY", 0x40),
      ("DIAM_AVP_F_PROTECTED", 0x20)] ∨
    e ∈ types.zipIdx.map (fun t => ("DIAM_TYPE_" ++ typeEnum t.1, (t.2 : Int))) ∨
    e ∈ m.vendors.map (fun e => (e.1, (e.2.toNat : Int))) ∨
    e ∈ m.apps.map (fun e => (e.1, (e.2.toNat : Int))) ∨
    e ∈ m.cmds.map (fun e => (e.1, (e.2.toNat : Int))) ∨
    e ∈ m.avps.map (fun e => (e.enum, (e.code.toNat : Int))) ∨ e ∈ m.enums := by
  simp only [enumerators, List.mem_append, or_assoc]

theorem lookup_of_mem {env : List (String × Int)} (distinct : (env.map Prod.fst).Nodup)
    {name : String} (member : (name, v) ∈ env) : env.lookup name = some v := by
  induction env with
  | nil => cases member
  | cons first env ih =>
    rw [List.map_cons, List.nodup_cons] at distinct
    rcases List.mem_cons.mp member with rfl | later
    · exact List.lookup_cons_self
    · have other : name ≠ first.1 := by
        rintro rfl
        exact distinct.1 (List.mem_map.mpr ⟨_, later, rfl⟩)
      rw [List.lookup_cons, beq_false_of_ne other, ih distinct.2 later]

theorem ofInt_toNat (x : UInt32) : UInt32.ofInt x.toNat = x := by
  rw [UInt32.ofInt, ← UInt32.toNat_inj, UInt32.toNat_ofNat']
  have bound := x.toNat_lt
  omega

def entryOf (a : Avp) : DictEntry where
  code := a.code
  vendorId := a.vendorId
  type := UInt8.ofNat (types.idxOf a.type)
  flags := (if a.vendor ≠ "" then 0x80 else 0) ||| if a.mandatory then 0x40 else 0
  name := a.name

def valueEntryOf (defined : Avp × Enum) : ValueEntry where
  vendorId := defined.1.vendorId
  code := defined.1.code
  value := Int32.ofInt (foldValue defined.2.value)
  name := defined.2.name

def Spec.defined (spec : Spec) : List (Avp × Enum) :=
  spec.avps.flatMap fun a => a.enums.map fun en => (a, en)

def avpBefore (a b : Avp) : Bool := avpLess (rowOf a).entry (rowOf b).entry

def nameOf (defined : Avp × Enum) : ValueName := valueName (rowOf defined.1).entry defined.2

def valueBefore (d e : Avp × Enum) : Bool := valueLess (nameOf d) (nameOf e)

def tablesOf (spec : Spec) : Tables where
  dict := (sliceStable avpBefore spec.avps).map entryOf
  values := (sliceStable valueBefore spec.defined).map valueEntryOf

theorem modelOf_avps (spec : Spec) :
    (modelOf spec).avps = (sliceStable avpBefore spec.avps).map fun a => (rowOf a).entry :=
  (map_sliceStable avpLess (fun a => (rowOf a).entry) spec.avps).symm

theorem modelOf_values (spec : Spec) :
    (modelOf spec).values = (sliceStable valueBefore spec.defined).map nameOf := by
  have names : (spec.avps.flatMap fun a => (rowOf a).values) = spec.defined.map nameOf := by
    rw [Spec.defined, List.map_flatMap]
    congr 1
    funext a
    rw [List.map_map]
    rfl
  rw [modelOf, names]
  exact (map_sliceStable valueLess nameOf spec.defined).symm

section Compiled

variable {spec : Spec} {a : Avp} (declared : ∀ a ∈ spec.avps, a.Declared spec)
  (distinct : ((enumerators (modelOf spec)).map Prod.fst).Nodup)

include distinct

theorem lookup_flag {name : String} (flag : (name, v) ∈ [("DIAM_AVP_F_VENDOR", 0x80),
    ("DIAM_AVP_F_MANDATORY", 0x40), ("DIAM_AVP_F_PROTECTED", 0x20)]) :
    (enumerators (modelOf spec)).lookup name = some v :=
  lookup_of_mem distinct ((mem_enumerators _ _).mpr (.inl flag))

theorem lookup_type (t : AvpType) :
    (enumerators (modelOf spec)).lookup ("DIAM_TYPE_" ++ typeEnum t) =
      some (types.idxOf t : Int) := by
  have member : (("DIAM_TYPE_" ++ typeEnum t, (types.idxOf t : Int)) : String × Int) ∈
      types.zipIdx.map fun t => ("DIAM_TYPE_" ++ typeEnum t.1, (t.2 : Int)) := by
    cases t <;> decide
  exact lookup_of_mem distinct ((mem_enumerators _ _).mpr (.inr (.inl member)))

theorem lookup_avp (member : a ∈ spec.avps) :
    (enumerators (modelOf spec)).lookup (rowOf a).entry.enum = some (a.code.toNat : Int) := by
  have listed : (rowOf a).entry ∈ (modelOf spec).avps :=
    List.mem_mergeSort.mpr (List.mem_map_of_mem member)
  have named := List.mem_map_of_mem (f := fun e => (e.enum, (e.code.toNat : Int))) listed
  exact lookup_of_mem distinct
    ((mem_enumerators _ _).mpr (.inr (.inr (.inr (.inr (.inr (.inl named)))))))

theorem evalExpr_vendor (declared : a.Declared spec) :
    evalExpr (enumerators (modelOf spec)) (exprOf a) = some a.vendorId := by
  rcases declared with ⟨standard, zero⟩ | ⟨named, v, member, same, id⟩
  · rw [exprOf, if_pos standard, zero]
    rfl
  · have listed : ((vendorEnum v.name, (v.id.toNat : Int)) : String × Int) ∈
        (modelOf spec).vendors.map fun e => (e.1, (e.2.toNat : Int)) := by
      rw [List.mem_map]
      exact ⟨(vendorEnum v.name, v.id), List.mem_map_of_mem member, rfl⟩
    have found := lookup_of_mem distinct ((mem_enumerators _ _).mpr (.inr (.inr (.inl listed))))
    rw [same] at found
    rw [exprOf, if_neg named, evalExpr]
    simp [found, id, ofInt_toNat]

theorem evalExpr_flags :
    (evalExpr (enumerators (modelOf spec)) (avpFlagsExpr a)).map UInt32.toUInt8 =
      some (entryOf a).flags := by
  have vendor : (enumerators (modelOf spec)).lookup "DIAM_AVP_F_VENDOR" = some 0x80 :=
    lookup_flag distinct (by simp)
  have mandatory : (enumerators (modelOf spec)).lookup "DIAM_AVP_F_MANDATORY" = some 0x40 :=
    lookup_flag distinct (by simp)
  unfold avpFlagsExpr entryOf evalExpr
  by_cases must : a.mandatory <;> by_cases named : a.vendor = "" <;>
    simp [must, named, vendor, mandatory] <;> rfl

theorem dictEntry_of_declared (member : a ∈ spec.avps) (declared : a.Declared spec) :
    dictEntry (enumerators (modelOf spec)) (rowOf a).entry = some (entryOf a) := by
  obtain ⟨flags, value, cut⟩ := Option.map_eq_some_iff.mp (evalExpr_flags (a := a) distinct)
  have vendor := evalExpr_vendor distinct declared
  have type := lookup_type distinct a.type
  have code := lookup_avp distinct member
  unfold dictEntry
  simp only [rowOf, avpEntry] at code ⊢
  have index : UInt8.ofInt (types.idxOf a.type : Int) = UInt8.ofNat (types.idxOf a.type) := by
    cases a.type <;> rfl
  simp only [code, vendor, type, value, Option.bind_eq_bind, Option.bind_some, cut, ofInt_toNat,
    index]
  rfl

theorem valueEntry_of_declared (declared : a.Declared spec) (en : Enum) :
    valueEntry (enumerators (modelOf spec)) (valueName (rowOf a).entry en) =
      some (valueEntryOf (a, en)) := by
  unfold valueEntry
  simp only [rowOf, valueName, avpEntry, evalExpr_vendor distinct declared]
  rfl

include declared

theorem compile_of_distinct : compile (modelOf spec) = some (tablesOf spec) := by
  have dict : (modelOf spec).avps.mapM (dictEntry (enumerators (modelOf spec))) =
      some (tablesOf spec).dict := by
    rw [modelOf_avps, List.mapM_map]
    refine mapM_of_forall fun a sorted => ?_
    have member := List.mem_mergeSort.mp sorted
    exact dictEntry_of_declared distinct member (declared a member)
  have values : (modelOf spec).values.mapM (valueEntry (enumerators (modelOf spec))) =
      some (tablesOf spec).values := by
    rw [modelOf_values, List.mapM_map]
    refine mapM_of_forall fun d sorted => ?_
    obtain ⟨a, member, listed⟩ := List.mem_flatMap.mp (List.mem_mergeSort.mp sorted)
    obtain ⟨en, _, rfl⟩ := List.mem_map.mp listed
    exact valueEntry_of_declared distinct (declared a member) en
  rw [compile, if_pos distinct, dict, values]
  rfl

end Compiled

def avpKey (a : Avp) : ℕ ×ₗ ℕ := toLex (a.vendorId.toNat, a.code.toNat)

def valueKey (d : Avp × Enum) : ℕ ×ₗ ℕ ×ₗ ℤ :=
  toLex (d.1.vendorId.toNat, toLex (d.1.code.toNat, foldValue d.2.value))

theorem avpBefore_iff (a b : Avp) : avpBefore a b ↔ avpKey a < avpKey b := by
  unfold avpBefore avpLess avpKey
  rw [Prod.Lex.toLex_lt_toLex]
  simp only [rowOf, avpEntry, ← UInt32.lt_iff_toNat_lt, UInt32.toNat_inj]
  by_cases same : a.vendorId = b.vendorId <;> simp [same] <;> exact decide_eq_true_iff

theorem valueBefore_iff (d e : Avp × Enum) : valueBefore d e ↔ valueKey d < valueKey e := by
  unfold valueBefore valueLess valueKey
  rw [Prod.Lex.toLex_lt_toLex, Prod.Lex.toLex_lt_toLex]
  simp only [nameOf, valueName, rowOf, avpEntry, ← UInt32.lt_iff_toNat_lt, UInt32.toNat_inj]
  by_cases vendor : d.1.vendorId = e.1.vendorId <;> by_cases code : d.1.code = e.1.code <;>
    simp [vendor, code] <;> exact decide_eq_true_iff

theorem foldValue_eq_bmod (low : -2 ^ 31 ≤ v) (high : v < 2 ^ 32) :
    foldValue v = v.bmod (2 ^ 32) := by
  unfold foldValue
  split
  · rfl
  · exact (Int.bmod_eq_of_le (by omega) (by omega)).symm

theorem diamDictGet_tablesOf (spec : Spec) (code vendorId : UInt32) :
    diamDictGet (tablesOf spec).dict code vendorId =
      (spec.avps.find? fun a => a.code = code ∧ a.vendorId = vendorId).map entryOf := by
  have hits : ∀ a, (a.code = code ∧ a.vendorId = vendorId) ↔
      avpKey a = toLex (vendorId.toNat, code.toNat) := by
    intro a
    rw [avpKey, toLex_inj, Prod.mk.injEq, UInt32.toNat_inj, UInt32.toNat_inj, and_comm]
  simp only [hits]
  refine searchTable_sliceStable avpBefore_iff ?_ ?_
  · intro a _
    rw [avpKey, Prod.Lex.toLex_lt_toLex]
    simp [entryOf, UInt32.lt_iff_toNat_lt, ← UInt32.toNat_inj]
  · intro a _
    rw [← hits]
    simp [entryOf]

theorem diamEnumName_tablesOf {spec : Spec}
    (fits : ∀ d ∈ spec.defined, -2 ^ 31 ≤ d.2.value ∧ d.2.value < 2 ^ 32)
    (code vendorId : UInt32) (value : Int32) :
    diamEnumName (tablesOf spec).values code vendorId value =
      (spec.defined.find? fun d => d.1.code = code ∧ d.1.vendorId = vendorId ∧
        Int32.ofInt d.2.value = value).map fun d => d.2.name := by
  have hits : ∀ d ∈ spec.defined, (d.1.code = code ∧ d.1.vendorId = vendorId ∧
      Int32.ofInt d.2.value = value) ↔
        valueKey d = toLex (vendorId.toNat, toLex (code.toNat, value.toInt)) := by
    intro d member
    rw [valueKey, toLex_inj, Prod.mk.injEq, toLex_inj, Prod.mk.injEq, UInt32.toNat_inj,
      UInt32.toNat_inj, and_left_comm, foldValue_eq_bmod (fits d member).1 (fits d member).2,
      Int32.ofInt_eq_iff_bmod_eq_toInt]
  have signed : ∀ d ∈ spec.defined, (valueEntryOf d).value.toInt = foldValue d.2.value := by
    intro d member
    rw [foldValue_eq_bmod (fits d member).1 (fits d member).2]
    exact Int32.toInt_ofInt.trans (by
      rw [foldValue_eq_bmod (fits d member).1 (fits d member).2]
      exact Int.bmod_bmod)
  have found : searchTable
      (fun e : ValueEntry => e.vendorId < vendorId || (e.vendorId == vendorId &&
        (e.code < code || (e.code == code && e.value < value))))
      (fun e => e.vendorId == vendorId && e.code == code && e.value == value)
      (tablesOf spec).values = (spec.defined.find? fun d =>
        valueKey d = toLex (vendorId.toNat, toLex (code.toNat, value.toInt))).map valueEntryOf := by
    refine searchTable_sliceStable valueBefore_iff ?_ ?_
    · intro d member
      rw [valueKey, Prod.Lex.toLex_lt_toLex, Prod.Lex.toLex_lt_toLex, ← signed d member]
      simp [valueEntryOf, UInt32.lt_iff_toNat_lt, Int32.lt_iff_toInt_lt, ← UInt32.toNat_inj]
    · intro d member
      rw [valueKey, ← signed d member, toLex_inj, Prod.mk.injEq, toLex_inj, Prod.mk.injEq,
        UInt32.toNat_inj, UInt32.toNat_inj, Int32.toInt_inj]
      simp [valueEntryOf, and_assoc]
  rw [diamEnumName, found, Option.map_map,
    List.find?_congr fun d member => decide_eq_decide.mpr (hits d member)]
  rfl

/-- A row of the dictionary gives an AVP with its name and type. -/
structure Describes (e : DictEntry) (a : Avp) : Prop where
  code : e.code = a.code
  vendorId : e.vendorId = a.vendorId
  name : e.name = a.name
  type : types[e.type.toNat]? = some a.type

theorem entryOf_describes (a : Avp) : Describes (entryOf a) a := by
  refine ⟨rfl, rfl, rfl, ?_⟩
  unfold entryOf
  cases a.type <;> rfl

/-- The generated tables answer as the specification does: with the first AVP of the code
and vendor, and with the first value of it that is the one asked for in 32 bits. -/
theorem tables_answer (spec : Spec) (declared : ∀ a ∈ spec.avps, a.Declared spec)
    (fits : ∀ d ∈ spec.defined, -2 ^ 31 ≤ d.2.value ∧ d.2.value < 2 ^ 32) :
    ∃ m, build spec = .ok m ∧ ((compile m).isSome ↔ ((enumerators m).map Prod.fst).Nodup) ∧
      ∀ t, compile m = some t →
        (∀ code vendorId, Option.Rel Describes (diamDictGet t.dict code vendorId)
          (spec.avps.find? fun a => a.code = code ∧ a.vendorId = vendorId)) ∧
        ∀ code vendorId value, diamEnumName t.values code vendorId value =
          (spec.defined.find? fun d => d.1.code = code ∧ d.1.vendorId = vendorId ∧
            Int32.ofInt d.2.value = value).map fun d => d.2.name := by
  refine ⟨modelOf spec, build_of_declared declared, ⟨?_, ?_⟩, ?_⟩
  · intro compiled
    by_contra clash
    rw [compile, if_neg clash] at compiled
    cases compiled
  · intro distinct
    rw [compile_of_distinct declared distinct]
    rfl
  · intro t compiled
    have distinct : ((enumerators (modelOf spec)).map Prod.fst).Nodup := by
      by_contra clash
      rw [compile, if_neg clash] at compiled
      cases compiled
    rw [compile_of_distinct declared distinct, Option.some.injEq] at compiled
    subst compiled
    refine ⟨fun code vendorId => ?_, diamEnumName_tablesOf fits⟩
    rw [diamDictGet_tablesOf]
    cases spec.avps.find? fun a => a.code = code ∧ a.vendorId = vendorId with
    | none => exact .none
    | some a => exact .some (entryOf_describes a)

def mediaSpec : Spec where
  vendors := [⟨"3GPP", 10415⟩]
  apps := []
  commands := []
  avps := [⟨"Media-Type", "MEDIA_TYPE", 520, "3GPP", 10415, .enumerated, false,
      [⟨"AUDIO", "AUDIO", 0⟩, ⟨"OTHER", "OTHER", 0xFFFFFFFF⟩]⟩]

theorem tables_answer_media : ∃ m t, build mediaSpec = .ok m ∧ compile m = some t ∧
    diamEnumName t.values 520 10415 (-1) = some "OTHER" := by
  have declared : ∀ a ∈ mediaSpec.avps, a.Declared mediaSpec := by
    intro a member
    simp only [mediaSpec, List.mem_cons, List.not_mem_nil, or_false] at member
    subst member
    exact .inr ⟨by decide, ⟨"3GPP", 10415⟩, by decide, rfl, rfl⟩
  have fits : ∀ d ∈ mediaSpec.defined, -2 ^ 31 ≤ d.2.value ∧ d.2.value < 2 ^ 32 := by decide
  obtain ⟨m, built, compiles, answers⟩ := tables_answer mediaSpec declared fits
  have same : m = modelOf mediaSpec := by
    rw [build_of_declared declared] at built
    exact (Except.ok.inj built).symm
  have distinct : ((enumerators m).map Prod.fst).Nodup := by
    simp only [same, enumerators, modelOf, sliceStable, mediaSpec, List.map_nil,
      List.map_cons, List.mergeSort_nil, List.mergeSort_singleton]
    decide +kernel
  obtain ⟨t, compiled⟩ := Option.isSome_iff_exists.mp (compiles.mpr distinct)
  refine ⟨m, t, built, compiled, ?_⟩
  rw [(answers t compiled).2]
  decide

end Pro2Call.Diam.Gen

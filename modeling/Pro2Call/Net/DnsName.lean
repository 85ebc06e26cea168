import Mathlib.Data.List.Basic
import Pro2Call.Data.Bytes
import Pro2Call.Data.Labels

namespace Pro2Call.Net

open Pro2Call.Data

def dot : UInt8 := 46

def dnsQnameFrom (w : Nat) (name : List UInt8) : Option (List UInt8) :=
  match name with
  | [] => some [0]
  | first :: rest =>
    let label := (first :: rest).takeWhile (· ≠ dot)
    if label.length = 0 ∨ 63 < label.length ∨ 255 < w + label.length + 2 then none
    else
      (dnsQnameFrom (w + 1 + label.length)
        ((first :: rest).drop (label.length + 1))).map fun tail =>
          UInt8.ofNat label.length :: label ++ tail
termination_by name.length
decreasing_by
  simp only [List.length_drop]
  have : 0 < (first :: rest).length := Nat.succ_pos _
  omega

def dnsQname (name : List UInt8) : Option (List UInt8) := dnsQnameFrom 0 name

def addLabel (out label : List UInt8) : List UInt8 :=
  if out = [] then label else out ++ dot :: label

/-- The loop of `dns_name`: `o` is the position, `out` the text written, and `past`
the offset just past the name, once a pointer was followed. -/
def dnsNameFrom (p : List UInt8) (o : Nat) (out : List UInt8) (jumps : Nat)
    (past : Option Nat) : Option (Nat × List UInt8) :=
  match _here : p[o]? with
  | none => none
  | some l =>
    if l = 0 then some (past.getD (o + 1), out)
    else if l &&& 0xC0 = 0xC0 then
      match p[o + 1]? with
      | none => none
      | some low =>
        if 40 < jumps + 1 then none
        else
          dnsNameFrom p ((l &&& 0x3F).toNat * 256 + low.toNat) out (jumps + 1)
            (some (past.getD (o + 2)))
    else if l &&& 0xC0 ≠ 0 then none
    else if p.length < o + 1 + l.toNat ∨ 256 < out.length + l.toNat + 2 then none
    else
      dnsNameFrom p (o + 1 + l.toNat) (addLabel out (slice p (o + 1) l.toNat)) jumps past
termination_by (41 - jumps) * (p.length + 1) + (p.length - o)
decreasing_by
  · have fewer : 41 - jumps = 41 - (jumps + 1) + 1 := by omega
    rw [fewer, Nat.succ_mul]
    omega
  · have inside := (List.getElem?_eq_some_iff.mp _here).1
    omega

def dnsName (p : List UInt8) (off : Nat) : Option (Nat × List UInt8) := dnsNameFrom p off [] 0 none

/-- The packet has a name at `o`, of these labels; `past` is the offset just past
it. -/
inductive NameAt (p : List UInt8) : Nat → List (List UInt8) → Nat → Prop
  | root {o : Nat} (here : p[o]? = some 0) : NameAt p o [] (o + 1)
  | label {o past : Nat} {l : UInt8} {labels : List (List UInt8)}
      (here : p[o]? = some l) (nonzero : l ≠ 0) (plain : l &&& 0xC0 = 0)
      (inside : o + 1 + l.toNat ≤ p.length)
      (rest : NameAt p (o + 1 + l.toNat) labels past) :
      NameAt p o (slice p (o + 1) l.toNat :: labels) past
  | pointer {o past : Nat} {l low : UInt8} {labels : List (List UInt8)}
      (here : p[o]? = some l) (marked : l &&& 0xC0 = 0xC0) (there : p[o + 1]? = some low)
      (target : NameAt p ((l &&& 0x3F).toNat * 256 + low.toNat) labels past) :
      NameAt p o labels (o + 2)

variable {p out text : List UInt8} {labels : List (List UInt8)} {past : Option Nat}

theorem NameAt.unique {o past past' : Nat} (name : NameAt p o labels past)
    (name' : NameAt p o labels' past') :
    labels = labels' ∧ past = past' := by
  induction name generalizing labels' past' with
  | root here =>
    cases name' with
    | root => exact ⟨rfl, rfl⟩
    | label here' nonzero =>
      cases here.symm.trans here'
      exact absurd rfl nonzero
    | pointer here' marked =>
      cases here.symm.trans here'
      cases marked
  | label here nonzero plain inside rest ih =>
    cases name' with
    | root here' =>
      cases here.symm.trans here'
      exact absurd rfl nonzero
    | label here' _ _ _ rest' =>
      cases here.symm.trans here'
      obtain ⟨same, past⟩ := ih rest'
      exact ⟨by rw [same], past⟩
    | pointer here' marked =>
      cases here.symm.trans here'
      rw [plain] at marked
      cases marked
  | pointer here marked there target ih =>
    cases name' with
    | root here' =>
      cases here.symm.trans here'
      cases marked
    | label here' _ plain =>
      cases here.symm.trans here'
      rw [plain] at marked
      cases marked
    | pointer here' _ there' target' =>
      cases here.symm.trans here'
      cases there.symm.trans there'
      exact ⟨(ih target').1, rfl⟩

theorem NameAt.labels_ne_nil {o past : Nat}
    (name : NameAt p o labels past) : ∀ label ∈ labels, label ≠ [] := by
  induction name with
  | root => simp
  | label here nonzero plain inside rest ih =>
    intro label member
    rcases List.mem_cons.mp member with rfl | later
    · intro empty
      have sized := congrArg List.length empty
      rw [length_slice inside] at sized
      exact nonzero (UInt8.toNat_inj.mp sized)
    · exact ih label later
  | pointer here marked there target ih => exact ih

theorem NameAt.past_le {o past : Nat}
    (name : NameAt p o labels past) : o < past ∧ past ≤ p.length := by
  induction name with
  | root here =>
    have inside := (List.getElem?_eq_some_iff.mp here).1
    omega
  | label here nonzero plain inside rest ih => omega
  | pointer here marked there target ih =>
    have inside := (List.getElem?_eq_some_iff.mp there).1
    omega

theorem dnsNameFrom_sound {o jumps e : Nat}
    (read : dnsNameFrom p o out jumps past = some (e, text)) :
    ∃ labels past', NameAt p o labels past' ∧ text = labels.foldl addLabel out ∧
      e = past.getD past' := by
  fun_induction dnsNameFrom p o out jumps past with
  | case1 => cases read
  | case2 o out jumps past here =>
    cases read
    exact ⟨[], o + 1, .root here, rfl, rfl⟩
  | case3 => cases read
  | case4 => cases read
  | case5 o out jumps past l here nonzero marked low there few ih =>
    obtain ⟨labels, past', name, same, ended⟩ := ih read
    exact ⟨labels, o + 2, .pointer here marked there name, same, ended⟩
  | case6 => cases read
  | case7 => cases read
  | case8 o out jumps past l here nonzero unmarked plain fits ih =>
    obtain ⟨labels, past', name, same, ended⟩ := ih read
    simp only [not_or, Nat.not_lt] at fits
    simp only [ne_eq, not_not] at plain
    exact ⟨_, past', .label here nonzero plain fits.1 name, same, ended⟩

theorem joined_cons_cons (out label : List UInt8) (labels : List (List UInt8)) :
    joined dot (out :: label :: labels) = joined dot ((out ++ dot :: label) :: labels) := by
  by_cases last : labels = []
  · subst last
    rw [joined_cons out (List.cons_ne_nil _ _), joined_singleton, joined_singleton]
  · rw [joined_cons out (List.cons_ne_nil _ _), joined_cons label last, joined_cons _ last,
      List.append_assoc, List.cons_append]

theorem foldl_addLabel_of_ne_nil (begun : out ≠ [])
    (labels : List (List UInt8)) : labels.foldl addLabel out = joined dot (out :: labels) := by
  induction labels generalizing out with
  | nil => simp
  | cons label labels ih =>
    rw [List.foldl_cons, addLabel, if_neg begun, ih (by simp), joined_cons_cons]

theorem foldl_addLabel (full : ∀ label ∈ labels, label ≠ []) :
    labels.foldl addLabel [] = joined dot labels := by
  cases labels with
  | nil => rfl
  | cons label labels =>
    rw [List.foldl_cons, addLabel, if_pos rfl]
    exact foldl_addLabel_of_ne_nil (full label List.mem_cons_self) labels

theorem dnsName_sound (read : dnsName p off = some (e, text)) :
    ∃ labels, NameAt p off labels e ∧ text = joined dot labels := by
  obtain ⟨labels, past, name, same, rfl⟩ := dnsNameFrom_sound read
  exact ⟨labels, name, same.trans (foldl_addLabel name.labels_ne_nil)⟩

def wireName (labels : List (List UInt8)) : List UInt8 :=
  labels.flatMap (fun label => UInt8.ofNat label.length :: label) ++ [0]

theorem wireName_cons (label : List UInt8) (labels : List (List UInt8)) :
    wireName (label :: labels) = UInt8.ofNat label.length :: label ++ wireName labels := by
  simp [wireName]

theorem dnsQnameFrom_spec {name wire : List UInt8} (room : w ≤ 254)
    (written : dnsQnameFrom w name = some wire) :
    wire = wireName (labelsOf dot name) ∧ w + wire.length ≤ 255 ∧
      ∀ label ∈ labelsOf dot name, 0 < label.length ∧ label.length ≤ 63 := by
  fun_induction dnsQnameFrom w name generalizing wire with
  | case1 =>
    cases written
    refine ⟨by rw [labelsOf]; rfl, ?_, ?_⟩
    · simp only [List.length_singleton]
      omega
    · intro label member
      simp [labelsOf] at member
  | case2 => cases written
  | case3 w first rest label fits =>
    rename_i ih
    simp only [not_or, Nat.not_lt] at fits
    obtain ⟨tail, later, rfl⟩ := Option.map_eq_some_iff.mp written
    obtain ⟨same, sized, valid⟩ := ih (by omega) later
    rw [labelsOf]
    refine ⟨?_, ?_, ?_⟩
    · rw [wireName_cons, same]
    · simp only [List.length_append, List.length_cons]
      omega
    · intro other member
      rcases List.mem_cons.mp member with rfl | behind
      · exact ⟨Nat.pos_of_ne_zero fits.1, fits.2.1⟩
      · exact valid other behind

theorem label_bits {label : List UInt8} (nonempty : 0 < label.length) (short : label.length ≤ 63) :
    UInt8.ofNat label.length ≠ 0 ∧ UInt8.ofNat label.length &&& 0xC0 = 0 ∧
      (UInt8.ofNat label.length).toNat = label.length := by
  have bits : ∀ n : Fin 64, UInt8.ofNat n &&& 0xC0 = 0 := by decide
  have value : (UInt8.ofNat label.length).toNat = label.length := by
    rw [UInt8.toNat_ofNat']
    omega
  refine ⟨?_, bits ⟨label.length, by omega⟩, value⟩
  intro zero
  rw [zero] at value
  simp only [UInt8.toNat_zero] at value
  omega

theorem dnsNameFrom_root {o jumps : Nat} (here : p[o]? = some 0) :
    dnsNameFrom p o out jumps past = some (past.getD (o + 1), out) := by
  rw [dnsNameFrom]
  split
  · rename_i outside
    rw [here] at outside
    cases outside
  · rename_i l found
    cases here.symm.trans found
    rw [if_pos rfl]

theorem dnsNameFrom_label {o jumps : Nat} (here : p[o]? = some l) (nonzero : l ≠ 0)
    (plain : l &&& 0xC0 = 0)
    (inside : o + 1 + l.toNat ≤ p.length) (fits : out.length + l.toNat + 2 ≤ 256) :
    dnsNameFrom p o out jumps past =
      dnsNameFrom p (o + 1 + l.toNat) (addLabel out (slice p (o + 1) l.toNat)) jumps past := by
  have unmarked : ¬ (l &&& 0xC0 = 0xC0) := by
    rw [plain]
    decide
  conv_lhs => rw [dnsNameFrom]
  split
  · rename_i outside
    rw [here] at outside
    cases outside
  · rename_i l' found
    cases here.symm.trans found
    rw [if_neg nonzero, if_neg unmarked, if_neg (not_not.mpr plain), if_neg (by omega)]

theorem length_addLabel_le (out label : List UInt8) :
    (addLabel out label).length ≤ out.length + 1 + label.length := by
  unfold addLabel
  split
  · omega
  · simp only [List.length_append, List.length_cons]
    omega

theorem dnsNameFrom_wireName {front tail : List UInt8} {jumps : Nat}
    (packet : p = front ++ wireName labels ++ tail)
    (valid : ∀ label ∈ labels, 0 < label.length ∧ label.length ≤ 63)
    (fits : out.length + (wireName labels).length ≤ 256) :
    dnsNameFrom p front.length out jumps past =
      some (past.getD (front.length + (wireName labels).length), labels.foldl addLabel out) := by
  induction labels generalizing front out with
  | nil =>
    have here : p[front.length]? = some 0 := by
      rw [packet]
      simp [wireName]
    rw [dnsNameFrom_root here]
    rfl
  | cons label labels ih =>
    obtain ⟨nonempty, short⟩ := valid label List.mem_cons_self
    obtain ⟨nonzero, plain, value⟩ := label_bits nonempty short
    have next : p = (front ++ UInt8.ofNat label.length :: label) ++ wireName labels ++ tail := by
      rw [packet, wireName_cons]
      simp only [List.append_assoc, List.cons_append]
    have here : p[front.length]? = some (UInt8.ofNat label.length) := by
      rw [next]
      simp
    have sliced : slice p (front.length + 1) label.length = label := by
      have cut : p = (front ++ [UInt8.ofNat label.length]) ++ label ++
          (wireName labels ++ tail) := by
        rw [next]
        simp
      have sized : (front ++ [UInt8.ofNat label.length]).length = front.length + 1 := by
        simp
      rw [cut, ← sized]
      exact slice_append_length _ _ _
    have sized : (wireName (label :: labels)).length =
        1 + label.length + (wireName labels).length := by
      rw [wireName_cons]
      simp only [List.length_append, List.length_cons]
      omega
    have ends : 1 ≤ (wireName labels).length := by simp [wireName]
    have inside : front.length + 1 + label.length ≤ p.length := by
      rw [next]
      simp only [List.length_append, List.length_cons]
      omega
    have longer := length_addLabel_le out label
    have later := ih next (fun other member => valid other (List.mem_cons_of_mem label member))
      (show (addLabel out label).length + _ ≤ _ by omega)
    have start : (front ++ UInt8.ofNat label.length :: label).length =
        front.length + 1 + label.length := by
      simp only [List.length_append, List.length_cons]
      omega
    rw [start] at later
    rw [dnsNameFrom_label here nonzero plain (by omega) (by omega), value, sliced, later,
      sized, List.foldl_cons]
    simp only [Nat.add_assoc]

theorem dnsName_dnsQname {name wire front tail : List UInt8}
    (written : dnsQname name = some wire) (packet : p = front ++ wire ++ tail) :
    dnsName p front.length = some (front.length + wire.length, joined dot (labelsOf dot name)) := by
  obtain ⟨rfl, sized, valid⟩ := dnsQnameFrom_spec (by omega) written
  have full : ∀ label ∈ labelsOf dot name, label ≠ [] :=
    fun label member => List.length_pos_iff.mp (valid label member).1
  rw [dnsName, dnsNameFrom_wireName packet valid (by simp only [List.length_nil]; omega),
    foldl_addLabel full]
  rfl

/-- `dns_name` over memory, which has a byte at every address: what it returns, if
it does not fail, and the characters in `out`. -/
def dnsNameRaw (mem : Nat → UInt8) (n o : Nat) (out : List UInt8) (jumps : Nat)
    (past : Option Nat) : Option Nat × List UInt8 :=
  if n ≤ o then (none, out)
  else
    let l := mem o
    if l = 0 then (some (past.getD (o + 1)), out)
    else if l &&& 0xC0 = 0xC0 then
      if n ≤ o + 1 ∨ 40 < jumps + 1 then (none, out)
      else
        dnsNameRaw mem n ((l &&& 0x3F).toNat * 256 + (mem (o + 1)).toNat) out (jumps + 1)
          (some (past.getD (o + 2)))
    else if l &&& 0xC0 ≠ 0 then (none, out)
    else if n < o + 1 + l.toNat ∨ 256 < out.length + l.toNat + 2 then (none, out)
    else
      dnsNameRaw mem n (o + 1 + l.toNat)
        (addLabel out ((List.range l.toNat).map fun i => mem (o + 1 + i))) jumps past
termination_by (41 - jumps) * (n + 1) + (n - o)
decreasing_by
  · have fewer : 41 - jumps = 41 - (jumps + 1) + 1 := by omega
    rw [fewer, Nat.succ_mul]
    omega
  · omega

section Raw

variable {mem mem' : Nat → UInt8} {n o jumps : Nat}

def packet (mem : Nat → UInt8) (n : Nat) : List UInt8 := (List.range n).map mem

theorem getElem?_packet : (packet mem n)[o]? = if o < n then some (mem o) else none := by
  rw [packet, List.getElem?_map]
  split_ifs with inside
  · rw [List.getElem?_range inside, Option.map_some]
  · rw [List.getElem?_eq_none (by simpa using inside), Option.map_none]

theorem slice_packet {size : Nat} (inside : o + size ≤ n) :
    slice (packet mem n) o size = (List.range size).map fun i => mem (o + i) := by
  apply List.ext_getElem?
  intro i
  rw [slice, List.getElem?_take, List.getElem?_drop, getElem?_packet, List.getElem?_map]
  split_ifs with below within
  · rw [List.getElem?_range below, Option.map_some]
  · omega
  · rw [List.getElem?_eq_none (by simpa using below), Option.map_none]

theorem dnsNameFrom_packet (mem : Nat → UInt8) (n o : Nat) (out : List UInt8) (jumps : Nat)
    (past : Option Nat) : dnsNameFrom (packet mem n) o out jumps past =
      (dnsNameRaw mem n o out jumps past).1.map (·, (dnsNameRaw mem n o out jumps past).2) := by
  fun_induction dnsNameRaw mem n o out jumps past with
  | case7 o out jumps past inside l nonzero unmarked bits fits ih =>
    rw [dnsNameFrom]
    split <;> grind [getElem?_packet, packet, slice_packet]
  | _ =>
    rw [dnsNameFrom]
    split <;> grind [getElem?_packet, packet]

theorem dnsNameRaw_congr (same : ∀ i < n, mem' i = mem i) :
    dnsNameRaw mem' n o out jumps past = dnsNameRaw mem n o out jumps past := by
  fun_induction dnsNameRaw mem n o out jumps past with
  | case7 o out jumps past inside l nonzero unmarked bits fits ih =>
    have label : (List.range l.toNat).map (fun i => mem' (o + 1 + i)) =
        (List.range l.toNat).map fun i => mem (o + 1 + i) := by
      apply List.map_congr_left
      intro i member
      have below := List.mem_range.mp member
      exact same _ (by omega)
    rw [dnsNameRaw]
    grind
  | _ =>
    rw [dnsNameRaw]
    grind

theorem length_dnsNameRaw (small : out.length ≤ 255) :
    (dnsNameRaw mem n o out jumps past).2.length ≤ 255 := by
  fun_induction dnsNameRaw mem n o out jumps past with
  | case4 o out jumps past inside l nonzero marked stop ih => exact ih small
  | case7 o out jumps past inside l nonzero unmarked bits fits ih =>
    apply ih
    have longer := length_addLabel_le out ((List.range l.toNat).map fun i => mem (o + 1 + i))
    rw [List.length_map, List.length_range] at longer
    omega
  | _ => exact small

/-- Whatever the packet and the offset, the bytes outside the packet do not matter,
the text fits in front of a terminator, and the offset that is returned is the one
just past the name. -/
theorem dnsName_safe (mem : Nat → UInt8) (n off : Nat) :
    (dnsNameRaw mem n off [] 0 none).2.length ≤ 255 ∧ (∀ mem', (∀ i < n, mem' i = mem i) →
        dnsNameRaw mem' n off [] 0 none = dnsNameRaw mem n off [] 0 none) ∧
      ∀ e, (dnsNameRaw mem n off [] 0 none).1 = some e → e ≤ n ∧
        ∃ labels, NameAt (packet mem n) off labels e ∧
          (dnsNameRaw mem n off [] 0 none).2 = joined dot labels := by
  refine ⟨length_dnsNameRaw (Nat.zero_le _), fun mem' same => dnsNameRaw_congr same, ?_⟩
  intro e returned
  have read := dnsNameFrom_packet mem n off [] 0 none
  rw [returned, Option.map_some] at read
  obtain ⟨labels, name, text⟩ := dnsName_sound read
  have inside := name.past_le.2
  rw [packet, List.length_map, List.length_range] at inside
  exact ⟨inside, labels, name, text⟩

end Raw

def asciiLower (b : UInt8) : UInt8 :=
  if 65 ≤ b ∧ b ≤ 90 then b + 32 else b

def cString (buffer : List UInt8) : List UInt8 := buffer.takeWhile (· ≠ 0)

def strcaseeq (a b : List UInt8) : Bool := (cString a).map asciiLower = (cString b).map asciiLower

theorem asciiLower_range (letter : 65 ≤ b ∧ b ≤ 90) :
    97 ≤ (asciiLower b).toNat ∧ (asciiLower b).toNat ≤ 122 := by
  obtain ⟨low, high⟩ := letter
  have low' : 65 ≤ b.toNat := UInt8.le_iff_toNat_le.mp low
  have high' : b.toNat ≤ 90 := UInt8.le_iff_toNat_le.mp high
  rw [asciiLower, if_pos ⟨low, high⟩, UInt8.toNat_add]
  simp only [UInt8.reduceToNat]
  omega

theorem asciiLower_eq_iff {b c : UInt8} (other : c.toNat < 65) : asciiLower b = c ↔ b = c := by
  by_cases letter : 65 ≤ b ∧ b ≤ 90
  · have range := asciiLower_range letter
    constructor
    · rintro rfl
      omega
    · rintro rfl
      have low : 65 ≤ b.toNat := UInt8.le_iff_toNat_le.mp letter.1
      omega
  · rw [asciiLower, if_neg letter]

@[simp] theorem asciiLower_dot : asciiLower dot = dot := (asciiLower_eq_iff (by decide)).mpr rfl

theorem mem_map_asciiLower {c : UInt8} (other : c.toNat < 65) :
    c ∈ text.map asciiLower ↔ c ∈ text := by
  rw [List.mem_map]
  constructor
  · rintro ⟨b, member, same⟩
    rwa [← (asciiLower_eq_iff other).mp same]
  · intro member
    exact ⟨c, member, (asciiLower_eq_iff other).mpr rfl⟩

theorem cString_of_not_mem (plain : 0 ∉ text) : cString text = text := by
  rw [cString, List.takeWhile_eq_self_iff]
  intro b member
  simp only [ne_eq, decide_not, Bool.not_eq_true', decide_eq_false_iff_not]
  rintro rfl
  exact plain member

end Pro2Call.Net

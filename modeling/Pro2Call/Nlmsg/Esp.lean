import Mathlib.Data.Finset.Erase
import Mathlib.Data.Finset.Insert
import Pro2Call.Data.Run
import Pro2Call.Nlmsg.Xfrm

namespace Pro2Call.Nlmsg

open Pro2Call.Data

/-! The SAs and policies of one IMS-AKA registration: what `Esp::establish` installs in
the kernel, and what `Esp::release` takes out of it. -/

abbrev SaKey := Address × UInt32 × UInt8

/-- The octets of the selector, and the direction. -/
abbrev PolicyKey := List UInt8 × UInt8

structure Xfrm where
  seq : UInt32
  sas : Finset SaKey
  policies : Finset PolicyKey

def saIdKey (inet : Pton) (id : XfrmSaId) : Option SaKey :=
  (addrPton inet id.dst).toOption.map fun dst => (dst, id.spi, id.proto)

def policyIdKey (inet : Pton) (id : XfrmPolicyId) : Option PolicyKey :=
  if id.index ≠ 0 then none
  else (fillSelector inet id.sel).toOption.map fun sel => (sel.bytes, id.dir)

def XfrmCall.sent (inet : Pton) (x : Xfrm) (call : XfrmCall) : Bool :=
  (call.build inet (zeros xfrmBufMax) x.seq).isOk

section Keys

variable {Key : Type} [DecidableEq Key] {refused sent : Bool} {key : Option Key}
  {set set' : Finset Key}

/-- The set after an add, `none` when it fails; `refused` stands for any reason of the
kernel's. -/
def addKey (refused sent : Bool) (key : Option Key) (set : Finset Key) : Option (Finset Key) :=
  match key, sent with
  | some key, true => if refused ∨ key ∈ set then none else some (insert key set)
  | _, _ => none

def delKey (sent : Bool) (key : Option Key) (set : Finset Key) : Finset Key :=
  match key, sent with
  | some key, true => set.erase key
  | _, _ => set

theorem addKey_eq_some (added : addKey refused sent key set = some set') :
    ∃ new, key = some new ∧ new ∉ set ∧ set' = insert new set := by
  unfold addKey at added
  split at added
  · rename_i new
    split at added
    · cases added
    rename_i free
    cases added
    exact ⟨new, rfl, fun held => free (.inr held), rfl⟩
  · cases added

end Keys

def Xfrm.next (x : Xfrm) (sent : Bool) : UInt32 := if sent then x.seq + 1 else x.seq

def Xfrm.saAdd (inet : Pton) (refused : Bool) (x : Xfrm) (sa : XfrmSa) : Xfrm × Bool :=
  let sent := XfrmCall.sent inet x (.sa sa)
  match addKey refused sent (saIdKey inet ⟨sa.dst, sa.spi, sa.proto⟩) x.sas with
  | some sas => ({ x with seq := x.next sent, sas := sas }, true)
  | none => ({ x with seq := x.next sent }, false)

def Xfrm.policyAdd (inet : Pton) (refused : Bool) (x : Xfrm) (pol : XfrmPolicy) : Xfrm × Bool :=
  let sent := XfrmCall.sent inet x (.policy pol)
  match addKey refused sent (policyIdKey inet ⟨pol.sel, pol.dir, 0⟩) x.policies with
  | some policies => ({ x with seq := x.next sent, policies := policies }, true)
  | none => ({ x with seq := x.next sent }, false)

def Xfrm.saDel (inet : Pton) (x : Xfrm) (id : XfrmSaId) : Xfrm :=
  let sent := XfrmCall.sent inet x (.saDel id)
  { x with seq := x.next sent, sas := delKey sent (saIdKey inet id) x.sas }

def Xfrm.policyDel (inet : Pton) (x : Xfrm) (id : XfrmPolicyId) : Xfrm :=
  let sent := XfrmCall.sent inet x (.policyDel id)
  { x with seq := x.next sent, policies := delKey sent (policyIdKey inet id) x.policies }

structure EspConfig where
  ue : List UInt8
  pcscf : List UInt8
  portUc : UInt16
  portUs : UInt16
  portPc : UInt16
  portPs : UInt16
  spiUc : UInt32
  spiUs : UInt32
  spiPc : UInt32
  spiPs : UInt32
  authAlg : List UInt8
  authKey : List UInt8
  encAlg : List UInt8
  encKey : List UInt8

/-- What was installed, and how much the last `establish` was refused. -/
structure Esp where
  sas : List XfrmSaId
  pols : List XfrmPolicyId
  failed : Nat

def cStr (s : List UInt8) : List UInt8 := s.takeWhile (· ≠ 0)

def algoOf (name key : List UInt8) : Option Algo :=
  if name = [] then none else some (cStr name, key.take (key.length % 2 ^ 16))

def espSa (c : EspConfig) (src dst : List UInt8) (spi : UInt32) : XfrmSa where
  src := some (cStr src)
  dst := some (cStr dst)
  spi := spi
  proto := 50
  mode := 0
  reqid := spi
  replayWindow := 0
  flags := 0
  enc := algoOf c.encAlg c.encKey
  auth := algoOf c.authAlg c.authKey
  aead := none
  aeadIcvBits := 0
  encapSport := 0
  encapDport := 0
  encapOaddr := none

def dirIn : UInt8 := 0
def dirOut : UInt8 := 1

def espPolicy (dir : UInt8) (src dst : List UInt8) (sport dport : UInt16) (reqid : UInt32) :
    XfrmPolicy :=
  let host : UInt8 := if 0x3A ∈ src then 128 else 32
  { sel := ⟨some (cStr src), host, some (cStr dst), host, 17, sport, dport⟩
    dir := dir
    action := 0
    priority := 0
    index := 0
    hasTmpl := true
    tmplSrc := none
    tmplDst := none
    tmplReqid := reqid
    tmplProto := 50
    tmplMode := 0 }

def EspConfig.Set (c : EspConfig) : Prop :=
  c.ue ≠ [] ∧ c.pcscf ≠ [] ∧ c.portUc ≠ 0 ∧ c.portUs ≠ 0 ∧ c.portPc ≠ 0 ∧ c.portPs ≠ 0 ∧
    c.spiUc ≠ 0 ∧ c.spiUs ≠ 0 ∧ c.spiPc ≠ 0 ∧ c.spiPs ≠ 0 ∧ c.authAlg ≠ [] ∧ c.authKey ≠ []

instance (c : EspConfig) : Decidable c.Set := by unfold EspConfig.Set; infer_instance

def addSa (inet : Pton) (st : Xfrm × Esp) (add : XfrmSa × Bool) : Xfrm × Esp :=
  match st.1.saAdd inet add.2 add.1 with
  | (x, true) => (x, { st.2 with sas := st.2.sas ++ [⟨add.1.dst, add.1.spi, add.1.proto⟩] })
  | (x, false) => (x, { st.2 with failed := st.2.failed + 1 })

def addPolicy (inet : Pton) (st : Xfrm × Esp) (add : XfrmPolicy × Bool) : Xfrm × Esp :=
  match st.1.policyAdd inet add.2 add.1 with
  | (x, true) => (x, { st.2 with pols := st.2.pols ++ [⟨add.1.sel, add.1.dir, 0⟩] })
  | (x, false) => (x, { st.2 with failed := st.2.failed + 1 })

/-- SA1 to SA4, and for each whether the kernel refuses it. -/
def EspConfig.sas (c : EspConfig) (refused : Fin 8 → Bool) : List (XfrmSa × Bool) :=
  [(espSa c c.ue c.pcscf c.spiPs, refused 0), (espSa c c.pcscf c.ue c.spiUs, refused 1),
    (espSa c c.pcscf c.ue c.spiUc, refused 2), (espSa c c.ue c.pcscf c.spiPc, refused 3)]

def EspConfig.pols (c : EspConfig) (refused : Fin 8 → Bool) : List (XfrmPolicy × Bool) :=
  [(espPolicy dirOut c.ue c.pcscf c.portUc c.portPs c.spiPs, refused 4),
    (espPolicy dirIn c.pcscf c.ue c.portPc c.portUs c.spiUs, refused 5),
    (espPolicy dirIn c.pcscf c.ue c.portPs c.portUc c.spiUc, refused 6),
    (espPolicy dirOut c.ue c.pcscf c.portUs c.portPc c.spiPc, refused 7)]

def establish (inet : Pton) (st : Xfrm × Esp) (call : EspConfig × (Fin 8 → Bool)) : Xfrm × Esp :=
  if call.1.Set then
    run (addPolicy inet) (run (addSa inet) (st.1, { st.2 with failed := 0 })
      (call.1.sas call.2)) (call.1.pols call.2)
  else (st.1, { st.2 with failed := 0 })

def release (inet : Pton) (st : Xfrm × Esp) : Xfrm × Esp :=
  (run (Xfrm.saDel inet) (run (Xfrm.policyDel inet) st.1 st.2.pols) st.2.sas,
    { st.2 with sas := [], pols := [] })

section Installed

variable {Id Key State : Type} [DecidableEq Key] {keyOf : Id → Option Key}
  {base now : Finset Key} {ids : List Id} {id : Id} {key : Key}

def Installed (keyOf : Id → Option Key) (base now : Finset Key) (ids : List Id) : Prop :=
  ∃ keys : List Key, ids.map keyOf = keys.map some ∧ keys.Nodup ∧ (∀ key ∈ keys, key ∉ base) ∧
    ∀ key, key ∈ now ↔ key ∈ base ∨ key ∈ keys

theorem Installed.add (installed : Installed keyOf base now ids) (known : keyOf id = some key)
    (new : key ∉ now) : Installed keyOf base (insert key now) (ids ++ [id]) := by
  obtain ⟨keys, same, distinct, fresh, held⟩ := installed
  rw [held, not_or] at new
  refine ⟨keys ++ [key], by simp [same, known], ?_, ?_, ?_⟩
  · exact List.nodup_append.mpr ⟨distinct, List.nodup_singleton key, by grind⟩
  · grind
  · grind

theorem Installed.release {setOf : State → Finset Key}
    (deletes : ∀ x id key, keyOf id = some key → setOf (del x id) = (setOf x).erase key)
    {x : State} (installed : Installed keyOf base (setOf x) ids) :
    setOf (run del x ids) = base := by
  induction ids generalizing x with
  | nil =>
    obtain ⟨keys, same, _, _, held⟩ := installed
    cases List.map_eq_nil_iff.mp same.symm
    ext key
    simp [held]
  | cons id ids ih =>
    obtain ⟨keys, same, distinct, fresh, held⟩ := installed
    obtain ⟨key, keys, rfl⟩ := List.exists_cons_of_ne_nil (l := keys) (by rintro rfl; cases same)
    rw [List.map_cons, List.map_cons, List.cons.injEq] at same
    rw [List.nodup_cons] at distinct
    rw [run_cons]
    apply ih
    rw [deletes x id key same.1]
    exact ⟨keys, same.2, distinct.2, by grind, by grind⟩

end Installed

theorem built_isOk {buf fixed : List UInt8} {type flags : Nat} (short : fixed.length ≤ 64)
    (room : buf.length = xfrmBufMax) :
    (msgBegin buf type flags seq fixed >>= fun begun => msgEnd begun.1 begun.2).isOk := by
  have fits : ¬ nlmsgAlign (nlmsgHdrlen + fixed.length) > buf.length := by
    simp only [room, nlmsgAlign, nlmsgHdrlen, xfrmBufMax]
    omega
  rw [msgBegin, if_neg fits]
  rfl

variable {inet : Pton} {x : Xfrm}

theorem Xfrm.saDel_sas (x : Xfrm) (id : XfrmSaId) (key : SaKey)
    (known : saIdKey inet id = some key) : (x.saDel inet id).sas = x.sas.erase key := by
  have sent : XfrmCall.sent inet x (.saDel id) := by
    unfold saIdKey at known
    cases parsed : addrPton inet id.dst with
    | error rc =>
      rw [parsed] at known
      cases known
    | ok dst =>
      have short : (usersaId id dst).length ≤ 64 := by simp [usersaId, htonl, zeros]
      rw [XfrmCall.sent, XfrmCall.build, xfrmSaDelMsg, parsed]
      generalize buffer : zeros xfrmBufMax = buf
      exact built_isOk short (by rw [← buffer, zeros, List.length_replicate])
  rw [saDel, known, sent]
  rfl

theorem Xfrm.policyDel_policies (x : Xfrm) (id : XfrmPolicyId) (key : PolicyKey)
    (known : policyIdKey inet id = some key) :
    (x.policyDel inet id).policies = x.policies.erase key := by
  have sent : XfrmCall.sent inet x (.policyDel id) := by
    unfold policyIdKey at known
    split at known
    · cases known
    rename_i plain
    cases filled : fillSelector inet id.sel with
    | error rc =>
      rw [filled] at known
      cases known
    | ok sel =>
      have short : (sel.bytes ++ zeros 4 ++ [id.dir] ++ zeros 3).length ≤ 64 := by simp [zeros]
      rw [XfrmCall.sent, XfrmCall.build, xfrmPolicyDelMsg, userpolicyId, if_neg plain, filled]
      generalize buffer : zeros xfrmBufMax = buf
      exact built_isOk short (by rw [← buffer, zeros, List.length_replicate])
  rw [policyDel, known, sent]
  rfl

/-- Both sets hold what they held before and what is recorded as installed. -/
structure Recorded (inet : Pton) (x : Xfrm) (st : Xfrm × Esp) : Prop where
  sas : Installed (saIdKey inet) x.sas st.1.sas st.2.sas
  policies : Installed (policyIdKey inet) x.policies st.1.policies st.2.pols

theorem Recorded.addSa (st : Xfrm × Esp) (add : XfrmSa × Bool) (recorded : Recorded inet x st) :
    Recorded inet x (Nlmsg.addSa inet st add) := by
  unfold Nlmsg.addSa Xfrm.saAdd
  dsimp only
  cases added : addKey add.2 (XfrmCall.sent inet st.1 (.sa add.1))
      (saIdKey inet ⟨add.1.dst, add.1.spi, add.1.proto⟩) st.1.sas with
  | none => exact ⟨recorded.sas, recorded.policies⟩
  | some sas =>
    obtain ⟨new, known, free, rfl⟩ := addKey_eq_some added
    exact ⟨recorded.sas.add known free, recorded.policies⟩

theorem Recorded.addPolicy (st : Xfrm × Esp) (add : XfrmPolicy × Bool)
    (recorded : Recorded inet x st) : Recorded inet x (Nlmsg.addPolicy inet st add) := by
  unfold Nlmsg.addPolicy Xfrm.policyAdd
  dsimp only
  cases added : addKey add.2 (XfrmCall.sent inet st.1 (.policy add.1))
      (policyIdKey inet ⟨add.1.sel, add.1.dir, 0⟩) st.1.policies with
  | none => exact ⟨recorded.sas, recorded.policies⟩
  | some policies =>
    obtain ⟨new, known, free, rfl⟩ := addKey_eq_some added
    exact ⟨recorded.sas, recorded.policies.add known free⟩

theorem Recorded.establish (st : Xfrm × Esp) (call : EspConfig × (Fin 8 → Bool))
    (recorded : Recorded inet x st) : Recorded inet x (Nlmsg.establish inet st call) := by
  have start : Recorded inet x (st.1, { st.2 with failed := 0 }) :=
    ⟨recorded.sas, recorded.policies⟩
  unfold Nlmsg.establish
  split
  · exact run_of_invariant _ Recorded.addPolicy (run_of_invariant _ Recorded.addSa start _) _
  · exact start

/-- However often it is established, with whatever is refused, a release leaves the
kernel as it was. -/
theorem release_restores (inet : Pton) (x : Xfrm) (calls : List (EspConfig × (Fin 8 → Bool))) :
    let released := release inet (run (establish inet) (x, ⟨[], [], 0⟩) calls)
    released.1.sas = x.sas ∧ released.1.policies = x.policies := by
  have initial : Recorded inet x (x, ⟨[], [], 0⟩) :=
    ⟨⟨[], rfl, List.nodup_nil, by simp, by simp⟩, ⟨[], rfl, List.nodup_nil, by simp, by simp⟩⟩
  have recorded := run_of_invariant _ Recorded.establish initial calls
  generalize run (establish inet) (x, ⟨[], [], 0⟩) calls = st at recorded ⊢
  obtain ⟨now, esp⟩ := st
  have policies := recorded.policies.release Xfrm.policyDel_policies
  -- deleting a policy leaves the SAs, deleting an SA the policies
  have sas : (run (Xfrm.policyDel inet) now esp.pols).sas = now.sas := by
    refine run_of_invariant (fun y : Xfrm => y.sas = now.sas) ?_ rfl _
    exact fun _ _ same => same
  have kept (y : Xfrm) : (run (Xfrm.saDel inet) y esp.sas).policies = y.policies := by
    refine run_of_invariant (fun z : Xfrm => z.policies = y.policies) ?_ rfl _
    exact fun _ _ same => same
  refine ⟨?_, (kept _).trans policies⟩
  have installed := recorded.sas
  rw [← sas] at installed
  exact installed.release Xfrm.saDel_sas

end Pro2Call.Nlmsg

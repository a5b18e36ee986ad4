import StelleriYang.InterfacesReading

/-!
# Interfaces: decoding after encoding

The encoder spells two prefixes that it made up: `ip:` in the paths of addresses and mtus, and
`ianaift:` in the value of the type. Where the context takes them for `ietf-ip` and for the module
of the interface types, and the values are values of their leaves, decoding gives back what was
encoded; otherwise a call fails, the encoder does not notice, and something is missing.

## Main definitions

* `Encodable` — the models the round trip is about
* `InterfaceAccepted` — the context accepts the prefixes and the values
* `RoundTrips` — decoding after encoding gives back the configuration

## Main results

* `roundTrips_iff_accepted` — the round trip succeeds exactly when everything is accepted
* `roundTrips_iff` — and with the prefixes libyang knows, when there is nothing with a prefix
-/

namespace StelleriYang

open Interfaces
open DataTree (Reaches Adds Attempts under)
open LydNode (named findChild childrenNamed childValue named_iff mem_of_findChild
  exists_of_childValue findChild_of_perm)
open PathText (quote)

/-! ### What is claimed about which models -/

/-- A part of an address: not empty, no slash, no apostrophe. -/
structure AddressPart (s : String) : Prop where
  nonempty : s ≠ ""
  slash : '/' ∉ s.toList
  quote : quote ∉ s.toList

/-- `ip` or `ip/len`. -/
def AddressText (a : String) : Prop :=
  AddressPart a ∨ ∃ ip len, AddressPart ip ∧ AddressPart len ∧ a = ip ++ "/" ++ len

/-- An address family as the decoder makes it: not without addresses, and no two of one `ip`. -/
structure IpEncodable (ip : IetfIp) : Prop where
  nonempty : ip.address ≠ []
  address : ∀ a ∈ ip.address, AddressText a
  distinct : (ip.address.map fun a => (splitAddress a).1).Nodup

/-- A model as the decoder makes it of a validated document: its texts are those of YANG strings. -/
structure Encodable (m : IetfInterfaces) : Prop where
  names : ProperNames m
  description : ∀ i ∈ m.ifs_, ∀ d ∈ i.description, YangText d
  type : ∀ i ∈ m.ifs_, i.type ≠ some .unknown
  ipv4 : ∀ i ∈ m.ifs_, ∀ ip, i.ipv4 = some ip → IpEncodable ip
  ipv6 : ∀ i ∈ m.ifs_, ∀ ip, i.ipv6 = some ip → IpEncodable ip
  nulFree : m.NulFree

/-- The same addresses, in any order, and the same mtu. -/
structure IpAgrees (x y : IetfIp) : Prop where
  address : ∀ a, a ∈ y.address ↔ a ∈ x.address
  mtu : y.mtu = x.mtu

/-- `j` has the configuration of `i`. -/
structure Agrees (i j : IetfInterface) : Prop where
  name : j.name = i.name
  description : j.description = i.description
  enabled : j.enabled = i.enabled
  type : j.type = i.type
  ipv4 : Option.Rel IpAgrees i.ipv4 j.ipv4
  ipv6 : Option.Rel IpAgrees i.ipv6 j.ipv6

/-- Encoding and decoding gives exactly one interface for each interface of the model, with the
same configuration. -/
def RoundTrips (lyd_new_path : NewPath LydNode) (lyd_find_path : FindPath) (m : IetfInterfaces) :
    Prop :=
  ∃ t m', m.serialize lyd_new_path = .ok (some t) ∧
    IetfInterfaces.deserialize lyd_find_path [t] (some t) = .ok m' ∧
    ∃ js, m'.ifs_.Perm js ∧ List.Forall₂ Agrees m.ifs_ js

/-- The prefix `ip` stands for `ietf-ip`, and the values are values of their leaves. -/
structure IpAccepted (S : SchemaTree) (f : String) (ip : IetfIp) : Prop where
  module : S.moduleOf "ip" = some "ietf-ip"
  address : ∀ a ∈ ip.address,
    S.Accepts ((addressPlace f).child (ipName "ip")) (splitAddress a).1 ∧
      ((splitAddress a).2 ≠ "" →
        S.Accepts ((addressPlace f).child (ipName "prefix-length")) (splitAddress a).2)
  mtu : ∀ k, ip.mtu = some k → S.Accepts ((familyPlace f).child (ipName "mtu")) k.toNat.repr

/-- The context takes the type for a value of the leaf, and accepts the address families. -/
structure InterfaceAccepted (S : SchemaTree) (i : IetfInterface) : Prop where
  type : ∀ t, i.type = some t → ∃ typeType w,
    S.typeAt (interfacePlace.child (ifName "type")) = some typeType ∧
      typeType ("ianaift:" ++ ianaIfTypeToString t) = some w
  ipv4 : ∀ ip, i.ipv4 = some ip → IpAccepted S "ipv4" ip
  ipv6 : ∀ ip, i.ipv6 = some ip → IpAccepted S "ipv6" ip

/-! ### Addresses -/

theorem splitAddress_of_not_mem {a : String} (h : '/' ∉ a.toList) : splitAddress a = (a, "") := by
  rw [splitAddress, Text.splitFirst_eq_none_iff.mpr h]

theorem splitAddress_join {ip len : String} (h : '/' ∉ ip.toList) :
    splitAddress (ip ++ "/" ++ len) = (ip, len) := by
  have : Text.splitFirst '/' (ip ++ "/" ++ len) = some (ip, len) :=
    Text.splitFirst_eq_some_iff.mpr ⟨by simp, h⟩
  rw [splitAddress, this]

/-- The parts of an address, and how they are put together again. -/
theorem AddressText.split {a : String} (h : AddressText a) :
    AddressPart (splitAddress a).1 ∧
      ((splitAddress a).2 = "" ∧ a = (splitAddress a).1 ∨
        AddressPart (splitAddress a).2 ∧ a = (splitAddress a).1 ++ "/" ++ (splitAddress a).2) := by
  rcases h with h | ⟨ip, len, hip, hlen, rfl⟩
  · rw [splitAddress_of_not_mem h.slash]
    exact ⟨h, Or.inl ⟨rfl, rfl⟩⟩
  · rw [splitAddress_join hip.slash]
    exact ⟨hip, Or.inr ⟨hlen, rfl⟩⟩

/-! ### Types -/

theorem stripNsPrefix_join {m v : String} (hm : PathText.IsIdent m) :
    stripNsPrefix (m ++ ":" ++ v) = v := by
  have hcolon : ':' ∉ m.toList := fun h => absurd (hm.2 _ h) (by decide)
  have : Text.splitFirst ':' (m ++ ":" ++ v) = some (m, v) :=
    Text.splitFirst_eq_some_iff.mpr ⟨by simp, hcolon⟩
  rw [stripNsPrefix, this]
  simp only [if_neg hm.1]

/-- Whatever module the prefix stands for, it is stripped off again. -/
theorem stripNsPrefix_of_identityRef {moduleOf : String → Option String}
    {type : String → Option String} (h : IdentityRef moduleOf type) {v w : String}
    (hw : type ("ianaift:" ++ v) = some w) : stripNsPrefix w = v := by
  have hident : "ianaift:" ++ v = "ianaift" ++ ":" ++ v := by
    rw [show "ianaift:" = "ianaift" ++ ":" by decide]
  rw [hident] at hw
  obtain ⟨m, -, hm, rfl⟩ := h.prefixed "ianaift" v w (by decide) hw
  exact stripNsPrefix_join hm

/-! ### What is in the tree when everything is accepted -/

section Accepted

variable {S : SchemaTree}

/-- The instance of an address. -/
def AddressTree (a : String) (n : LydNode) : Prop :=
  ∃ ds, n = LydNode.inner (ipName "address") ds ∧
    ds.Perm ((if (splitAddress a).2 = "" then none else some (splitAddress a).2).toList.map
      (LydNode.leaf (ipName "prefix-length")) ++ [LydNode.leaf (ipName "ip") (splitAddress a).1])

/-- The container of an address family. -/
def FamilyTree (f : String) (ip : IetfIp) (n : LydNode) : Prop :=
  ∃ ds as, n = LydNode.inner (ipName f) ds ∧
    ds.Perm (ip.mtu.toList.map (fun k => LydNode.leaf (ipName "mtu") k.toNat.repr) ++ as) ∧
    List.Forall₂ AddressTree ip.address as

/-- What the calls for an address insert into its instance, after the call that creates it. -/
def addressRest (a : String) : List (List (DataTree.Step (Option QName) String) × String) :=
  (if (splitAddress a).2 = "" then none else some (splitAddress a).2).toList.map
    fun v => ([nodeStep (ipName "prefix-length")], v)

theorem ipOps_of_accepted (hS : InterfacesSchema S) {f : String} (hf : f ∈ families) {ip : IetfIp}
    (hip : IpEncodable ip) (hacc : IpAccepted S f ip) :
    ipOps S f ip = (ip.address.flatMap fun a =>
        (([nodeStep (ipName "ip")], (splitAddress a).1) :: addressRest a).map
          (under (instanceStep (ipName "address") (ipName "ip") (splitAddress a).1))) ++
      ip.mtu.toList.map fun k => ([nodeStep (ipName "mtu")], k.toNat.repr) := by
  obtain ⟨typeIp, hkIp, -⟩ := hS.ip f hf
  obtain ⟨typeLen, hkLen, -⟩ := hS.prefixLength f hf
  obtain ⟨typeMtu, hkMtu, -⟩ := hS.mtu f hf
  have haccepts : ∀ {p : Place} {type v}, S.kindAt p = some (.leaf type) → S.Accepts p v →
      type v = some v := by
    rintro p type v hk ⟨type', ht, hv⟩
    rw [SchemaTree.typeAt, hk] at ht
    cases ht
    exact hv
  rw [ipOps, ipInner, List.filterMap_append, List.filterMap_flatMap]
  congr 1
  · refine List.flatMap_congr fun a ha => ?_
    obtain ⟨haIp, haLen⟩ := hacc.address a ha
    have hq : quote ∉ (splitAddress a).1.toList := (hip.address a ha).split.1.quote
    have henter : S.enter (familyPlace f) (addressStep (splitAddress a).1) = some
        (instanceStep (ipName "address") (ipName "ip") (splitAddress a).1, addressPlace f) := by
      rw [enter_address hS hacc.module hf hkIp, haccepts hkIp haIp]
      rfl
    rw [SchemaTree.filterMap_below (addressStep_named _) (addressStep_plain hq) henter]
    congr 1
    have hfirst : S.effect (addressPlace f) ("ip:ip", (splitAddress a).1) =
        some ([nodeStep (ipName "ip")], (splitAddress a).1) := by
      have h := effect_addressLeaf hacc.module (n := "ip") (by decide) hkIp (splitAddress a).1
      rw [haccepts hkIp haIp] at h
      exact h
    rw [addressInner, List.filterMap_cons_some hfirst, addressRest]
    congr 1
    by_cases hlen : (splitAddress a).2 = ""
    · simp [hlen]
    · have h := effect_addressLeaf hacc.module (n := "prefix-length") (by decide) hkLen
        (splitAddress a).2
      rw [haccepts hkLen (haLen hlen)] at h
      rw [if_neg hlen, if_neg hlen]
      exact List.filterMap_cons_some h
  · cases hm : ip.mtu with
    | none => rfl
    | some k =>
      have h := effect_mtu hkMtu k.toNat.repr
      rw [haccepts hkMtu (hacc.mtu k hm)] at h
      exact List.filterMap_cons_some h

theorem addressTree_of_attempts {a : String} {bs} {ds : List LydNode}
    (h : Attempts (addressRest a) bs
      (instanceStep (ipName "address") (ipName "ip") (splitAddress a).1).keyLeaves ds) :
    AddressTree a (LydNode.inner (ipName "address") ds) := by
  refine ⟨ds, rfl, (Attempts.optional_leaf (s := nodeStep (ipName "prefix-length")) ?_ h).2⟩
  simp [instanceStep, DataTree.Step.keyLeaves, nodeStep, ipName]

/-- The `ip` leaf of an instance tells it from those of other addresses. -/
theorem AddressTree.ip_eq {a : String} {n c : LydNode} (h : AddressTree a n) (hc : c ∈ n.children)
    (hl : c.label = some (ipName "ip")) : c.value = some (splitAddress a).1 := by
  obtain ⟨ds, rfl, hp⟩ := h
  rcases List.mem_append.mp (hp.subset hc) with hc | hc
  · obtain ⟨v, -, rfl⟩ := List.mem_map.mp hc
    exact absurd (congrArg QName.name (Option.some.inj hl)) (by decide)
  · obtain rfl := List.mem_singleton.mp hc
    rfl

/-- The container of an accepted address family. -/
theorem familyTree_of_attempts (hS : InterfacesSchema S) {f : String} (hf : f ∈ families)
    {ip : IetfIp} (hip : IpEncodable ip) (hacc : IpAccepted S f ip) {bs} {ds : List LydNode}
    (h : Attempts (ipOps S f ip) bs [] ds) : FamilyTree f ip (LydNode.inner (ipName f) ds) := by
  rw [ipOps_of_accepted hS hf hip hacc] at h
  obtain ⟨bs₁, bs₂, cs, -, h₁, h₂⟩ := Attempts.append_inv h
  have hsep : ip.address.Pairwise fun a a' => ∀ bs ds, Attempts (addressRest a) bs
      (instanceStep (ipName "address") (ipName "ip") (splitAddress a).1).keyLeaves ds →
      ¬ (instanceStep (ipName "address") (ipName "ip") (splitAddress a').1).Matches
        (.node (some (ipName "address")) none ds) := by
    have hd := hip.distinct
    rw [List.Nodup, List.pairwise_map] at hd
    refine hd.imp fun {a a'} hne bs ds hds hm => ?_
    obtain ⟨c, hc, hl, hv⟩ := hm.2.2 (some (ipName "ip"), (splitAddress a').1)
      (by simp [instanceStep])
    exact hne (Option.some.inj (((addressTree_of_attempts hds).ip_eq hc hl).symm.trans hv))
  obtain ⟨as, hperm, hall, -⟩ := Attempts.groups
    (s := fun a => instanceStep (ipName "address") (ipName "ip") (splitAddress a).1)
    (f := fun a => ([nodeStep (ipName "ip")], (splitAddress a).1)) (r := addressRest)
    (fun a _ => ⟨rfl, by simp, occurs_instanceStep _ _ _⟩) hsep (by simp) h₁
  have htrees : List.Forall₂ AddressTree ip.address as := by
    refine hall.imp ?_
    rintro a n ⟨bs, ds, hn, hds⟩
    rw [hn]
    exact addressTree_of_attempts hds
  have hmtu : ∀ n ∈ cs, n.label ≠ (nodeStep (ipName "mtu")).label := by
    intro n hn
    have hmem : n ∈ as := by simpa using hperm.subset hn
    obtain ⟨a, -, ds, rfl, -⟩ := Traverse.exists_of_forall₂_right htrees n hmem
    simp [LydNode.inner, nodeStep, ipName]
  have h₂' : Attempts ((ip.mtu.map fun k => k.toNat.repr).toList.map
      fun v => ([nodeStep (ipName "mtu")], v)) bs₂ cs ds := by
    cases hm : ip.mtu <;> simpa [hm] using h₂
  obtain ⟨-, hp⟩ := Attempts.optional_leaf hmtu h₂'
  refine ⟨ds, as, rfl, ?_, htrees⟩
  refine hp.trans ?_
  have hperm' : cs.Perm as := by simpa using hperm
  cases ip.mtu with
  | none => exact hperm'
  | some k => exact hperm'.cons _

/-- The calls for an address family, where its prefix stands for the module. -/
theorem filterMap_family (hS : InterfacesSchema S) {f : String} (hf : f ∈ families)
    {o : Option IetfIp} (hmod : ∀ ip, o = some ip → S.moduleOf "ip" = some "ietf-ip") :
    (o.toList.flatMap fun ip => (ipInner ip).map (below (familyStep f))).filterMap
        (S.effect interfacePlace) =
      o.toList.flatMap fun ip => (ipOps S f ip).map (under (nodeStep (ipName f))) := by
  cases o with
  | none => rfl
  | some ip =>
    have henter := enter_family hS hf
    rw [if_pos (hmod ip rfl)] at henter
    simp only [Option.toList_some, List.flatMap_cons, List.flatMap_nil, List.append_nil]
    rw [SchemaTree.filterMap_below (familyStep_named hf) (familyStep_plain f) henter, ipOps]

/-- The call for the type: it inserts a value that is read back as the type. -/
theorem filterMap_type (hS : InterfacesSchema S) {i : IetfInterface}
    (hacc : InterfaceAccepted S i) (htype : i.type ≠ some .unknown) :
    ∃ typeValue : Option String,
      typeValue.map (fun v => ianaIfTypeFromString (stripNsPrefix v)) = i.type ∧
      (i.type.toList.map fun t => ("type", "ianaift:" ++ ianaIfTypeToString t)).filterMap
          (S.effect interfacePlace) =
        typeValue.toList.map fun v => ([nodeStep (ifName "type")], v) := by
  obtain ⟨typeType, hkType, hid⟩ := hS.type
  cases ht : i.type with
  | none => exact ⟨none, rfl, rfl⟩
  | some t =>
    obtain ⟨type', w, hty, hw⟩ := hacc.type t ht
    obtain rfl : type' = typeType := by
      rw [SchemaTree.typeAt, hkType] at hty
      exact (Option.some.inj hty).symm
    refine ⟨some w, ?_, ?_⟩
    · rw [Option.map_some, stripNsPrefix_of_identityRef hid hw,
        ianaIfTypeFromString_toString fun h => htype (by rw [ht, h])]
    · have h := effect_type hkType ("ianaift:" ++ ianaIfTypeToString t)
      rw [hw] at h
      exact List.filterMap_cons_some h

/-- What the calls for an accepted interface insert, part by part. -/
theorem innerOps_of_accepted (hS : InterfacesSchema S) {i : IetfInterface}
    (hdescription : ∀ d ∈ i.description, YangText d) (hacc : InterfaceAccepted S i)
    (htype : i.type ≠ some .unknown) :
    ∃ typeValue : Option String,
      typeValue.map (fun v => ianaIfTypeFromString (stripNsPrefix v)) = i.type ∧
      innerOps S i =
        (i.description.toList.map fun v => ([nodeStep (ifName "description")], v)) ++
        ((if i.enabled then none else some "false").toList.map
          fun v => ([nodeStep (ifName "enabled")], v)) ++
        (typeValue.toList.map fun v => ([nodeStep (ifName "type")], v)) ++
        (i.ipv4.toList.flatMap fun ip =>
          (ipOps S "ipv4" ip).map (under (nodeStep (ipName "ipv4")))) ++
        (i.ipv6.toList.flatMap fun ip =>
          (ipOps S "ipv6" ip).map (under (nodeStep (ipName "ipv6")))) := by
  have hdesc : (i.description.toList.map fun d => ("description", d)).filterMap
      (S.effect interfacePlace) =
        i.description.toList.map fun v => ([nodeStep (ifName "description")], v) := by
    cases hd : i.description with
    | none => rfl
    | some d =>
      refine List.filterMap_cons_some ?_
      rw [effect_description hS, (hdescription d hd).yangString_eq]
      rfl
  have hen : (if i.enabled then [] else [("enabled", "false")]).filterMap
      (S.effect interfacePlace) =
        (if i.enabled then none else some "false").toList.map
          fun v => ([nodeStep (ifName "enabled")], v) := by
    cases i.enabled with
    | true => rfl
    | false => exact List.filterMap_cons_some (effect_enabled hS)
  obtain ⟨typeValue, hval, htypeOps⟩ := filterMap_type hS hacc htype
  refine ⟨typeValue, hval, ?_⟩
  rw [innerOps, interfaceInner, List.filterMap_append, List.filterMap_append,
    List.filterMap_append, List.filterMap_append, hdesc, hen, htypeOps,
    filterMap_family hS (by decide) fun ip h => (hacc.ipv4 ip h).module,
    filterMap_family hS (by decide) fun ip h => (hacc.ipv6 ip h).module]

/-- What the calls for an address family insert: its container. -/
theorem family_attempts (hS : InterfacesSchema S) {f : String} (hf : f ∈ families)
    {o : Option IetfIp} (henc : ∀ ip, o = some ip → IpEncodable ip)
    (hacc : ∀ ip, o = some ip → IpAccepted S f ip) {bs} {cs cs' : List LydNode}
    {qs : List QName} (hcs : LabelsIn cs qs) (hqs : ipName f ∉ qs)
    (h : Attempts (o.toList.flatMap fun ip => (ipOps S f ip).map (under (nodeStep (ipName f))))
      bs cs cs') :
    ∃ c : Option LydNode, cs'.Perm (c.toList ++ cs) ∧ Option.Rel (FamilyTree f) o c ∧
      LabelsIn cs' (ipName f :: qs) := by
  cases o with
  | none => cases h; exact ⟨none, .refl _, .none, hcs.cons [] (.refl _) (by simp)⟩
  | some ip =>
    simp only [Option.toList_some, List.flatMap_cons, List.flatMap_nil, List.append_nil] at h
    have hops := ipOps_of_accepted hS hf (henc ip rfl) (hacc ip rfl)
    have hpaths : ∀ op ∈ ipOps S f ip, op.1 ≠ [] := by
      rw [hops]
      simp only [List.mem_append, List.mem_flatMap, List.mem_map]
      rintro op (⟨a, -, op', -, rfl⟩ | ⟨k, -, rfl⟩) <;> simp [under]
    obtain ⟨ds, hds, hp, hl⟩ := hcs.attempts_container hqs hpaths h
    have hne : ds ≠ [] := by
      obtain ⟨a, as, ha⟩ := List.exists_cons_of_ne_nil (henc ip rfl).nonempty
      rw [hops, ha] at hds
      exact hds.ne_nil (by simp [under])
    rw [LydNode.container_of_ne_nil hne] at hp
    exact ⟨some (LydNode.inner (ipName f) ds), hp,
      .some (familyTree_of_attempts hS hf (henc ip rfl) (hacc ip rfl) hds), hl⟩

/-- The children of the instance of an accepted interface. -/
theorem InterfaceTree.children_perm (hS : InterfacesSchema S) {i : IetfInterface} {n : LydNode}
    (hdescription : ∀ d ∈ i.description, YangText d) (hacc : InterfaceAccepted S i)
    (htype : i.type ≠ some .unknown)
    (henc4 : ∀ ip, i.ipv4 = some ip → IpEncodable ip)
    (henc6 : ∀ ip, i.ipv6 = some ip → IpEncodable ip) (h : InterfaceTree S i n) :
    ∃ (typeValue : Option String) (c4 c6 : Option LydNode),
      typeValue.map (fun v => ianaIfTypeFromString (stripNsPrefix v)) = i.type ∧
      Option.Rel (FamilyTree "ipv4") i.ipv4 c4 ∧ Option.Rel (FamilyTree "ipv6") i.ipv6 c6 ∧
      n.children.Perm (c6.toList ++ (c4.toList ++
        (typeValue.toList.map (LydNode.leaf (ifName "type")) ++
        ((if i.enabled then none else some "false").toList.map (LydNode.leaf (ifName "enabled")) ++
        (i.description.toList.map (LydNode.leaf (ifName "description")) ++
          [LydNode.leaf (ifName "name") i.name]))))) := by
  obtain ⟨typeValue, hval, hops⟩ := innerOps_of_accepted hS hdescription hacc htype
  obtain ⟨bs, ds, rfl, ha⟩ := h
  rw [hops] at ha
  obtain ⟨_, _, ds₄, -, ha, h₅⟩ := Attempts.append_inv ha
  obtain ⟨_, _, ds₃, -, ha, h₄⟩ := Attempts.append_inv ha
  obtain ⟨_, _, ds₂, -, ha, h₃⟩ := Attempts.append_inv ha
  obtain ⟨_, _, ds₁, -, h₁, h₂⟩ := Attempts.append_inv ha
  -- each part finds no node of its name among those that are there
  have hl₀ := LabelsIn.leaf (ifName "name") i.name
  obtain ⟨-, hp₁, hl₁⟩ := hl₀.attempts_leaf (q := ifName "description") (by decide) h₁
  obtain ⟨-, hp₂, hl₂⟩ := hl₁.attempts_leaf (q := ifName "enabled") (by decide) h₂
  obtain ⟨-, hp₃, hl₃⟩ := hl₂.attempts_leaf (q := ifName "type") (by decide) h₃
  obtain ⟨c4, hp₄, hrel4, hl₄⟩ :=
    family_attempts hS (f := "ipv4") (by decide) henc4 hacc.ipv4 hl₃ (by decide) h₄
  obtain ⟨c6, hp₅, hrel6, -⟩ :=
    family_attempts hS (f := "ipv6") (by decide) henc6 hacc.ipv6 hl₄ (by decide) h₅
  refine ⟨typeValue, c4, c6, hval, hrel4, hrel6, ?_⟩
  exact hp₅.trans ((hp₄.trans ((hp₃.trans ((hp₂.trans
    (hp₁.append_left _)).append_left _)).append_left _)).append_left _)

/-! ### Reading it -/

theorem readAddress_addressTree {a : String} {n : LydNode} (ha : AddressText a)
    (h : AddressTree a n) : readAddress n = some a := by
  obtain ⟨hip, hlen⟩ := ha.split
  obtain ⟨ds, rfl, hp⟩ := h
  have h₁ : childValue (LydNode.inner (ipName "address") ds) "ip" =
      some (splitAddress a).1 :=
    LydNode.childValue_of_perm (q := ipName "ip") hp <| by
      simp [LydNode.filter_leaves, LydNode.filter_leaf, ipName]
  have h₂ : childValue (LydNode.inner (ipName "address") ds) "prefix-length" =
      if (splitAddress a).2 = "" then none else some (splitAddress a).2 :=
    LydNode.childValue_of_perm (q := ipName "prefix-length") hp <| by
      simp [LydNode.filter_leaves, LydNode.filter_leaf, ipName]
  rw [readAddress, h₁, h₂, Option.map_some]
  rcases hlen with ⟨hnil, heq⟩ | ⟨hlen, heq⟩
  · rw [if_pos hnil]
    exact congrArg some heq.symm
  · rw [if_neg hlen.nonempty]
    exact congrArg some heq.symm

theorem readIp_familyTree {f : String} {ip : IetfIp} {c : LydNode} (hip : IpEncodable ip)
    (h : FamilyTree f ip c) : ∃ ip', readIp (some c) = .ok (some ip') ∧ IpAgrees ip ip' := by
  obtain ⟨ds, as, rfl, hp, hall⟩ := h
  have hlabel : ∀ n ∈ as, n.label = some (ipName "address") := by
    intro n hn
    obtain ⟨a, -, ds, rfl, -⟩ := Traverse.exists_of_forall₂_right hall n hn
    rfl
  have hmtu : ip.mtu.toList.map (fun k => LydNode.leaf (ipName "mtu") k.toNat.repr) =
      (ip.mtu.map fun k => k.toNat.repr).toList.map (LydNode.leaf (ipName "mtu")) := by
    cases ip.mtu <;> rfl
  rw [hmtu] at hp
  have h₁ : childValue (LydNode.inner (ipName f) ds) "mtu" =
      ip.mtu.map fun k => k.toNat.repr :=
    LydNode.childValue_of_perm (q := ipName "mtu") hp <| by
      simp [LydNode.filter_leaves, LydNode.filter_of_label hlabel, ipName]
  have h₂ : (childrenNamed (LydNode.inner (ipName f) ds) "address").Perm as := by
    have hf := hp.filter (named "address")
    rwa [List.filter_append, LydNode.filter_leaves, LydNode.filter_of_label hlabel,
      if_neg (by decide), if_pos (by decide)] at hf
  have h₃ : as.filterMap readAddress = ip.address := by
    have : ∀ {xs : List String} {ns : List LydNode}, List.Forall₂ AddressTree xs ns →
        (∀ a ∈ xs, AddressText a) → ns.filterMap readAddress = xs := by
      intro xs ns hxs
      induction hxs with
      | nil => intro _; rfl
      | @cons a n xs ns hn _ ih =>
        intro hall
        rw [List.filterMap_cons_some (readAddress_addressTree (hall a (by simp)) hn),
          ih fun b hb => hall b (by simp [hb])]
    exact this hall hip.address
  have h₄ : ((childrenNamed (LydNode.inner (ipName f) ds) "address").filterMap readAddress).Perm
      ip.address := h₃ ▸ h₂.filterMap readAddress
  have h₅ : readUInt32 (ip.mtu.map fun k => k.toNat.repr) = .ok ip.mtu := by
    cases ip.mtu with
    | none => rfl
    | some k => exact readUInt32_repr k
  refine ⟨⟨(childrenNamed (LydNode.inner (ipName f) ds) "address").filterMap readAddress, ip.mtu⟩,
    ?_, fun a => h₄.mem_iff, rfl⟩
  rw [readIp, h₁, h₅]
  have hne : (childrenNamed (LydNode.inner (ipName f) ds) "address").filterMap readAddress ≠ [] :=
    fun h => hip.nonempty (List.perm_nil.mp (h ▸ h₄.symm))
  simp [bind, Except.bind, hne]

theorem label_of_familyTree {f : String} {o : Option IetfIp} {c : Option LydNode}
    (h : Option.Rel (FamilyTree f) o c) : ∀ n ∈ c.toList, n.label = some (ipName f) := by
  cases h with
  | none => simp
  | some h =>
    obtain ⟨ds, as, rfl, -⟩ := h
    simp [LydNode.inner]

theorem readIp_of_rel {f : String} {o : Option IetfIp} {c : Option LydNode}
    (henc : ∀ ip, o = some ip → IpEncodable ip) (h : Option.Rel (FamilyTree f) o c) :
    ∃ o', readIp c = .ok o' ∧ Option.Rel IpAgrees o o' := by
  cases h with
  | none => exact ⟨none, rfl, .none⟩
  | some h =>
    obtain ⟨ip', hread, hagrees⟩ := readIp_familyTree (henc _ rfl) h
    exact ⟨some ip', hread, .some hagrees⟩

/-- **An accepted interface is read back.** -/
theorem InterfaceTree.readInterface_agrees (hS : InterfacesSchema S) {i : IetfInterface}
    {n : LydNode} (hname : i.name ≠ "") (hdescription : ∀ d ∈ i.description, YangText d)
    (hacc : InterfaceAccepted S i) (htype : i.type ≠ some .unknown)
    (henc4 : ∀ ip, i.ipv4 = some ip → IpEncodable ip)
    (henc6 : ∀ ip, i.ipv6 = some ip → IpEncodable ip) (h : InterfaceTree S i n) :
    ∃ j, readInterface n = .ok j ∧ Agrees i j := by
  obtain ⟨j, hj, hjname, -, hdesc, hjtype, hen, hfam⟩ := h.readInterface_ok hS hname
  obtain ⟨typeValue, c4, c6, hval, hrel4, hrel6, hp⟩ :=
    h.children_perm hS hdescription hacc htype henc4 henc6
  have hl4 := label_of_familyTree hrel4
  have hl6 := label_of_familyTree hrel6
  have hdesc' : childValue n "description" = i.description :=
    LydNode.childValue_of_perm (q := ifName "description") hp <| by
      simp [LydNode.filter_leaves, LydNode.filter_leaf, LydNode.filter_of_label hl4,
        LydNode.filter_of_label hl6, ifName, ipName]
  have htype' : childValue n "type" = typeValue :=
    LydNode.childValue_of_perm (q := ifName "type") hp <| by
      simp [LydNode.filter_leaves, LydNode.filter_leaf, LydNode.filter_of_label hl4,
        LydNode.filter_of_label hl6, ifName, ipName]
  have hen' : childValue n "enabled" = if i.enabled then none else some "false" :=
    LydNode.childValue_of_perm (q := ifName "enabled") hp <| by
      simp [LydNode.filter_leaves, LydNode.filter_leaf, LydNode.filter_of_label hl4,
        LydNode.filter_of_label hl6, ifName, ipName]
  have hfind4 : findChild n "ipv4" = c4 := findChild_of_perm hp <| by
    simp [LydNode.filter_leaves, LydNode.filter_leaf, LydNode.filter_of_label hl4,
      LydNode.filter_of_label hl6, ifName, ipName]
  have hfind6 : findChild n "ipv6" = c6 := findChild_of_perm hp <| by
    simp [LydNode.filter_leaves, LydNode.filter_leaf, LydNode.filter_of_label hl4,
      LydNode.filter_of_label hl6, ifName, ipName]
  obtain ⟨o4, hread4, hagrees4⟩ := readIp_of_rel henc4 hrel4
  obtain ⟨o6, hread6, hagrees6⟩ := readIp_of_rel henc6 hrel6
  rw [forall_families, hfind4, hfind6, hread4, hread6] at hfam
  refine ⟨j, hj, hjname, by rw [hdesc, hdesc'], ?_, by rw [hjtype, htype', hval], ?_, ?_⟩
  · rw [hen, hen']
    cases i.enabled <;> rfl
  · rwa [Except.ok.inj hfam.1] at hagrees4
  · rwa [Except.ok.inj hfam.2] at hagrees6

end Accepted

/-! ### When something is not accepted -/

section Refused

variable {S : SchemaTree} {i : IetfInterface} {n : LydNode}

/-- A type that is read was accepted. -/
theorem InterfaceTree.type_accepted (hS : InterfacesSchema S) (htype : i.type ≠ some .unknown)
    (h : InterfaceTree S i n) {t : IanaIfType}
    (ht : (childValue n "type").map (fun v => ianaIfTypeFromString (stripNsPrefix v)) = some t) :
    ∃ typeType w, S.typeAt (interfacePlace.child (ifName "type")) = some typeType ∧
      typeType ("ianaift:" ++ ianaIfTypeToString t) = some w := by
  obtain ⟨typeType, hk, hid⟩ := hS.type
  obtain ⟨v, hv, heq⟩ := Option.map_eq_some_iff.mp ht
  obtain ⟨c, hc, hnamed, hval⟩ := exists_of_childValue hv
  obtain ⟨m, hm⟩ := named_iff.mp hnamed
  have hty : S.typeAt (interfacePlace.child (ifName "type")) = some typeType := by
    rw [SchemaTree.typeAt, hk]
    rfl
  rcases h.reaches (.here hc) with ⟨hl, -⟩ | ⟨op, hop, ha⟩
  · rw [hm] at hl
    exact absurd (congrArg QName.name (Option.some.inj (List.cons.inj hl).1))
      (show "type" ≠ "name" by decide)
  · rw [hm, hval] at ha
    rcases cases_innerOps hS hk hop with ⟨d, -, rfl⟩ | ⟨-, rfl⟩ | ⟨t', w, ht', hw, rfl⟩ |
      ⟨f, hf, ip, -, -, op', -, rfl⟩
    · exact absurd (congrArg QName.name (Option.some.inj ha.head))
        (show "type" ≠ "description" by decide)
    · exact absurd (congrArg QName.name (Option.some.inj ha.head))
        (show "type" ≠ "enabled" by decide)
    · obtain rfl : v = w := Option.some.inj (ha.of_singleton rfl).2
      rw [stripNsPrefix_of_identityRef hid hw,
        ianaIfTypeFromString_toString fun h => htype (by rw [ht', h])] at heq
      exact ⟨typeType, v, hty, heq ▸ hw⟩
    · have hname := congrArg QName.name (Option.some.inj ha.head)
      rcases List.mem_cons.mp hf with rfl | hf
      · exact absurd hname (show "type" ≠ "ipv4" by decide)
      · obtain rfl := List.mem_singleton.mp hf
        exact absurd hname (show "type" ≠ "ipv6" by decide)

/-- The leaves that are inserted into the instances of addresses. -/
theorem adds_addressLeaf (hS : InterfacesSchema S) (hip : S.moduleOf "ip" = some "ietf-ip")
    {f : String} (hf : f ∈ families) {typeIp typeLen : String → Option String}
    (hkIp : S.kindAt ((addressPlace f).child (ipName "ip")) = some (.leaf typeIp))
    (hkLen : S.kindAt ((addressPlace f).child (ipName "prefix-length")) = some (.leaf typeLen))
    {ip : IetfIp} {op} (hop : op ∈ ipOps S f ip) {l l' : Option QName} {x : Option String}
    (h : Adds op.2 op.1 [l, l'] x) :
    (l' = some (ipName "ip") ∧ ∃ v w, typeIp v = some w ∧ x = some w) ∨
      (l' = some (ipName "prefix-length") ∧ ∃ v w, typeLen v = some w ∧ x = some w) := by
  obtain ⟨typeMtu, hkMtu, -⟩ := hS.mtu f hf
  rcases cases_ipOps hS hip hf hkIp hkLen hkMtu hop with
    ⟨a, -, w, hw, rfl | ⟨v, hv, rfl⟩⟩ | ⟨k, -, w, -, rfl⟩
  · left
    cases h with
    | key hk =>
      obtain rfl := List.mem_singleton.mp hk
      exact ⟨rfl, _, w, hw, rfl⟩
    | inside h =>
      obtain ⟨hl, rfl⟩ := h.of_singleton rfl
      exact ⟨(List.cons.inj hl).1, _, w, hw, rfl⟩
  · cases h with
    | key hk =>
      obtain rfl := List.mem_singleton.mp hk
      exact Or.inl ⟨rfl, _, w, hw, rfl⟩
    | inside h =>
      obtain ⟨hl, rfl⟩ := h.of_singleton rfl
      exact Or.inr ⟨(List.cons.inj hl).1, _, v, hv, rfl⟩
  · exact absurd (h.of_singleton rfl).1 (by simp)

/-- An address that is read has accepted parts. -/
theorem InterfaceTree.address_accepted (hS : InterfacesSchema S) (h : InterfaceTree S i n)
    {f : String} (hf : f ∈ families) {c : LydNode} (hc : findChild n f = some c) {a : String}
    (ha : a ∈ (childrenNamed c "address").filterMap readAddress) :
    S.Accepts ((addressPlace f).child (ipName "ip")) (splitAddress a).1 ∧
      ((splitAddress a).2 ≠ "" →
        S.Accepts ((addressPlace f).child (ipName "prefix-length")) (splitAddress a).2) := by
  obtain ⟨typeIp, hkIp, hcanonIp, hslash⟩ := hS.ip f hf
  obtain ⟨typeLen, hkLen, hcanonLen⟩ := hS.prefixLength f hf
  obtain ⟨hmod, hreaches⟩ := h.reaches_family hS hf hc
  obtain ⟨d, hd, hread⟩ := List.mem_filterMap.mp ha
  have hdc : d ∈ c.children := (List.mem_filter.mp hd).1
  -- a leaf that is read was inserted with an accepted value, and is in canonical form
  have hleaf : ∀ {name v}, childValue d name = some v →
      (name = "ip" ∧ typeIp v = some v ∧ '/' ∉ v.toList) ∨
        (name = "prefix-length" ∧ typeLen v = some v) := by
    intro name v hv
    obtain ⟨e, he, hnamed, hval⟩ := exists_of_childValue hv
    obtain ⟨m, hm⟩ := named_iff.mp hnamed
    obtain ⟨ip, -, op, hop, hadds⟩ := hreaches _ _ (.inside hdc (.here he))
    rw [hm, hval] at hadds
    rcases adds_addressLeaf hS hmod hf hkIp hkLen hop hadds with ⟨hl, y, w, hw, hx⟩ |
      ⟨hl, y, w, hw, hx⟩
    · obtain rfl := Option.some.inj hx
      exact Or.inl ⟨congrArg QName.name (Option.some.inj hl), hcanonIp _ _ hw, hslash _ _ hw⟩
    · obtain rfl := Option.some.inj hx
      exact Or.inr ⟨congrArg QName.name (Option.some.inj hl), hcanonLen _ _ hw⟩
  have htypeIp : S.typeAt ((addressPlace f).child (ipName "ip")) = some typeIp := by
    rw [SchemaTree.typeAt, hkIp]
    rfl
  have htypeLen : S.typeAt ((addressPlace f).child (ipName "prefix-length")) = some typeLen := by
    rw [SchemaTree.typeAt, hkLen]
    rfl
  rw [readAddress] at hread
  obtain ⟨ip, hip, heq⟩ := Option.map_eq_some_iff.mp hread
  obtain ⟨hv, hs⟩ : typeIp ip = some ip ∧ '/' ∉ ip.toList := by
    rcases hleaf hip with ⟨-, hv, hs⟩ | ⟨hname, -⟩
    · exact ⟨hv, hs⟩
    · exact absurd hname (by decide)
  cases hlen : childValue d "prefix-length" with
  | none =>
    rw [hlen] at heq
    obtain rfl : ip = a := heq
    rw [splitAddress_of_not_mem hs]
    exact ⟨⟨typeIp, htypeIp, hv⟩, fun h => absurd rfl h⟩
  | some len =>
    rw [hlen] at heq
    obtain rfl : ip ++ "/" ++ len = a := heq
    rw [splitAddress_join hs]
    refine ⟨⟨typeIp, htypeIp, hv⟩, fun _ => ⟨typeLen, htypeLen, ?_⟩⟩
    rcases hleaf hlen with ⟨hname, -⟩ | ⟨-, hv⟩
    · exact absurd hname (by decide)
    · exact hv

/-- An address family that is read was accepted. -/
theorem InterfaceTree.family_accepted (hS : InterfacesSchema S) (h : InterfaceTree S i n)
    {f : String} (hf : f ∈ families) {ip ip' : IetfIp}
    (hread : readIp (findChild n f) = .ok (some ip')) (hagrees : IpAgrees ip ip') :
    IpAccepted S f ip := by
  cases hc : findChild n f with
  | none => rw [hc] at hread; cases hread
  | some c =>
    rw [hc, readIp] at hread
    obtain ⟨mtu, hmtu, hread⟩ := Traverse.bind_eq_ok_iff.mp hread
    obtain ⟨haddr, hm⟩ : ip'.address = (childrenNamed c "address").filterMap readAddress ∧
        ip'.mtu = mtu := by
      simp only [Except.ok.injEq] at hread
      split at hread
      · cases hread
      · cases hread
        exact ⟨rfl, rfl⟩
    refine ⟨(h.reaches_family hS hf hc).1, fun a ha => ?_, fun k hk => ?_⟩
    · exact h.address_accepted hS hf hc (haddr ▸ (hagrees.address a).mpr ha)
    · have hsome : mtu = some k := by rw [← hm, hagrees.mtu, hk]
      cases hv : childValue c "mtu" with
      | none =>
        rw [hv, hsome] at hmtu
        cases hmtu
      | some v =>
        obtain ⟨k', rfl, hacc⟩ := h.mtu hS hf hc hv
        rw [hv, readUInt32_repr, hsome] at hmtu
        cases hmtu
        exact hacc

end Refused

/-! ### The round trip -/

/-- **Decoding undoes encoding exactly when the context accepts the prefixes and the values.** -/
theorem roundTrips_iff_accepted {S : SchemaTree} {lyd_new_path : NewPath LydNode}
    (hS : InterfacesSchema S) (h : NewPath.Lawful S lyd_new_path) (lyd_find_path : FindPath)
    {m : IetfInterfaces} (hm : Encodable m) :
    RoundTrips lyd_new_path lyd_find_path m ↔ ∀ i ∈ m.ifs_, InterfaceAccepted S i := by
  obtain ⟨t, hrun, ht, ns, hperm, hall⟩ :=
    serialize_tree hS h hm.nulFree hm.names.spellable hm.names.distinct
  constructor
  · rintro ⟨t', m', hrun', hdec', js', hjs', hagrees⟩ i hi
    rw [hrun] at hrun'
    cases hrun'
    -- every interface that is read stands for one that was encoded
    obtain ⟨m'', hdec, js, hjs, -, hsource⟩ := deserialize_of_forall₂ lyd_find_path ht hperm hall
      (P := fun _ _ => True) fun i hi n hn => by
        obtain ⟨j, hj, -⟩ := hn.readInterface_ok hS (hm.names.nonempty i hi)
        obtain ⟨bs, ds, rfl, -⟩ := hn
        exact ⟨rfl, j, hj, trivial⟩
    rw [hdec] at hdec'
    cases hdec'
    obtain ⟨j, hj, hij⟩ := Traverse.exists_of_forall₂_left hagrees i hi
    obtain ⟨i', hi', n, hn, hread⟩ := hsource j (hjs.subset (hjs'.symm.subset hj))
    obtain ⟨j', hread', -, -, -, htype, -, hfam⟩ :=
      hn.readInterface_ok hS (hm.names.nonempty i' hi')
    rw [hread] at hread'
    cases hread'
    have hfamily : ∀ f ∈ families, Option.Rel IpAgrees (i.family f) (j.family f) →
        ∀ ip, i.family f = some ip → IpAccepted S f ip := by
      intro f hf hrel ip hip
      have hr := hfam f hf
      generalize j.family f = o at hr hrel
      rw [hip] at hrel
      cases hrel with
      | some hag => exact hn.family_accepted hS hf hr hag
    refine ⟨fun t ht' => ?_, hfamily "ipv4" (by decide) hij.ipv4,
      hfamily "ipv6" (by decide) hij.ipv6⟩
    exact hn.type_accepted hS (hm.type i' hi') (by rw [← htype, hij.type, ht'])
  · intro hacc
    obtain ⟨m', hdec, js, hjs, hP, -⟩ := deserialize_of_forall₂ lyd_find_path ht hperm hall
      (P := Agrees) fun i hi n hn => by
        obtain ⟨j, hj, hag⟩ := hn.readInterface_agrees hS (hm.names.nonempty i hi)
          (hm.description i hi) (hacc i hi) (hm.type i hi) (hm.ipv4 i hi) (hm.ipv6 i hi)
        obtain ⟨bs, ds, rfl, -⟩ := hn
        exact ⟨rfl, j, hj, hag⟩
    exact ⟨t, m', hrun, hdec, js, hjs, hP⟩

/-- **Decoding undoes encoding exactly when there is neither a type nor an address.**

The model is one that the decoder makes of a validated document (`Encodable`), the schema any with
the nodes the encoder writes to, and libyang does what it documents. A qualifier in a path is the
name of a module, not a prefix, and no module is called `ianaift`, nor `ip`, which is why a type or
an address is not written. -/
theorem roundTrips_iff {S : SchemaTree} {lyd_new_path : NewPath LydNode}
    (hS : InterfacesSchema S) (h : NewPath.Lawful S lyd_new_path)
    (hmodules : ∀ p m, S.moduleOf p = some m → m = p) (hianaift : S.moduleOf "ianaift" = none)
    (lyd_find_path : FindPath) {m : IetfInterfaces} (hm : Encodable m) :
    RoundTrips lyd_new_path lyd_find_path m ↔
      ∀ i ∈ m.ifs_, i.type = none ∧ i.ipv4 = none ∧ i.ipv6 = none := by
  rw [roundTrips_iff_accepted hS h lyd_find_path hm]
  have hip : S.moduleOf "ip" ≠ some "ietf-ip" := fun heq => absurd (hmodules _ _ heq) (by decide)
  refine forall₂_congr fun i _ => ⟨fun hacc => ⟨?_, ?_, ?_⟩, fun ⟨ht, h4, h6⟩ => ?_⟩
  · refine Option.eq_none_iff_forall_ne_some.mpr fun t ht => ?_
    obtain ⟨type, w, hty, hw⟩ := hacc.type t ht
    obtain ⟨type', hk, hid⟩ := hS.type
    rw [SchemaTree.typeAt, hk] at hty
    cases hty
    rw [show "ianaift:" = "ianaift" ++ ":" by decide] at hw
    obtain ⟨mod, hmod, -⟩ := hid.prefixed "ianaift" _ w (by decide) hw
    rw [hianaift] at hmod
    cases hmod
  · exact Option.eq_none_iff_forall_ne_some.mpr fun ip h4 => hip (hacc.ipv4 ip h4).module
  · exact Option.eq_none_iff_forall_ne_some.mpr fun ip h6 => hip (hacc.ipv6 ip h6).module
  · exact ⟨by simp [ht], by simp [h4], by simp [h6]⟩

/-- An Ethernet interface with an address. -/
def ethernetInterface : IetfInterfaces :=
  ⟨[{ name := "eth0", type := some .ethernetCsmacd,
      ipv4 := some { address := ["192.0.2.1/24"], mtu := some 1500 } }]⟩

theorem ethernetInterface_encodable : Encodable ethernetInterface where
  names := ⟨by decide, by decide, by decide⟩
  description := by decide
  type := by decide
  ipv4 i hi ip hip := by
    obtain rfl := List.mem_singleton.mp hi
    cases hip
    refine ⟨by decide, fun a ha => ?_, by decide⟩
    obtain rfl := List.mem_singleton.mp ha
    exact Or.inr ⟨"192.0.2.1", "24", ⟨by decide, by decide, by decide⟩,
      ⟨by decide, by decide, by decide⟩, by decide⟩
  ipv6 i hi ip hip := by
    obtain rfl := List.mem_singleton.mp hi
    cases hip
  nulFree := by decide

theorem roundTrips_iff_ethernetInterface :
    RoundTrips (Reference.newPath Reference.schema) Reference.findPath ethernetInterface ↔
      ∀ i ∈ ethernetInterface.ifs_, i.type = none ∧ i.ipv4 = none ∧ i.ipv6 = none :=
  roundTrips_iff Reference.interfacesSchema (Reference.newPath_lawful _)
    (fun _ _ => Reference.moduleOf_eq) (by decide) _ ethernetInterface_encodable

theorem not_roundTrips_ethernetInterface :
    ¬ RoundTrips (Reference.newPath Reference.schema) Reference.findPath ethernetInterface := by
  rw [roundTrips_iff_accepted Reference.interfacesSchema (Reference.newPath_lawful _) _
    ethernetInterface_encodable]
  intro hacc
  have hmod : Reference.moduleOf "ip" = some "ietf-ip" :=
    ((hacc _ List.mem_cons_self).ipv4 _ rfl).module
  exact absurd (Reference.moduleOf_eq hmod) (show "ietf-ip" ≠ "ip" by decide)

end StelleriYang

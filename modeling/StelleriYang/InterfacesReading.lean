import StelleriYang.Reference

/-!
# Reading back an interface that was encoded

What `IetfInterfaces::deserialize` makes of the instance of an interface, whichever of the calls
for it failed: the name is that of the interface, what else is read comes from a call that
succeeded, and none of the operational fields is read, because no call writes one.

## Main definitions

* `OperationalKept` — decoding after encoding gives back the operational fields

## Main results

* `deserialize_of_forall₂` — decoding an encoded model, instance by instance
* `InterfaceTree.readInterface_ok` — decoding one instance
* `operationalKept_iff` — the operational fields survive exactly when there are none
-/

namespace StelleriYang

open Interfaces
open DataTree (Reaches Adds under)
open LydNode (named findChild childrenNamed childValue named_iff mem_of_findChild
  exists_of_childValue)

section Instance

variable {S : SchemaTree} {it : IetfInterface} {n : LydNode}

/-- Nothing else than the key and what was inserted is in an instance. -/
theorem InterfaceTree.reaches (h : InterfaceTree S it n) {ls : List (Option QName)}
    {x : Option String} (hr : Reaches n.children ls x) :
    (ls = [some (ifName "name")] ∧ x = some it.name) ∨
      ∃ op ∈ innerOps S it, Adds op.2 op.1 ls x := by
  obtain ⟨bs, ds, rfl, ha⟩ := h
  rcases ha.reaches hr with hr | ha
  · rw [DataTree.reaches_cons] at hr
    rcases hr with hr | ⟨ls', -, hr⟩ | hr
    · exact Or.inl hr
    · exact absurd hr DataTree.not_reaches_nil
    · exact absurd hr DataTree.not_reaches_nil
  · exact Or.inr ha

theorem InterfaceTree.childValue_name (hS : InterfacesSchema S) (h : InterfaceTree S it n) :
    childValue n "name" = some it.name := by
  obtain ⟨bs, ds, rfl, ha⟩ := h
  obtain ⟨c, hc, hl, -⟩ := ha.preserved (c := LydNode.leaf (ifName "name") it.name) (by simp)
  have hsome : (ds.find? (named "name")).isSome :=
    List.find?_isSome.mpr ⟨c, hc, named_iff.mpr ⟨_, hl⟩⟩
  obtain ⟨d, hd⟩ := Option.isSome_iff_exists.mp hsome
  have hmem := List.mem_of_find?_eq_some hd
  have hname : named "name" d = true := by simpa using List.find?_some hd
  rw [childValue, findChild, DataTree.Tree.children_node, hd, Option.bind_some,
    InterfaceTree.name_eq hS ha hmem hname]

/-- A name that is not inserted is not found. -/
theorem InterfaceTree.childrenNamed_eq_nil (hS : InterfacesSchema S) (h : InterfaceTree S it n)
    {name : String} (hname : name ∉ "name" :: innerNames) : childrenNamed n name = [] := by
  rw [childrenNamed, List.filter_eq_nil_iff]
  intro c hc hn
  obtain ⟨m, hm⟩ := named_iff.mp hn
  rcases h.reaches (.here hc) with ⟨hl, -⟩ | ⟨op, hop, ha⟩
  · rw [hm] at hl
    cases hl
    exact hname (by simp)
  · obtain ⟨q, hq, hmem⟩ := innerOps_adds hS hop ha
    rw [hm] at hq
    cases hq
    exact hname (List.mem_cons_of_mem _ hmem)

theorem InterfaceTree.findChild_eq_none (hS : InterfacesSchema S) (h : InterfaceTree S it n)
    {name : String} (hname : name ∉ "name" :: innerNames) : findChild n name = none := by
  rw [LydNode.findChild_eq_head?, h.childrenNamed_eq_nil hS hname]
  rfl

theorem InterfaceTree.childValue_eq_none (hS : InterfacesSchema S) (h : InterfaceTree S it n)
    {name : String} (hname : name ∉ "name" :: innerNames) : childValue n name = none := by
  rw [childValue, h.findChild_eq_none hS hname]
  rfl

/-- What is in the container of an address family was inserted by a call for that family. -/
theorem InterfaceTree.reaches_family (hS : InterfacesSchema S) (h : InterfaceTree S it n)
    {f : String} (hf : f ∈ families) {c : LydNode} (hc : findChild n f = some c) :
    S.moduleOf "ip" = some "ietf-ip" ∧ ∀ ls x, Reaches c.children ls x →
      ∃ ip, it.family f = some ip ∧ ∃ op ∈ ipOps S f ip, Adds op.2 op.1 ls x := by
  obtain ⟨type, hk, -⟩ := hS.type
  obtain ⟨hmem, hnamed⟩ := mem_of_findChild hc
  obtain ⟨m, hm⟩ := named_iff.mp hnamed
  have hname : f ≠ "name" ∧ f ≠ "description" ∧ f ≠ "enabled" ∧ f ≠ "type" := by
    rcases List.mem_cons.mp hf with rfl | hf
    · decide
    · obtain rfl := List.mem_singleton.mp hf
      decide
  -- a node of that name is inserted by the calls for the family, and by no others
  have hops : ∀ ls x, (∃ op ∈ innerOps S it, Adds op.2 op.1 (c.label :: ls) x) →
      ∃ ip, it.family f = some ip ∧ S.moduleOf "ip" = some "ietf-ip" ∧ ∃ op' ∈ ipOps S f ip,
        Adds op'.2 (nodeStep (ipName f) :: op'.1) (c.label :: ls) x := by
    rintro ls x ⟨op, hop, ha⟩
    rw [hm] at ha ⊢
    rcases cases_innerOps hS hk hop with ⟨d, -, rfl⟩ | ⟨-, rfl⟩ | ⟨t, w, -, -, rfl⟩ |
      ⟨f', hf', ip, hfam, hmod, op', hop', rfl⟩
    · exact absurd (congrArg QName.name (Option.some.inj ha.head)) hname.2.1
    · exact absurd (congrArg QName.name (Option.some.inj ha.head)) hname.2.2.1
    · exact absurd (congrArg QName.name (Option.some.inj ha.head)) hname.2.2.2
    · obtain rfl : f = f' := congrArg QName.name (Option.some.inj ha.head)
      exact ⟨ip, hfam, hmod, op', hop', ha⟩
  have hhere := hops [] c.value <| by
    rcases h.reaches (.here hmem) with ⟨hl, -⟩ | ha
    · rw [hm] at hl
      cases hl
      exact absurd rfl hname.1
    · exact ha
  obtain ⟨-, -, hmod, -⟩ := hhere
  refine ⟨hmod, fun ls x hr => ?_⟩
  have hadds : ∃ op ∈ innerOps S it, Adds op.2 op.1 (c.label :: ls) x := by
    rcases h.reaches (.inside hmem hr) with ⟨hl, -⟩ | ha
    · rw [hm] at hl
      cases hl
      exact absurd rfl hname.1
    · exact ha
  obtain ⟨ip, hfam, -, op', hop', ha⟩ := hops ls x hadds
  exact ⟨ip, hfam, op', hop', ha.of_cons rfl hr.ne_nil⟩

/-- The mtu that is read was in the model, and the schema accepted it. -/
theorem InterfaceTree.mtu (hS : InterfacesSchema S) (h : InterfaceTree S it n)
    {f : String} (hf : f ∈ families) {c : LydNode} (hc : findChild n f = some c) {v : String}
    (hv : childValue c "mtu" = some v) :
    ∃ k : UInt32, v = k.toNat.repr ∧
      S.Accepts ((familyPlace f).child (ipName "mtu")) k.toNat.repr := by
  obtain ⟨typeIp, hkIp, -⟩ := hS.ip f hf
  obtain ⟨typeLen, hkLen, -⟩ := hS.prefixLength f hf
  obtain ⟨typeMtu, hkMtu, hdec⟩ := hS.mtu f hf
  obtain ⟨hmod, hreaches⟩ := h.reaches_family hS hf hc
  obtain ⟨d, hd, hnamed, hval⟩ := exists_of_childValue hv
  obtain ⟨m, hm⟩ := named_iff.mp hnamed
  obtain ⟨ip, -, op, hop, ha⟩ := hreaches _ _ (.here hd)
  rw [hm, hval] at ha
  rcases cases_ipOps hS hmod hf hkIp hkLen hkMtu hop with
    ⟨a, -, w, -, rfl | ⟨v, -, rfl⟩⟩ | ⟨k, -, w, hw, rfl⟩
  · exact absurd (congrArg QName.name (Option.some.inj ha.head)) (by decide : "mtu" ≠ "address")
  · exact absurd (congrArg QName.name (Option.some.inj ha.head)) (by decide : "mtu" ≠ "address")
  · obtain rfl := hdec _ _ hw
    refine ⟨k, Option.some.inj (ha.of_singleton rfl).2, typeMtu, ?_, hw⟩
    rw [SchemaTree.typeAt, hkMtu]
    rfl

/-- Reading the container of an address family does not throw. -/
theorem InterfaceTree.readIp_ok (hS : InterfacesSchema S) (h : InterfaceTree S it n)
    {f : String} (hf : f ∈ families) : ∃ o, readIp (findChild n f) = .ok o := by
  cases hc : findChild n f with
  | none => exact ⟨none, rfl⟩
  | some c =>
    have hmtu : ∃ o, readUInt32 (childValue c "mtu") = .ok o := by
      cases hv : childValue c "mtu" with
      | none => exact ⟨none, rfl⟩
      | some v =>
        obtain ⟨k, rfl, -⟩ := h.mtu hS hf hc hv
        exact ⟨some k, readUInt32_repr k⟩
    obtain ⟨o, ho⟩ := hmtu
    exact ⟨_, by rw [readIp, ho]; rfl⟩

/-- No operational field is set. -/
structure NotOperational (i : IetfInterface) : Prop where
  admin_status : i.admin_status = none
  oper_status : i.oper_status = none
  last_change : i.last_change = none
  if_index : i.if_index = none
  phys_address : i.phys_address = none
  higher_layer_if : i.higher_layer_if = []
  lower_layer_if : i.lower_layer_if = []
  discontinuity_time : i.statistics.bind IetfInterfaceStatistics.discontinuity_time = none

/-- **Decoding one instance** succeeds, gives the name, and no operational field. -/
theorem InterfaceTree.readInterface_ok (hS : InterfacesSchema S) (h : InterfaceTree S it n)
    (hname : it.name ≠ "") :
    ∃ j, readInterface n = .ok j ∧ j.name = it.name ∧ NotOperational j ∧
      j.description = childValue n "description" ∧
      j.type = (childValue n "type").map (fun v => ianaIfTypeFromString (stripNsPrefix v)) ∧
      j.enabled = (childValue n "enabled").all (fun v => !(v == "false" || v == "0")) ∧
      ∀ f ∈ families, readIp (findChild n f) = .ok (j.family f) := by
  obtain ⟨ip4, h4⟩ := h.readIp_ok hS (f := "ipv4") (by decide)
  obtain ⟨ip6, h6⟩ := h.readIp_ok hS (f := "ipv6") (by decide)
  have hn : (childValue n "name").getD "" = it.name := by rw [h.childValue_name hS]; rfl
  have hidx : readInt32 (childValue n "if-index") = .ok none := by
    rw [h.childValue_eq_none hS (by decide)]
    rfl
  have hrun : readInterface n = .ok {
      name := it.name
      description := childValue n "description"
      type := (childValue n "type").map fun v => ianaIfTypeFromString (stripNsPrefix v)
      enabled := (childValue n "enabled").all fun v => !(v == "false" || v == "0")
      ipv4 := ip4
      ipv6 := ip6 } := by
    simp only [readInterface, hn, if_neg hname, h4, h6, hidx,
      h.childValue_eq_none hS (show "admin-status" ∉ _ by decide),
      h.childValue_eq_none hS (show "oper-status" ∉ _ by decide),
      h.childValue_eq_none hS (show "last-change" ∉ _ by decide),
      h.childValue_eq_none hS (show "phys-address" ∉ _ by decide),
      h.childrenNamed_eq_nil hS (show "higher-layer-if" ∉ _ by decide),
      h.childrenNamed_eq_nil hS (show "lower-layer-if" ∉ _ by decide),
      h.findChild_eq_none hS (show "statistics" ∉ _ by decide)]
    rfl
  refine ⟨_, hrun, rfl, ?_, rfl, rfl, rfl, ?_⟩
  · exact ⟨rfl, rfl, rfl, rfl, rfl, rfl, rfl, rfl⟩
  · rw [forall_families]
    exact ⟨h4, h6⟩

end Instance

/-! ### Decoding all instances -/

/-- Decoding a tree whose children stand for the elements of a list, in any order. -/
theorem deserialize_of_forall₂ {α : Type} {R : α → LydNode → Prop} {P : α → IetfInterface → Prop}
    {as : List α} {t : LydNode} {ns : List LydNode} (lyd_find_path : FindPath)
    (ht : t.label = some (ifName "interfaces")) (hperm : t.children.Perm ns)
    (hall : List.Forall₂ R as ns)
    (hread : ∀ a ∈ as, ∀ n, R a n →
      n.label = some (ifName "interface") ∧ ∃ j, readInterface n = .ok j ∧ P a j) :
    ∃ m', IetfInterfaces.deserialize lyd_find_path [t] (some t) = .ok m' ∧
      ∃ js, m'.ifs_.Perm js ∧ List.Forall₂ P as js ∧
        ∀ j ∈ js, ∃ a ∈ as, ∃ n, R a n ∧ readInterface n = .ok j := by
  obtain ⟨js, hjs, hP⟩ := Traverse.exists_mapM_of_forall₂ hall fun a ha n hn => (hread a ha n hn).2
  have hnamed : (childrenNamed t "interface").Perm ns := by
    have hfilter : ns.filter (named "interface") = ns := by
      refine List.filter_eq_self.mpr fun n hn => ?_
      obtain ⟨a, ha, hR⟩ := Traverse.exists_of_forall₂_right hall n hn
      exact named_iff.mpr ⟨_, (hread a ha n hR).1⟩
    exact hfilter ▸ hperm.filter (named "interface")
  obtain ⟨js', hjs', hp⟩ := Traverse.exists_mapM_of_perm hnamed hjs
  have hfind : findInterfaces lyd_find_path [t] t = some t := by
    rw [findInterfaces, if_pos (named_iff.mpr ⟨_, ht⟩)]
  refine ⟨⟨js'⟩, ?_, js, hp, hP, fun j hj => ?_⟩
  · simp only [IetfInterfaces.deserialize, readInterfaces, Option.bind_some, hfind, hjs']
    rfl
  · obtain ⟨n, hn, hnj⟩ :=
      Traverse.exists_of_forall₂_right (Traverse.mapM_eq_ok_iff.mp hjs) j hj
    obtain ⟨a, ha, hR⟩ := Traverse.exists_of_forall₂_right hall n hn
    exact ⟨a, ha, n, hR, hnj⟩

/-! ### Operational fields -/

/-- The operational fields of `j` are those of `i`. -/
structure SameOperational (i j : IetfInterface) : Prop where
  admin_status : j.admin_status = i.admin_status
  oper_status : j.oper_status = i.oper_status
  last_change : j.last_change = i.last_change
  if_index : j.if_index = i.if_index
  phys_address : j.phys_address = i.phys_address
  higher_layer_if : j.higher_layer_if = i.higher_layer_if
  lower_layer_if : j.lower_layer_if = i.lower_layer_if
  discontinuity_time : j.statistics.bind IetfInterfaceStatistics.discontinuity_time =
    i.statistics.bind IetfInterfaceStatistics.discontinuity_time

/-- Encoding and decoding gives an interface for each interface of the model, matched by name, with
the same operational fields. -/
def OperationalKept (lyd_new_path : NewPath LydNode) (lyd_find_path : FindPath)
    (m : IetfInterfaces) : Prop :=
  ∃ t m', m.serialize lyd_new_path = .ok (some t) ∧
    IetfInterfaces.deserialize lyd_find_path [t] (some t) = .ok m' ∧
    ∃ js, m'.ifs_.Perm js ∧
      List.Forall₂ (fun i j => j.name = i.name ∧ SameOperational i j) m.ifs_ js

/-- Names the encoder can write: not empty, texts of the type `string` without apostrophes, and no
two alike. -/
structure ProperNames (m : IetfInterfaces) : Prop where
  nonempty : ∀ i ∈ m.ifs_, i.name ≠ ""
  spellable : ∀ i ∈ m.ifs_, Spellable i.name
  distinct : (m.ifs_.map IetfInterface.name).Nodup

section Operational

variable {S : SchemaTree} {lyd_new_path : NewPath LydNode}

/-- What decoding after encoding gives: the interfaces by name, without operational fields. -/
theorem deserialize_serialize (hS : InterfacesSchema S) (h : NewPath.Lawful S lyd_new_path)
    (lyd_find_path : FindPath) {m : IetfInterfaces} (hm : ProperNames m) (hnul : m.NulFree) :
    ∃ t m', m.serialize lyd_new_path = .ok (some t) ∧
      IetfInterfaces.deserialize lyd_find_path [t] (some t) = .ok m' ∧
      ∃ js, m'.ifs_.Perm js ∧
        List.Forall₂ (fun i j => j.name = i.name ∧ NotOperational j) m.ifs_ js := by
  obtain ⟨t, hrun, ht, ns, hperm, hall⟩ := serialize_tree hS h hnul hm.spellable hm.distinct
  obtain ⟨m', hdec, js, hjs, hP, -⟩ := deserialize_of_forall₂ lyd_find_path ht hperm hall
    (P := fun i j => j.name = i.name ∧ NotOperational j) fun i hi n hn => by
      obtain ⟨j, hj, hname, hop, -⟩ := hn.readInterface_ok hS (hm.nonempty i hi)
      obtain ⟨bs, ds, rfl, -⟩ := hn
      exact ⟨rfl, j, hj, hname, hop⟩
  exact ⟨t, m', hrun, hdec, js, hjs, hP⟩

/-- Operational fields that are kept are absent. -/
theorem OperationalKept.notOperational (hS : InterfacesSchema S)
    (h : NewPath.Lawful S lyd_new_path) {lyd_find_path : FindPath} {m : IetfInterfaces}
    (hm : ProperNames m) (hnul : m.NulFree)
    (hkept : OperationalKept lyd_new_path lyd_find_path m) :
    ∀ i ∈ m.ifs_, NotOperational i := by
  obtain ⟨t, m', hrun, hdec, js, hjs, hP⟩ := deserialize_serialize hS h lyd_find_path hm hnul
  obtain ⟨t', m'', hrun', hdec', js', hjs', hsame⟩ := hkept
  intro i hi
  rw [hrun] at hrun'
  cases hrun'
  rw [hdec] at hdec'
  cases hdec'
  obtain ⟨j, hj, -, hop⟩ := Traverse.exists_of_forall₂_left hsame i hi
  obtain ⟨i', -, -, hno⟩ :=
    Traverse.exists_of_forall₂_right hP j (hjs.subset (hjs'.symm.subset hj))
  exact {
    admin_status := hop.admin_status.symm.trans hno.admin_status
    oper_status := hop.oper_status.symm.trans hno.oper_status
    last_change := hop.last_change.symm.trans hno.last_change
    if_index := hop.if_index.symm.trans hno.if_index
    phys_address := hop.phys_address.symm.trans hno.phys_address
    higher_layer_if := hop.higher_layer_if.symm.trans hno.higher_layer_if
    lower_layer_if := hop.lower_layer_if.symm.trans hno.lower_layer_if
    discontinuity_time := hop.discontinuity_time.symm.trans hno.discontinuity_time }

/-- **Operational fields do not survive**: they agree exactly when the model has none. The names are
those of a list with a key, and no text holds a NUL, as in any document. -/
theorem operationalKept_iff (hS : InterfacesSchema S) (h : NewPath.Lawful S lyd_new_path)
    (lyd_find_path : FindPath) {m : IetfInterfaces} (hm : ProperNames m) (hnul : m.NulFree) :
    OperationalKept lyd_new_path lyd_find_path m ↔ ∀ i ∈ m.ifs_, NotOperational i := by
  refine ⟨fun hkept => hkept.notOperational hS h hm hnul, fun hno => ?_⟩
  obtain ⟨t, m', hrun, hdec, js, hjs, hP⟩ := deserialize_serialize hS h lyd_find_path hm hnul
  refine ⟨t, m', hrun, hdec, js, hjs, Traverse.forall₂_imp_left hP fun i hi j ⟨hname, hj⟩ => ?_⟩
  have hi := hno i hi
  exact ⟨hname, {
    admin_status := hj.admin_status.trans hi.admin_status.symm
    oper_status := hj.oper_status.trans hi.oper_status.symm
    last_change := hj.last_change.trans hi.last_change.symm
    if_index := hj.if_index.trans hi.if_index.symm
    phys_address := hj.phys_address.trans hi.phys_address.symm
    higher_layer_if := hj.higher_layer_if.trans hi.higher_layer_if.symm
    lower_layer_if := hj.lower_layer_if.trans hi.lower_layer_if.symm
    discontinuity_time := hj.discontinuity_time.trans hi.discontinuity_time.symm }⟩

end Operational

/-- An interface whose administrative and operational state is known. -/
def upInterface : IetfInterfaces :=
  ⟨[{ name := "eth0", admin_status := some "up", oper_status := some "up" }]⟩

theorem upInterface_properNames : ProperNames upInterface where
  nonempty := by decide
  spellable := by decide
  distinct := by decide

theorem operationalKept_iff_upInterface :
    OperationalKept (Reference.newPath Reference.schema) Reference.findPath upInterface ↔
      ∀ i ∈ upInterface.ifs_, NotOperational i :=
  operationalKept_iff Reference.interfacesSchema (Reference.newPath_lawful _) _
    upInterface_properNames (by decide)

theorem not_operationalKept_upInterface :
    ¬ OperationalKept (Reference.newPath Reference.schema) Reference.findPath upInterface := by
  intro hkept
  have hno := hkept.notOperational Reference.interfacesSchema (Reference.newPath_lawful _)
    upInterface_properNames (by decide) _ List.mem_cons_self
  cases hno.admin_status

end StelleriYang

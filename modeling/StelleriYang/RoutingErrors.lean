import StelleriYang.Reference

/-!
# When `IetfRouting::serialize` throws

The encoder checks every call, so what matters is whether a call fails. The calls for a model
without control-plane protocols never do, if its values are accepted. For a control-plane protocol
two calls are made that name a key of its instance. The first creates the instance, and with it
both keys; the second finds its node there and fails. All texts are taken to reach libyang whole.

## Main definitions

* `RoutingAcceptable` — the models whose values the schema accepts
* `ProtocolsEncoded` — `serialize` returns a tree with an entry for each control-plane protocol

## Main results

* `serialize_routingTree` — without control-plane protocols, `serialize` returns a `RoutingTree`
* `routingTree_of_serialize` — and what it returns is one
* `serialize_protocols` — with a control-plane protocol, `serialize` throws
* `protocolsEncoded_iff`
-/

namespace StelleriYang

open DataTree (Step Attempts Grows occurs under)
open LydNode (named findChild childrenNamed childValue)
open PathText (quote)
open Routing

/-- The values of a control-plane protocol are accepted: its keys are not empty and without
apostrophes, its type is an identity, and its name a text of the type `string`. -/
structure ProtocolValid (S : SchemaTree) (p : ControlPlaneProtocol) : Prop where
  type_nonempty : p.type ≠ ""
  name_nonempty : p.name ≠ ""
  type_clean : quote ∉ p.type.toList
  name_spellable : Spellable p.name
  type : ∃ type w, S.kindAt (protocolPlace.child (rtName "type")) = some (.leaf type) ∧
    type p.type = some w
  static_routes : p.static_routes = []

/-- The values of a model are accepted, and the keys of its lists are distinct. -/
structure RoutingAcceptable (S : SchemaTree) (r : Routing) : Prop where
  routerId : ∀ id, r.router_id = some id →
    ∃ type w, S.kindAt (rootPlace.child (rtName "router-id")) = some (.leaf type) ∧
      type id = some w
  interfaces : ∀ n ∈ r.interfaces, YangText n
  protocols : ∀ p ∈ r.control_plane_protocols, ProtocolValid S p
  protocolKeys : (r.control_plane_protocols.map fun p => (p.type, p.name)).Nodup
  ribs : ∀ rib ∈ r.ribs, RibValid S rib
  ribNames : (r.ribs.map Rib.name).Nodup

section Encoding

variable {S : SchemaTree} {lyd_new_path : NewPath LydNode} {r : Routing}

theorem serialize_root (hS : RoutingSchema S) (h : NewPath.Lawful S lyd_new_path) (r : Routing) :
    (IetfRouting.mk r).serialize lyd_new_path =
      checkAll lyd_new_path (some (LydNode.inner (rtName "routing") [])) (routingCalls r) := by
  have hroot : lyd_new_path none "/ietf-routing:routing" none =
      (.LY_SUCCESS, some (LydNode.inner (rtName "routing") [])) :=
    h.root (rtName "routing") (show PathText.IsIdent "ietf-routing" by decide) hS.routing
  rw [IetfRouting.serialize_eq, hroot]
  rfl

/-! ### Without control-plane protocols -/

/-- **Without control-plane protocols no call fails.** -/
theorem serialize_routingTree (hS : RoutingSchema S) (h : NewPath.Lawful S lyd_new_path)
    (hnul : r.NulFree) (hr : RoutingAcceptable S r) (hcpp : r.control_plane_protocols = []) :
    ∃ t, (IetfRouting.mk r).serialize lyd_new_path = .ok (some t) ∧ RoutingTree S r t := by
  have heffects : ∀ c ∈ routingCalls r, (S.effect rootPlace c).isSome := by
    intro c hc
    simp only [routingCalls, hcpp, List.flatMap_nil, List.append_nil, List.mem_append,
      List.mem_map, Option.mem_toList, List.mem_flatMap] at hc
    rcases hc with (⟨id, hid, rfl⟩ | ⟨v, hv, rfl⟩) | ⟨rib, hrib, hc⟩
    · obtain ⟨type, w, hk, hw⟩ := hr.routerId id hid
      rw [SchemaTree.effect_name_eq (p := rootPlace) (show PathText.IsIdent "router-id" by decide)
        hk rfl, hw]
      rfl
    · rw [effect_interface hS, (hr.interfaces v hv).yangString_eq]
      rfl
    · exact (ribValid_iff hS).mp (hr.ribs rib hrib) c hc
  have hops := Traverse.mapM_eq_some_iff.mpr ⟨heffects, rfl⟩
  obtain ⟨bs, cs, ha, hrun⟩ := checkAll_ok h (t := LydNode.inner (rtName "routing") []) rfl
    hnul.wholeCall hops
    fun bs cs ha => (routing_attempts hS hcpp hr.interfaces hr.ribs hr.ribNames ha).1
  refine ⟨_, (serialize_root hS h r).trans hrun, ?_⟩
  exact (routing_attempts hS hcpp hr.interfaces hr.ribs hr.ribNames ha).2

/-- **What is returned is complete.** -/
theorem routingTree_of_serialize (hS : RoutingSchema S) (h : NewPath.Lawful S lyd_new_path)
    (hnul : r.NulFree) (hcpp : r.control_plane_protocols = [])
    (hnames : (r.ribs.map Rib.name).Nodup) {t : LydNode}
    (hok : (IetfRouting.mk r).serialize lyd_new_path = .ok (some t)) : RoutingTree S r t := by
  have hcovered : ∀ c ∈ routingCalls r, S.Covered rootPlace c := by
    intro c hc
    simp only [routingCalls, hcpp, List.flatMap_nil, List.append_nil, List.mem_append,
      List.mem_map, Option.mem_toList, List.mem_flatMap] at hc
    rcases hc with (⟨id, -, rfl⟩ | ⟨v, -, rfl⟩) | ⟨rib, -, hc⟩
    · exact covered_routerId hS id
    · exact covered_interfaceEntry hS v
    · exact covered_rib hS rib c hc
  rw [serialize_root hS h] at hok
  rcases checkAll_cases h (t := LydNode.inner (rtName "routing") []) rfl hnul.wholeCall
    hcovered with
    ⟨ops, bs, cs, hm, ha, -, hrun⟩ | hrun
  · rw [hrun] at hok
    cases hok
    obtain ⟨heffects, rfl⟩ := Traverse.mapM_eq_some_iff.mp hm
    have hribs : ∀ rib ∈ r.ribs, RibValid S rib := fun rib hrib =>
      (ribValid_iff hS).mpr fun c hc => heffects c <| by
        rw [routingCalls]
        exact List.mem_append_right _ (List.mem_flatMap.mpr ⟨rib, hrib, hc⟩)
    have hinterfaces : ∀ n ∈ r.interfaces, YangText n := fun n hn => by
      have hsome := heffects ("interfaces/interface", n) (by simp [routingCalls, hn])
      rwa [show S.effect (.root (rtName "routing")) ("interfaces/interface", n) = _ from
        effect_interface hS n, Option.isSome_map, isSome_yangString] at hsome
    exact (routing_attempts hS hcpp hinterfaces hribs hnames ha).2
  · rw [hrun] at hok
    cases hok

/-! ### With a control-plane protocol -/

/-- The step to the instance of a control-plane protocol. -/
def protocolInstance (w name : String) : Step (Option QName) String :=
  ⟨some (rtName "control-plane-protocol"),
    [(some (rtName "type"), w), (some (rtName "name"), name)],
    false⟩

theorem enter_protocols (hS : RoutingSchema S) :
    S.enter rootPlace (bareStep "control-plane-protocols") =
      some (nodeStep (rtName "control-plane-protocols"), protocolsPlace) :=
  SchemaTree.enter_bare (p := rootPlace) hS.protocols rfl

theorem enter_protocol (hS : RoutingSchema S) {type : String → Option String} {v w : String}
    (hk : S.kindAt (protocolPlace.child (rtName "type")) = some (.leaf type))
    (hw : type v = some w) {name : String} (htext : YangText name) :
    S.enter protocolsPlace (protocolStep v name) =
      some (protocolInstance w name, protocolPlace) := by
  have htype : S.typeAt (protocolPlace.child ⟨"ietf-routing", "type"⟩) = some type := by
    rw [SchemaTree.typeAt, show S.kindAt (protocolPlace.child ⟨"ietf-routing", "type"⟩) = _ from hk]
    rfl
  have hname : S.typeAt (protocolPlace.child ⟨"ietf-routing", "name"⟩) = some yangString := by
    rw [SchemaTree.typeAt, show S.kindAt (protocolPlace.child ⟨"ietf-routing", "name"⟩) = _ from
      hS.protocolName]
    rfl
  have hkeys : S.keyLeaves protocolPlace [("type", v), ("name", name)] (.list ["type", "name"]) =
      some [(some (rtName "type"), w), (some (rtName "name"), name)] := by
    have h₁ : S.keyLeaf protocolPlace [("type", v), ("name", name)] "type" =
        some (some (rtName "type"), w) := by
      simp [SchemaTree.keyLeaf, htype, hw, rtName,
        show protocolPlace.module = "ietf-routing" from rfl]
    have h₂ : S.keyLeaf protocolPlace [("type", v), ("name", name)] "name" =
        some (some (rtName "name"), name) := by
      simp [SchemaTree.keyLeaf, hname, rtName, show protocolPlace.module = "ietf-routing" from rfl,
        List.lookup_cons, htext.yangString_eq]
    simp [SchemaTree.keyLeaves, h₁, h₂]
  rw [SchemaTree.enter_eq (p := protocolsPlace) (s := protocolStep v name) rfl hS.protocol]
  exact congrArg _ hkeys

/-- A call for a leaf of a control-plane protocol. -/
theorem effect_protocolLeaf (hS : RoutingSchema S) {p : ControlPlaneProtocol}
    (hp : ProtocolValid S p) {type : String → Option String} {w : String}
    (hk : S.kindAt (protocolPlace.child (rtName "type")) = some (.leaf type))
    (hw : type p.type = some w) (leaf v : String) :
    S.effect rootPlace (controlPlaneProtocolPath p.type p.name ++ ("/" ++ leaf), v) =
      ((S.effect protocolPlace (leaf, v)).map (under (protocolInstance w p.name))).map
        (under (nodeStep (rtName "control-plane-protocols"))) := by
  rw [controlPlaneProtocolPath_eq, SchemaTree.effect_step (bareStep_named (by decide))
    (bareStep_plain _), enter_protocols hS, Option.bind_some,
    SchemaTree.effect_step (protocolStep_named _ _)
      (protocolStep_plain hp.type_clean hp.name_spellable.quote),
    enter_protocol hS hk hw hp.name_spellable.text, Option.bind_some]

/-- **The second key of an instance is there already.** -/
theorem not_attempts_keys {w : String} {name v : String} {bs} {cs cs' : List LydNode}
    (ha : Attempts [([nodeStep (rtName "control-plane-protocols"), protocolInstance w name,
        nodeStep (rtName "type")], w),
      ([nodeStep (rtName "control-plane-protocols"), protocolInstance w name,
        nodeStep (rtName "name")], v)] bs cs cs') : ¬ ∀ b ∈ bs, b = true := by
  intro hb
  cases ha with
  | refused _ _ => simp at hb
  | grown _ hg ha =>
    -- the first call leaves the instance with both keys
    have htaken := hg.occurs_key (s := protocolInstance w name) (t := nodeStep (rtName "type"))
      (k := (some (rtName "name"), name)) (p := [nodeStep (rtName "control-plane-protocols")])
      (by simp [protocolInstance]) (by simp [nodeStep, protocolInstance])
    cases ha with
    | refused _ _ => simp at hb
    | grown ho _ _ => exact absurd (htaken.symm.trans ho) (by simp)

/-- The calls before those for control-plane protocols. -/
def earlierCalls (r : Routing) : List (String × String) :=
  (r.router_id.toList.map fun id => ("router-id", id)) ++
    r.interfaces.map fun n => ("interfaces/interface", n)

/-- The first two calls for a control-plane protocol. -/
def keyCalls (p : ControlPlaneProtocol) : List (String × String) :=
  [(controlPlaneProtocolPath p.type p.name ++ "/type", p.type),
    (controlPlaneProtocolPath p.type p.name ++ "/name", p.name)]

theorem exists_routingCalls_eq {p : ControlPlaneProtocol} {ps : List ControlPlaneProtocol}
    (hps : r.control_plane_protocols = p :: ps) :
    ∃ rest, routingCalls r = (earlierCalls r ++ keyCalls p) ++ rest := by
  refine ⟨descriptionCalls (controlPlaneProtocolPath p.type p.name) p.description ++
    routeCalls (controlPlaneProtocolPath p.type p.name ++ "/static-routes/route/route-preference")
      p.static_routes ++ ps.flatMap controlPlaneProtocolCalls ++ r.ribs.flatMap ribCalls, ?_⟩
  simp only [routingCalls, hps, List.flatMap_cons, controlPlaneProtocolCalls, earlierCalls,
    keyCalls, List.append_assoc, List.cons_append, List.nil_append]

/-- **A control-plane protocol makes `serialize` throw.** -/
theorem serialize_protocols (hS : RoutingSchema S) (h : NewPath.Lawful S lyd_new_path)
    (hnul : r.NulFree) (hr : RoutingAcceptable S r) (hcpp : r.control_plane_protocols ≠ []) :
    (IetfRouting.mk r).serialize lyd_new_path = .error .yangDataError := by
  obtain ⟨p, ps, hps⟩ := List.exists_cons_of_ne_nil hcpp
  have hp : ProtocolValid S p := hr.protocols p (by simp [hps])
  obtain ⟨type, w, hk, hw⟩ := hp.type
  have htype : S.effect rootPlace (controlPlaneProtocolPath p.type p.name ++ "/type", p.type) =
      some ([nodeStep (rtName "control-plane-protocols"), protocolInstance w p.name,
        nodeStep (rtName "type")], w) := by
    rw [show "/type" = "/" ++ "type" by decide, effect_protocolLeaf hS hp hk hw,
      SchemaTree.effect_name_eq (p := protocolPlace) (show PathText.IsIdent "type" by decide) hk
        rfl, hw]
    rfl
  have hname : S.effect rootPlace (controlPlaneProtocolPath p.type p.name ++ "/name", p.name) =
      some ([nodeStep (rtName "control-plane-protocols"), protocolInstance w p.name,
        nodeStep (rtName "name")], p.name) := by
    rw [show "/name" = "/" ++ "name" by decide, effect_protocolLeaf hS hp hk hw,
      SchemaTree.effect_name_eq (p := protocolPlace) (show PathText.IsIdent "name" by decide)
        hS.protocolName rfl, hp.name_spellable.text.yangString_eq]
    rfl
  have hcovered : ∀ c ∈ earlierCalls r ++ keyCalls p, S.Covered rootPlace c := by
    intro c hc
    simp only [earlierCalls, keyCalls, List.mem_append, List.mem_map, List.mem_cons,
      List.not_mem_nil, or_false] at hc
    rcases hc with (⟨id, -, rfl⟩ | ⟨v, -, rfl⟩) | rfl | rfl
    · exact covered_routerId hS id
    · exact covered_interfaceEntry hS v
    · exact SchemaTree.covered_of_effect htype
    · exact SchemaTree.covered_of_effect hname
  obtain ⟨rest, hcalls⟩ := exists_routingCalls_eq hps
  have hwhole : ∀ c ∈ earlierCalls r ++ keyCalls p, WholeCall c := fun c hc =>
    hnul.wholeCall c (hcalls ▸ List.mem_append_left rest hc)
  rw [serialize_root hS h, hcalls, checkAll_append]
  rcases checkAll_cases h (t := LydNode.inner (rtName "routing") []) rfl hwhole hcovered with
    ⟨ops, bs, cs, hm, ha, hb, -⟩ | hrun
  · obtain ⟨-, rfl⟩ := Traverse.mapM_eq_some_iff.mp hm
    rw [List.filterMap_append] at ha
    obtain ⟨bs₁, bs₂, ds, rfl, -, ha⟩ := Attempts.append_inv ha
    have hops : (keyCalls p).filterMap (S.effect rootPlace) = _ :=
      (List.filterMap_cons_some htype).trans
        (congrArg _ ((List.filterMap_cons_some hname).trans (congrArg _ List.filterMap_nil)))
    rw [show (keyCalls p).filterMap (S.effect (.root (rtName "routing"))) = _ from hops] at ha
    exact absurd (fun b hmem => hb b (List.mem_append_right _ hmem)) (not_attempts_keys ha)
  · rw [hrun]
    rfl

/-- An entry for a control-plane protocol, with the canonical form of its type. -/
structure ProtocolTree (S : SchemaTree) (p : ControlPlaneProtocol) (n : LydNode) : Prop where
  type : childValue n "type" =
    (S.typeAt (protocolPlace.child (rtName "type"))).bind (· p.type)
  name : childValue n "name" = some p.name
  description : childValue n "description" = p.description

/-- `serialize` returns a tree with exactly one entry for each control-plane protocol. -/
def ProtocolsEncoded (S : SchemaTree) (lyd_new_path : NewPath LydNode) (r : Routing) : Prop :=
  ∃ t, (IetfRouting.mk r).serialize lyd_new_path = .ok (some t) ∧
    ∃ ns, (entries t "control-plane-protocols" "control-plane-protocol").Perm ns ∧
      List.Forall₂ (ProtocolTree S) r.control_plane_protocols ns

/-- **Control-plane protocols are encoded exactly when there are none**, in any schema with the
nodes the encoder writes to, if libyang does what it documents and the values of the model are
accepted and hold no NULs: it is not a value that is at fault, but the second call for a key. -/
theorem protocolsEncoded_iff (hS : RoutingSchema S) (h : NewPath.Lawful S lyd_new_path)
    (hnul : r.NulFree) (hr : RoutingAcceptable S r) :
    ProtocolsEncoded S lyd_new_path r ↔ r.control_plane_protocols = [] := by
  constructor
  · rintro ⟨t, hok, -⟩
    by_contra hcpp
    rw [serialize_protocols hS h hnul hr hcpp] at hok
    cases hok
  · intro hcpp
    obtain ⟨t, hok, ht⟩ := serialize_routingTree hS h hnul hr hcpp
    refine ⟨t, hok, [], ?_, by rw [hcpp]; exact .nil⟩
    rw [entries, ht.protocols]

end Encoding

/-- A model with one static protocol. -/
def staticProtocol : Routing :=
  { control_plane_protocols := [{ type := "static", name := "st0", description := some "uplink" }] }

theorem staticProtocol_acceptable : RoutingAcceptable Reference.schema staticProtocol where
  routerId := by simp [staticProtocol]
  interfaces := by simp [staticProtocol]
  protocols p hp := by
    obtain rfl := List.mem_singleton.mp hp
    exact ⟨by decide, by decide, by decide, by decide,
      ⟨_, "ietf-routing:static", rfl, by decide⟩, rfl⟩
  protocolKeys := by decide
  ribs := by simp [staticProtocol]
  ribNames := by decide

theorem protocolsEncoded_iff_staticProtocol :
    ProtocolsEncoded Reference.schema (Reference.newPath Reference.schema) staticProtocol ↔
      staticProtocol.control_plane_protocols = [] :=
  protocolsEncoded_iff Reference.routingSchema (Reference.newPath_lawful _) (by decide)
    staticProtocol_acceptable

theorem not_protocolsEncoded_staticProtocol :
    ¬ ProtocolsEncoded Reference.schema (Reference.newPath Reference.schema) staticProtocol := by
  rintro ⟨t, hok, -⟩
  rw [serialize_protocols Reference.routingSchema (Reference.newPath_lawful _) (by decide)
    staticProtocol_acceptable (by decide)] at hok
  cases hok

end StelleriYang

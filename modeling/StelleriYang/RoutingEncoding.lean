import StelleriYang.IetfRouting
import StelleriYang.Lib.Traverse

/-!
# The tree `IetfRouting::serialize` builds

Which paths the encoder spells, what each call is asked to insert, and what is in the tree after
the calls for the router id, the interface references and the ribs. The calls for control-plane
protocols are the exception, because they never succeed: see `RoutingErrors`.

## Main definitions

* `RoutingSchema` — what the code relies on about `ietf-routing`
* `RibTree`, `RoutingTree` — what the decoder finds in an encoded rib, and in the whole tree

## Main results

* `address_rib_eq_none` — the name of a rib with an apostrophe spells no path
* `routing_attempts` — no call for a rib is in the way of another, and the tree is a `RoutingTree`
-/

namespace StelleriYang

open DataTree (Tree Step Attempts Reaches under)
open PathText (quote)
open LydNode (named findChild childrenNamed childValue)

/-! ### The schema -/

namespace Routing

/-- A name of `ietf-routing`. -/
def rtName (name : String) : QName := ⟨"ietf-routing", name⟩

def rootPlace : Place := .root (rtName "routing")
def interfacesPlace : Place := rootPlace.child (rtName "interfaces")
def protocolsPlace : Place := rootPlace.child (rtName "control-plane-protocols")
def protocolPlace : Place := protocolsPlace.child (rtName "control-plane-protocol")
def ribsPlace : Place := rootPlace.child (rtName "ribs")
def ribPlace : Place := ribsPlace.child (rtName "rib")
def routesPlace : Place := ribPlace.child (rtName "routes")
def routePlace : Place := routesPlace.child (rtName "route")

end Routing

open Routing

/-- The part of `ietf-routing` that the encoder writes to. -/
structure RoutingSchema (S : SchemaTree) : Prop where
  routing : S.kindAt rootPlace = some .container
  routerId : ∃ type, S.kindAt (rootPlace.child (rtName "router-id")) = some (.leaf type)
  interfaces : S.kindAt interfacesPlace = some .container
  /-- references by name, and so of type `string` -/
  interface : S.kindAt (interfacesPlace.child (rtName "interface")) =
    some (.stateLeafList yangString)
  protocols : S.kindAt protocolsPlace = some .container
  protocol : S.kindAt protocolPlace = some (.list ["type", "name"])
  protocolType : ∃ type, S.kindAt (protocolPlace.child (rtName "type")) = some (.leaf type)
  /-- of type `string` -/
  protocolName : S.kindAt (protocolPlace.child (rtName "name")) = some (.leaf yangString)
  ribs : S.kindAt ribsPlace = some .container
  rib : S.kindAt ribPlace = some (.list ["name"])
  /-- of type `string` -/
  ribName : S.kindAt (ribPlace.child (rtName "name")) = some (.leaf yangString)
  /-- of type `string` -/
  ribDescription : S.kindAt (ribPlace.child (rtName "description")) = some (.leaf yangString)
  addressFamily : ∃ type, S.kindAt (ribPlace.child (rtName "address-family")) = some (.leaf type) ∧
    IdentityRef S.moduleOf type
  /-- no list in a rib has keys: routes are state -/
  ribKeyless : S.KeylessBelow ribPlace
  routes : S.kindAt routesPlace = some .container
  route : S.kindAt routePlace = some (.list [])
  /-- of type `uint32` -/
  routePreference : ∃ type, S.kindAt (routePlace.child (rtName "route-preference")) =
    some (.leaf type) ∧ ∀ k : UInt32, type k.toNat.repr = some k.toNat.repr

/-! ### Paths -/

/-- A step to a node without keys. -/
def bareStep (name : String) : PathText.Step := ⟨none, name, []⟩

def protocolStep (type name : String) : PathText.Step :=
  ⟨none, "control-plane-protocol", [("type", type), ("name", name)]⟩

def ribStep (name : String) : PathText.Step := ⟨none, "rib", [("name", name)]⟩

theorem bareStep_named {name : String} (h : PathText.IsIdent name) : (bareStep name).Named :=
  ⟨by simp [bareStep], h, by simp [bareStep]⟩

theorem bareStep_plain (name : String) : (bareStep name).Plain := by
  simp [bareStep, PathText.Step.Plain]

theorem protocolStep_named (type name : String) : (protocolStep type name).Named := by
  refine ⟨by simp [protocolStep], show PathText.IsIdent "control-plane-protocol" by decide, ?_⟩
  intro p hp
  rcases List.mem_cons.mp hp with rfl | hp
  · exact show PathText.IsIdent "type" by decide
  · obtain rfl := List.mem_singleton.mp hp
    exact show PathText.IsIdent "name" by decide

theorem ribStep_named (name : String) : (ribStep name).Named :=
  ⟨by simp [ribStep], show PathText.IsIdent "rib" by decide, by
    simpa [ribStep] using show PathText.IsIdent "name" by decide⟩

theorem protocolStep_plain {type name : String} (ht : quote ∉ type.toList)
    (hn : quote ∉ name.toList) : (protocolStep type name).Plain := by
  simpa [protocolStep, PathText.Step.Plain] using ⟨ht, hn⟩

theorem ribStep_plain {name : String} (h : quote ∉ name.toList) : (ribStep name).Plain := by
  simpa [ribStep, PathText.Step.Plain] using h

theorem text_bareStep (name : String) : (bareStep name).text = name :=
  PathText.Step.text_name name

theorem ribPath_eq (name leaf : String) :
    ribPath name ++ ("/" ++ leaf) =
      (bareStep "ribs").text ++ "/" ++ ((ribStep name).text ++ "/" ++ leaf) := by
  have h : "ribs/rib[name='" = "ribs" ++ ("/" ++ ("rib" ++ ("[" ++ ("name" ++ "='")))) := by decide
  delta ribPath
  rw [h, text_bareStep]
  simp only [ribStep, PathText.Step.text, PathText.predsText, PathText.predText,
    PathText.qualifierText, -String.reduceAppend, String.append_assoc, String.empty_append]

theorem controlPlaneProtocolPath_eq (type name leaf : String) :
    controlPlaneProtocolPath type name ++ ("/" ++ leaf) =
      (bareStep "control-plane-protocols").text ++ "/" ++
        ((protocolStep type name).text ++ "/" ++ leaf) := by
  have h₁ : "control-plane-protocols/control-plane-protocol[type='" =
      "control-plane-protocols" ++ ("/" ++ ("control-plane-protocol" ++
        ("[" ++ ("type" ++ "='")))) := by decide
  have h₂ : "'][name='" = "']" ++ ("[" ++ ("name" ++ "='")) := by decide
  delta controlPlaneProtocolPath
  rw [h₁, h₂, text_bareStep]
  simp only [protocolStep, PathText.Step.text, PathText.predsText, PathText.predText,
    PathText.qualifierText, -String.reduceAppend, String.append_assoc, String.empty_append]

/-- The calls for a rib but the one for its name, seen from its instance. -/
def ribInner (rib : Rib) : List (String × String) :=
  ("address-family", rib.address_family) ::
    ((rib.description.toList.map fun d => ("description", d)) ++
      (((preferences rib.routes).map fun p => ("route-preference", p.toNat.repr)).map
        (below (bareStep "route"))).map (below (bareStep "routes")))

/-- Every call for a rib leads through its instance. -/
theorem ribCalls_eq (rib : Rib) : ribCalls rib =
    ((("name", rib.name) :: ribInner rib).map (below (ribStep rib.name))).map
      (below (bareStep "ribs")) := by
  have hleaf : ∀ leaf v : String, (ribPath rib.name ++ ("/" ++ leaf), v) =
      below (bareStep "ribs") (below (ribStep rib.name) (leaf, v)) := fun leaf v => by
    rw [ribPath_eq]
    rfl
  have h₁ : "/name" = "/" ++ "name" := by decide
  have h₂ : "/address-family" = "/" ++ "address-family" := by decide
  have h₃ : "/description" = "/" ++ "description" := by decide
  have h₄ : "/routes/route/route-preference" =
      "/" ++ ((bareStep "routes").text ++ "/" ++
        ((bareStep "route").text ++ "/" ++ "route-preference")) := by
    rw [text_bareStep, text_bareStep]
    decide
  simp only [ribCalls, descriptionCalls, routeCalls]
  rw [h₁, h₂, h₃, h₄]
  simp only [hleaf, ribInner, List.map_cons, List.map_append, List.map_map]
  rfl

/-! ### What the calls are asked to insert -/

section Effects

variable {S : SchemaTree}

/-- The step to an entry of the leaf-list of interfaces. -/
def interfaceEntry : Step (Option QName) String := ⟨some (rtName "interface"), [], true⟩

/-- The step to an entry of the list of routes. -/
def routeEntry : Step (Option QName) String := ⟨some (rtName "route"), [], true⟩

theorem enter_interfaces (hS : RoutingSchema S) :
    S.enter rootPlace (bareStep "interfaces") =
      some (nodeStep (rtName "interfaces"), interfacesPlace) :=
  SchemaTree.enter_bare (p := rootPlace) hS.interfaces rfl

theorem enter_ribs (hS : RoutingSchema S) :
    S.enter rootPlace (bareStep "ribs") = some (nodeStep (rtName "ribs"), ribsPlace) :=
  SchemaTree.enter_bare (p := rootPlace) hS.ribs rfl

theorem enter_routes (hS : RoutingSchema S) :
    S.enter ribPlace (bareStep "routes") = some (nodeStep (rtName "routes"), routesPlace) :=
  SchemaTree.enter_bare (p := ribPlace) hS.routes rfl

theorem enter_route (hS : RoutingSchema S) :
    S.enter routesPlace (bareStep "route") = some (routeEntry, routePlace) :=
  SchemaTree.enter_bare (p := routesPlace) hS.route rfl

/-- The step to the instance of a rib, if its name is a text of the type. -/
theorem enter_rib (hS : RoutingSchema S) (name : String) :
    S.enter ribsPlace (ribStep name) = (yangString name).map fun w =>
      (instanceStep (rtName "rib") (rtName "name") w, ribPlace) := by
  have hname : S.typeAt (ribPlace.child ⟨"ietf-routing", "name"⟩) = some yangString := by
    rw [SchemaTree.typeAt, show S.kindAt (ribPlace.child ⟨"ietf-routing", "name"⟩) = _ from
      hS.ribName]
    rfl
  have hkeys : S.keyLeaves ribPlace [("name", name)] (.list ["name"]) = _ :=
    SchemaTree.keyLeaves_one hname
  rw [SchemaTree.enter_eq (p := ribsPlace) (s := ribStep name) rfl hS.rib]
  refine (congrArg _ hkeys).trans ?_
  cases yangString name <;> rfl

theorem enter_rib_of_yangText (hS : RoutingSchema S) {name : String} (h : YangText name) :
    S.enter ribsPlace (ribStep name) =
      some (instanceStep (rtName "rib") (rtName "name") name, ribPlace) := by
  rw [enter_rib hS, h.yangString_eq]
  rfl

theorem effect_interface (hS : RoutingSchema S) (v : String) :
    S.effect rootPlace ("interfaces/interface", v) = (yangString v).map fun w =>
      under (nodeStep (rtName "interfaces")) ([interfaceEntry], w) := by
  have hpath : "interfaces/interface" = (bareStep "interfaces").text ++ "/" ++ "interface" := by
    rw [text_bareStep]
    decide
  rw [hpath, SchemaTree.effect_step (bareStep_named (by decide)) (bareStep_plain _),
    enter_interfaces hS, Option.bind_some,
    SchemaTree.effect_name_eq (p := interfacesPlace) (by decide) hS.interface rfl]
  cases yangString v <;> rfl

theorem effect_routePreference (hS : RoutingSchema S) (k : UInt32) :
    S.effect routePlace ("route-preference", k.toNat.repr) =
      some ([nodeStep (rtName "route-preference")], k.toNat.repr) := by
  obtain ⟨type, hk, htype⟩ := hS.routePreference
  rw [SchemaTree.effect_name_eq (p := routePlace) (by decide) hk rfl, htype]
  rfl

/-- **An apostrophe in the name of a rib** keeps the calls for it from spelling a path. -/
theorem address_rib_eq_none (hS : RoutingSchema S) {name : String} (h : quote ∈ name.toList)
    (leaf : String) :
    S.address ribsPlace ((ribStep name).text ++ "/" ++ leaf) = none := by
  refine SchemaTree.address_eq_none_of_quote (ribStep_named name) rfl h
    (fun m hm kind hk => ?_) leaf
  obtain rfl : "ietf-routing" = m := Option.some.inj hm
  exact ⟨Option.some.inj (hk.symm.trans hS.rib), hS.ribKeyless⟩

theorem address_ribCall_eq_none (hS : RoutingSchema S) {rib : Rib} (h : quote ∈ rib.name.toList) :
    ∀ c ∈ ribCalls rib, S.address rootPlace c.1 = none := by
  intro c hc
  rw [ribCalls_eq] at hc
  obtain ⟨d, hd, rfl⟩ := List.mem_map.mp hc
  obtain ⟨e, -, rfl⟩ := List.mem_map.mp hd
  rw [below, SchemaTree.address_step (bareStep_named (by decide)) (bareStep_plain _),
    enter_ribs hS, Option.bind_some, below, address_rib_eq_none hS h]
  rfl

/-! The paths of all calls lead to leaves, if anywhere. -/

theorem covered_rib (hS : RoutingSchema S) (rib : Rib) :
    ∀ c ∈ ribCalls rib, S.Covered rootPlace c := by
  intro c hc
  by_cases hq : quote ∈ rib.name.toList
  · exact SchemaTree.covered_of_address_eq_none (address_ribCall_eq_none hS hq c hc)
  rw [ribCalls_eq] at hc
  obtain ⟨d, hd, rfl⟩ := List.mem_map.mp hc
  obtain ⟨e, he, rfl⟩ := List.mem_map.mp hd
  refine SchemaTree.covered_step (bareStep_named (by decide)) (bareStep_plain _) fun r hr => ?_
  rw [enter_ribs hS] at hr
  cases hr
  refine SchemaTree.covered_step (ribStep_named _) (ribStep_plain hq) fun r hr => ?_
  rw [enter_rib hS] at hr
  obtain ⟨w, -, rfl⟩ := Option.map_eq_some_iff.mp hr
  obtain ⟨typeAf, hkAf, -⟩ := hS.addressFamily
  obtain ⟨typePref, hkPref, -⟩ := hS.routePreference
  simp only [ribInner, List.mem_cons, List.mem_append, List.mem_map] at he
  rcases he with rfl | rfl | ⟨v, -, rfl⟩ | ⟨d, ⟨e, ⟨k, -, rfl⟩, rfl⟩, rfl⟩
  · exact SchemaTree.covered_name (p := ribPlace) (show PathText.IsIdent "name" by decide)
      hS.ribName rfl
  · exact SchemaTree.covered_name (p := ribPlace)
      (show PathText.IsIdent "address-family" by decide) hkAf rfl
  · exact SchemaTree.covered_name (p := ribPlace)
      (show PathText.IsIdent "description" by decide) hS.ribDescription rfl
  · refine SchemaTree.covered_step (bareStep_named (by decide)) (bareStep_plain _) fun r hr => ?_
    rw [enter_routes hS] at hr
    cases hr
    refine SchemaTree.covered_step (bareStep_named (by decide)) (bareStep_plain _) fun r hr => ?_
    rw [enter_route hS] at hr
    cases hr
    exact SchemaTree.covered_name (p := routePlace)
      (show PathText.IsIdent "route-preference" by decide) hkPref rfl

theorem covered_interfaceEntry (hS : RoutingSchema S) (v : String) :
    S.Covered rootPlace ("interfaces/interface", v) := by
  have hpath : "interfaces/interface" = (bareStep "interfaces").text ++ "/" ++ "interface" := by
    rw [text_bareStep]
    decide
  rw [hpath]
  refine SchemaTree.covered_step (bareStep_named (by decide)) (bareStep_plain _) fun r hr => ?_
  rw [enter_interfaces hS] at hr
  cases hr
  exact SchemaTree.covered_name (p := interfacesPlace) (by decide) hS.interface rfl

theorem covered_routerId (hS : RoutingSchema S) (v : String) :
    S.Covered rootPlace ("router-id", v) := by
  obtain ⟨type, hk⟩ := hS.routerId
  exact SchemaTree.covered_name (p := rootPlace) (by decide) hk rfl

/-! ### The tree -/

/-- What the calls for a rib but the one for its name insert into its instance. -/
def ribOps (S : SchemaTree) (rib : Rib) : List (List (Step (Option QName) String) × String) :=
  (ribInner rib).filterMap (S.effect ribPlace)

/-- The instance of a rib, as the decoder looks at it. -/
structure RibTree (S : SchemaTree) (rib : Rib) (n : LydNode) : Prop where
  label : n.label = some (rtName "rib")
  name : childValue n "name" = some rib.name
  addressFamily : childValue n "address-family" =
    (S.typeAt (ribPlace.child (rtName "address-family"))).bind (· rib.address_family)
  description : childValue n "description" = rib.description
  routes : entries n "routes" "route" = (preferences rib.routes).map fun k =>
    LydNode.inner (rtName "route") [LydNode.leaf (rtName "route-preference") k.toNat.repr]

/-- The tree of a routing model without control-plane protocols, as the decoder looks at it. -/
structure RoutingTree (S : SchemaTree) (r : Routing) (t : LydNode) : Prop where
  label : t.label = some (rtName "routing")
  routerId : childValue t "router-id" =
    r.router_id.bind fun id => (S.typeAt (rootPlace.child (rtName "router-id"))).bind (· id)
  interfaces : entries t "interfaces" "interface" =
    r.interfaces.map (LydNode.leaf (rtName "interface"))
  protocols : findChild t "control-plane-protocols" = none
  ribs : ∃ ns, (entries t "ribs" "rib").Perm ns ∧ List.Forall₂ (RibTree S) r.ribs ns

theorem ribOps_eq (hS : RoutingSchema S) {rib : Rib} {type : String → Option String} {w : String}
    (hk : S.kindAt (ribPlace.child (rtName "address-family")) = some (.leaf type))
    (hw : type rib.address_family = some w) (hdescription : ∀ d ∈ rib.description, YangText d) :
    ribOps S rib =
      ((some w).toList.map fun v => ([nodeStep (rtName "address-family")], v)) ++
        (rib.description.toList.map fun v => ([nodeStep (rtName "description")], v)) ++
        (((preferences rib.routes).map fun k => k.toNat.repr).map fun v =>
          ([routeEntry, nodeStep (rtName "route-preference")], v)).map
            (under (nodeStep (rtName "routes"))) := by
  have haf : S.effect ribPlace ("address-family", rib.address_family) =
      some ([nodeStep (rtName "address-family")], w) := by
    rw [SchemaTree.effect_name_eq (p := ribPlace) (by decide) hk rfl, hw]
    rfl
  have hdesc : (rib.description.toList.map fun d => ("description", d)).filterMap
      (S.effect ribPlace) =
        rib.description.toList.map fun v => ([nodeStep (rtName "description")], v) := by
    cases hd : rib.description with
    | none => rfl
    | some d =>
      refine List.filterMap_cons_some ?_
      rw [SchemaTree.effect_name_eq (p := ribPlace) (by decide) hS.ribDescription rfl,
        (hdescription d hd).yangString_eq]
      rfl
  have hprefs : ((preferences rib.routes).map fun p =>
      ("route-preference", p.toNat.repr)).filterMap (S.effect routePlace) =
        (preferences rib.routes).map fun k =>
          ([nodeStep (rtName "route-preference")], k.toNat.repr) := by
    induction preferences rib.routes with
    | nil => rfl
    | cons k ks ih =>
      rw [List.map_cons, List.filterMap_cons_some (effect_routePreference hS k), ih, List.map_cons]
  rw [ribOps, ribInner, List.filterMap_cons_some haf, List.filterMap_append, hdesc,
    SchemaTree.filterMap_below (bareStep_named (by decide)) (bareStep_plain _) (enter_routes hS),
    SchemaTree.filterMap_below (bareStep_named (by decide)) (bareStep_plain _) (enter_route hS),
    hprefs]
  simp [under, Function.comp_def]

/-- What a container holds. -/
theorem entries_of_perm {parent : LydNode} {cs ds : List LydNode} {container entry : String}
    {q : QName} (hp : parent.children.Perm cs)
    (hc : cs.filter (named container) = (LydNode.container q ds).toList) :
    entries parent container entry = ds.filter (named entry) := by
  rw [entries, LydNode.findChild_of_perm hp hc, LydNode.container]
  by_cases hds : ds = []
  · rw [if_pos hds, hds]
    rfl
  · rw [if_neg hds]
    rfl

/-- **The calls for a rib** are not in the way of each other. -/
theorem ribTree_of_attempts (hS : RoutingSchema S) {rib : Rib} {type : String → Option String}
    {w : String} (hk : S.kindAt (ribPlace.child (rtName "address-family")) = some (.leaf type))
    (hw : type rib.address_family = some w) (hdescription : ∀ d ∈ rib.description, YangText d) {bs}
    {ds : List LydNode}
    (ha : Attempts (ribOps S rib) bs [LydNode.leaf (rtName "name") rib.name] ds) :
    (∀ b ∈ bs, b = true) ∧ RibTree S rib (LydNode.inner (rtName "rib") ds) := by
  rw [ribOps_eq hS hk hw hdescription] at ha
  obtain ⟨bs', bs₃, ds₂, rfl, ha, ha₃⟩ := Attempts.append_inv ha
  obtain ⟨bs₁, bs₂, ds₁, rfl, ha₁, ha₂⟩ := Attempts.append_inv ha
  obtain ⟨hb₁, hp₁, hl₁⟩ := (LabelsIn.leaf (rtName "name") rib.name).attempts_leaf (by decide) ha₁
  obtain ⟨hb₂, hp₂, hl₂⟩ := hl₁.attempts_leaf (by decide) ha₂
  obtain ⟨es, hes, hp₃, -⟩ := hl₂.attempts_container (by decide) (by simp) ha₃
  obtain ⟨hb₃, hes⟩ := Attempts.always_create (s := routeEntry)
    (k := nodeStep (rtName "route-preference")) rfl rfl (by simp) hes
  -- all the children, in some order
  have hp := hp₃.trans (List.Perm.append_left _ (hp₂.trans (List.Perm.append_left _ hp₁)))
  refine ⟨fun b hb => ?_, rfl, ?_, ?_, ?_, ?_⟩
  · rcases List.mem_append.mp hb with hb | hb
    · rcases List.mem_append.mp hb with hb | hb
      · exact hb₁ b hb
      · exact hb₂ b hb
    · exact hb₃ b hb
  · refine LydNode.childValue_of_perm (q := rtName "name") (v := some rib.name) hp ?_
    simp [LydNode.filter_leaves, LydNode.filter_leaf, LydNode.filter_container, rtName]
  · rw [SchemaTree.typeAt, hk]
    refine LydNode.childValue_of_perm (q := rtName "address-family") hp ?_
    simp [LydNode.filter_leaves, LydNode.filter_leaf, LydNode.filter_container, rtName,
      Kind.type?, hw]
  · refine LydNode.childValue_of_perm (q := rtName "description") hp ?_
    simp [LydNode.filter_leaves, LydNode.filter_leaf, LydNode.filter_container, rtName]
  · have hentries : entries (LydNode.inner (rtName "rib") ds) "routes" "route" =
        es.filter (named "route") := entries_of_perm (q := rtName "routes") hp <| by
      simp [LydNode.filter_leaves, LydNode.filter_leaf, LydNode.filter_container, rtName]
    rw [hentries, hes, List.nil_append, List.map_map,
      LydNode.filter_of_label (q := rtName "route") (by simp [routeEntry]),
      if_pos (show (rtName "route").name = "route" from rfl)]
    rfl

/-- What the schema asks of a rib. -/
structure RibValid (S : SchemaTree) (rib : Rib) : Prop where
  name : Spellable rib.name
  addressFamily : ∃ type w, S.kindAt (ribPlace.child (rtName "address-family")) =
    some (.leaf type) ∧ type rib.address_family = some w
  description : ∀ d ∈ rib.description, YangText d

theorem filterMap_ribCalls (hS : RoutingSchema S) {rib : Rib} (hn : Spellable rib.name) :
    (ribCalls rib).filterMap (S.effect rootPlace) =
      ((([nodeStep (rtName "name")], rib.name) :: ribOps S rib).map
        (under (instanceStep (rtName "rib") (rtName "name") rib.name))).map
          (under (nodeStep (rtName "ribs"))) := by
  have hname : S.effect ribPlace ("name", rib.name) =
      some ([nodeStep (rtName "name")], rib.name) := by
    rw [SchemaTree.effect_name_eq (p := ribPlace) (by decide) hS.ribName rfl, hn.text.yangString_eq]
    rfl
  rw [ribCalls_eq, SchemaTree.filterMap_below (bareStep_named (by decide)) (bareStep_plain _)
    (enter_ribs hS), SchemaTree.filterMap_below (ribStep_named _) (ribStep_plain hn.quote)
    (enter_rib_of_yangText hS hn.text), List.filterMap_cons_some hname, ribOps]

/-- **Every call for a rib asks for an insertion** just if the rib is valid. -/
theorem ribValid_iff (hS : RoutingSchema S) {rib : Rib} :
    RibValid S rib ↔ ∀ c ∈ ribCalls rib, (S.effect rootPlace c).isSome := by
  -- seen from the instance, if there is one
  have heffect : quote ∉ rib.name.toList → ∀ c : String × String,
      (S.effect rootPlace (below (bareStep "ribs") (below (ribStep rib.name) c))).isSome ↔
        YangText rib.name ∧ (S.effect ribPlace c).isSome := by
    intro hn c
    rw [below, SchemaTree.effect_step (bareStep_named (by decide)) (bareStep_plain _),
      enter_ribs hS, Option.bind_some, below,
      SchemaTree.effect_step (ribStep_named _) (ribStep_plain hn), enter_rib hS, Option.isSome_map]
    by_cases htext : YangText rib.name
    · rw [htext.yangString_eq, Option.map_some, Option.bind_some, Option.isSome_map,
        and_iff_right htext]
    · rw [yangString_eq_none htext]
      exact iff_of_false Bool.false_ne_true fun h => htext h.1
  have hmem : ∀ c ∈ ("name", rib.name) :: ribInner rib,
      below (bareStep "ribs") (below (ribStep rib.name) c) ∈ ribCalls rib := fun c hc => by
    rw [ribCalls_eq]
    exact List.mem_map_of_mem (List.mem_map_of_mem hc)
  constructor
  · rintro ⟨hn, ⟨type, w, hk, hw⟩, hdescription⟩ c hc
    rw [ribCalls_eq] at hc
    obtain ⟨d, hd, rfl⟩ := List.mem_map.mp hc
    obtain ⟨e, he, rfl⟩ := List.mem_map.mp hd
    refine (heffect hn.quote e).mpr ⟨hn.text, ?_⟩
    simp only [ribInner, List.mem_cons, List.mem_append, List.mem_map] at he
    rcases he with rfl | rfl | ⟨v, hv, rfl⟩ | ⟨d, ⟨e, ⟨k, -, rfl⟩, rfl⟩, rfl⟩
    · rw [SchemaTree.effect_name_eq (p := ribPlace) (show PathText.IsIdent "name" by decide)
        hS.ribName rfl, Option.isSome_map, isSome_yangString]
      exact hn.text
    · rw [SchemaTree.effect_name_eq (p := ribPlace)
        (show PathText.IsIdent "address-family" by decide) hk rfl, hw]
      rfl
    · rw [SchemaTree.effect_name_eq (p := ribPlace) (show PathText.IsIdent "description" by decide)
        hS.ribDescription rfl, Option.isSome_map, isSome_yangString]
      exact hdescription v (Option.mem_toList.mp hv)
    · rw [below, SchemaTree.effect_step (bareStep_named (by decide)) (bareStep_plain _),
        enter_routes hS, Option.bind_some, below,
        SchemaTree.effect_step (bareStep_named (by decide)) (bareStep_plain _), enter_route hS,
        Option.bind_some, effect_routePreference hS]
      rfl
  · intro h
    have hn : quote ∉ rib.name.toList := fun hq => by
      have hc := hmem _ List.mem_cons_self
      have hsome := h _ hc
      rw [SchemaTree.effect, address_ribCall_eq_none hS hq _ hc] at hsome
      cases hsome
    have hinner : ∀ c ∈ ribInner rib, (S.effect ribPlace c).isSome := fun c hc =>
      ((heffect hn c).mp (h _ (hmem c (List.mem_cons_of_mem _ hc)))).2
    obtain ⟨type, hk, -⟩ := hS.addressFamily
    have hfamily := hinner ("address-family", rib.address_family) (by simp [ribInner])
    rw [SchemaTree.effect_name_eq (p := ribPlace) (by decide) hk rfl, Option.isSome_map] at hfamily
    obtain ⟨w, hw⟩ := Option.isSome_iff_exists.mp hfamily
    refine ⟨⟨hn, ((heffect hn _).mp (h _ (hmem _ List.mem_cons_self))).1⟩, ⟨type, w, hk, hw⟩,
      fun d hd => ?_⟩
    have hdescription := hinner ("description", d) (by simp [ribInner, Option.mem_def.mp hd])
    rwa [SchemaTree.effect_name_eq (p := ribPlace) (by decide) hS.ribDescription rfl,
      Option.isSome_map, isSome_yangString] at hdescription

/-- What carries the name of the key leaf of a rib is the key leaf. -/
theorem rib_name_eq (hS : RoutingSchema S) {rib : Rib} (hv : RibValid S rib) {bs}
    {ds : List LydNode}
    (ha : Attempts (ribOps S rib) bs [LydNode.leaf (rtName "name") rib.name] ds) {c : LydNode}
    (hc : c ∈ ds) (hl : c.label = some (rtName "name")) : c.value = some rib.name := by
  obtain ⟨type, w, hk, hw⟩ := hv.addressFamily
  rw [ribOps_eq hS hk hw hv.description] at ha
  rcases ha.reaches (.here hc) with hr | ⟨op, hop, hadds⟩
  · rw [DataTree.reaches_cons] at hr
    rcases hr with ⟨-, hv⟩ | ⟨ls, -, hr⟩ | hr
    · exact hv
    · exact absurd hr DataTree.not_reaches_nil
    · exact absurd hr DataTree.not_reaches_nil
  · simp only [List.mem_append, List.mem_map] at hop
    rw [hl] at hadds
    rcases hop with (⟨v, -, rfl⟩ | ⟨v, -, rfl⟩) | ⟨op', -, rfl⟩
    · exact absurd hadds.head (by decide)
    · exact absurd hadds.head (by decide)
    · exact absurd hadds.head (by decide)

/-- What the calls for a model without control-plane protocols ask to be inserted. -/
theorem filterMap_routingCalls (hS : RoutingSchema S) {r : Routing}
    (hcpp : r.control_plane_protocols = []) (hnames : ∀ n ∈ r.interfaces, YangText n)
    (hribs : ∀ rib ∈ r.ribs, RibValid S rib)
    {type : String → Option String}
    (hk : S.kindAt (rootPlace.child (rtName "router-id")) = some (.leaf type)) :
    (routingCalls r).filterMap (S.effect rootPlace) =
      ((r.router_id.bind type).toList.map fun v => ([nodeStep (rtName "router-id")], v)) ++
        (r.interfaces.map fun v => ([interfaceEntry], v)).map
          (under (nodeStep (rtName "interfaces"))) ++
        (r.ribs.flatMap fun rib => (([nodeStep (rtName "name")], rib.name) :: ribOps S rib).map
          (under (instanceStep (rtName "rib") (rtName "name") rib.name))).map
            (under (nodeStep (rtName "ribs"))) := by
  have hrouter : (r.router_id.toList.map fun id => ("router-id", id)).filterMap
      (S.effect rootPlace) =
        (r.router_id.bind type).toList.map fun v => ([nodeStep (rtName "router-id")], v) := by
    cases r.router_id with
    | none => rfl
    | some id =>
      have heff :=
        SchemaTree.effect_name_eq (p := rootPlace) (n := "router-id") (by decide) hk rfl id
      rw [Option.toList_some, List.map_singleton, Option.bind_some]
      cases hid : type id with
      | none => rw [List.filterMap_cons_none (by rw [heff, hid]; rfl)]; rfl
      | some w => rw [List.filterMap_cons_some (by rw [heff, hid]; rfl)]; rfl
  have hifs : (r.interfaces.map fun n => ("interfaces/interface", n)).filterMap
      (S.effect rootPlace) = (r.interfaces.map fun v => ([interfaceEntry], v)).map
        (under (nodeStep (rtName "interfaces"))) := by
    rw [List.filterMap_map, List.map_map, ← List.filterMap_eq_map]
    refine List.filterMap_congr fun v hv => ?_
    rw [Function.comp_apply, effect_interface hS, (hnames v hv).yangString_eq]
    rfl
  have hrib : (r.ribs.flatMap ribCalls).filterMap (S.effect rootPlace) =
      (r.ribs.flatMap fun rib => (([nodeStep (rtName "name")], rib.name) :: ribOps S rib).map
        (under (instanceStep (rtName "rib") (rtName "name") rib.name))).map
          (under (nodeStep (rtName "ribs"))) := by
    rw [List.filterMap_flatMap, List.map_flatMap]
    exact List.flatMap_congr fun rib h => filterMap_ribCalls hS (hribs rib h).name
  rw [routingCalls, hcpp, List.filterMap_append, List.filterMap_append, List.filterMap_append,
    hrouter, hifs, hrib, List.flatMap_nil, List.filterMap_nil, List.append_nil]

/-- The calls for ribs with different names: all succeed, and there is an entry for each rib. -/
theorem ribs_attempts (hS : RoutingSchema S) {ribs : List Rib}
    (hribs : ∀ rib ∈ ribs, RibValid S rib) (hdistinct : (ribs.map Rib.name).Nodup) {bs}
    {es : List LydNode}
    (h : Attempts (ribs.flatMap fun rib =>
      (([nodeStep (rtName "name")], rib.name) :: ribOps S rib).map
        (under (instanceStep (rtName "rib") (rtName "name") rib.name))) bs [] es) :
    (∀ b ∈ bs, b = true) ∧ ∃ ns, es.Perm ns ∧ List.Forall₂ (RibTree S) ribs ns := by
  -- the name leaf of an instance tells it from the instances of the other ribs
  have hsep : ribs.Pairwise fun rib rib' => ∀ bs ds,
      Attempts (ribOps S rib) bs
        (instanceStep (rtName "rib") (rtName "name") rib.name).keyLeaves ds →
      ¬ (instanceStep (rtName "rib") (rtName "name") rib'.name).Matches
        (.node (some (rtName "rib")) none ds) := by
    rw [List.Nodup, List.pairwise_map] at hdistinct
    refine hdistinct.imp_of_mem fun {rib rib'} hmem _ hne bs ds hds hm => ?_
    obtain ⟨c, hc, hl, hv⟩ := hm.2.2 (some (rtName "name"), rib'.name) (by simp [instanceStep])
    exact hne (Option.some.inj ((rib_name_eq hS (hribs rib hmem) hds hc hl).symm.trans hv))
  obtain ⟨ns, hperm, hall, hflags⟩ := Attempts.groups
    (s := fun rib : Rib => instanceStep (rtName "rib") (rtName "name") rib.name)
    (f := fun rib => ([nodeStep (rtName "name")], rib.name)) (r := ribOps S)
    (fun rib _ => ⟨rfl, by simp, occurs_instanceStep _ _ _⟩) hsep (by simp) h
  have hgroup : ∀ rib ∈ ribs, ∀ bs ds,
      Attempts (ribOps S rib) bs
        (instanceStep (rtName "rib") (rtName "name") rib.name).keyLeaves ds →
      (∀ b ∈ bs, b = true) ∧ RibTree S rib (LydNode.inner (rtName "rib") ds) := by
    intro rib hmem bs ds h
    obtain ⟨type, w, hk, hw⟩ := (hribs rib hmem).addressFamily
    exact ribTree_of_attempts hS hk hw (hribs rib hmem).description h
  rw [List.append_nil] at hperm
  refine ⟨hflags fun rib hmem bs ds h => (hgroup rib hmem bs ds h).1, ns, hperm, ?_⟩
  refine Traverse.forall₂_imp_left hall ?_
  rintro rib hmem n ⟨bs, ds, hn, h⟩
  rw [hn]
  exact (hgroup rib hmem bs ds h).2

/-- **The calls for a model without control-plane protocols** are not in the way of each other, and
the tree is what the decoder expects. -/
theorem routing_attempts (hS : RoutingSchema S) {r : Routing}
    (hcpp : r.control_plane_protocols = []) (hnames : ∀ n ∈ r.interfaces, YangText n)
    (hribs : ∀ rib ∈ r.ribs, RibValid S rib) (hdistinct : (r.ribs.map Rib.name).Nodup) {bs}
    {cs : List LydNode}
    (ha : Attempts ((routingCalls r).filterMap (S.effect rootPlace)) bs [] cs) :
    (∀ b ∈ bs, b = true) ∧ RoutingTree S r (LydNode.inner (rtName "routing") cs) := by
  obtain ⟨type, hk⟩ := hS.routerId
  rw [filterMap_routingCalls hS hcpp hnames hribs hk] at ha
  obtain ⟨bs', bs₃, cs₂, rfl, ha, ha₃⟩ := Attempts.append_inv ha
  obtain ⟨bs₁, bs₂, cs₁, rfl, ha₁, ha₂⟩ := Attempts.append_inv ha
  -- the three groups of calls, each below a child of its own
  have hl₀ : LabelsIn [] [] := LabelsIn.nil
  obtain ⟨hb₁, hp₁, hl₁⟩ := hl₀.attempts_leaf (q := rtName "router-id") (by simp) ha₁
  obtain ⟨ds, hds, hp₂, hl₂⟩ := hl₁.attempts_container (by decide) (by simp) ha₂
  obtain ⟨hb₂, hds⟩ := Attempts.always_leaf (s := interfaceEntry) rfl (by simp) hds
  have hpaths : ∀ op ∈ r.ribs.flatMap fun rib =>
      (([nodeStep (rtName "name")], rib.name) :: ribOps S rib).map
        (under (instanceStep (rtName "rib") (rtName "name") rib.name)), op.1 ≠ [] := by
    intro op hop
    obtain ⟨rib, -, hop⟩ := List.mem_flatMap.mp hop
    obtain ⟨op', -, rfl⟩ := List.mem_map.mp hop
    simp [under]
  obtain ⟨es, hes, hp₃, -⟩ := hl₂.attempts_container (by decide) hpaths ha₃
  obtain ⟨hb₃, ns, hperm, htrees⟩ := ribs_attempts hS hribs hdistinct hes
  have hlabel : ∀ n ∈ ns, n.label = some (rtName "rib") := fun n hn => by
    obtain ⟨rib, -, h⟩ := Traverse.exists_of_forall₂_right htrees n hn
    exact h.label
  -- all the children, in some order
  have hp := hp₃.trans (List.Perm.append_left _ (hp₂.trans (List.Perm.append_left _ hp₁)))
  rw [List.append_nil] at hp
  refine ⟨fun b hb => ?_, rfl, ?_, ?_, ?_, ?_⟩
  · rcases List.mem_append.mp hb with hb | hb
    · rcases List.mem_append.mp hb with hb | hb
      · exact hb₁ b hb
      · exact hb₂ b hb
    · exact hb₃ b hb
  · rw [SchemaTree.typeAt, hk]
    refine LydNode.childValue_of_perm (q := rtName "router-id") hp ?_
    simp [LydNode.filter_leaves, LydNode.filter_container, rtName, Kind.type?]
  · have hentries : entries (LydNode.inner (rtName "routing") cs) "interfaces" "interface" =
        ds.filter (named "interface") := entries_of_perm (q := rtName "interfaces") hp <| by
      simp [LydNode.filter_leaves, LydNode.filter_container, rtName]
    rw [hentries, hds, List.nil_append]
    exact (LydNode.filter_leaves (rtName "interface") r.interfaces "interface").trans (if_pos rfl)
  · refine LydNode.findChild_of_perm (c := none) hp ?_
    simp [LydNode.filter_leaves, LydNode.filter_container, rtName]
  · refine ⟨ns, ?_, htrees⟩
    have hentries : entries (LydNode.inner (rtName "routing") cs) "ribs" "rib" =
        es.filter (named "rib") := entries_of_perm (q := rtName "ribs") hp <| by
      simp [LydNode.filter_leaves, LydNode.filter_container, rtName]
    have hf := hperm.filter (named "rib")
    rw [LydNode.filter_of_label hlabel,
      if_pos (show (rtName "rib").name = "rib" from rfl)] at hf
    rwa [hentries]

end Effects

end StelleriYang

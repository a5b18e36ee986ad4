import StelleriYang.InterfacesMerge
import StelleriYang.Lib.Interleaved
import StelleriYang.RoutingRoundTrip

/-!
# Routing: every outcome of encoding, and what is read back

`IetfRouting::serialize` on any model at all. It returns a tree exactly if there are no
control-plane protocols, the router id, the names and the address families are values of their
types, and no two ribs share a name; otherwise it throws. What the decoder makes of the tree is
what the model says, but for the address families, from which the module is stripped, the routes,
of which those with a preference are left, and interfaces that are named twice.

## Main definitions

* `SchemaTree.NotInLists` — no list with keys holds a node of a name
* `ribReadBack`, `RoutingReadBack` — what is read back
* `RoutingCycle` — encoding and decoding

## Main results

* `serialize_protocols_error` — any control-plane protocol makes `serialize` throw
* `serialize_routing_cases` — every outcome
* `routingCycle_iff`, `routing_cycles_stable` — one cycle, and further ones
-/

namespace StelleriYang

open DataTree (Tree Step Attempts occurs under)
open FirstOccurrence (appendAllNew)
open LydNode (named findChild childrenNamed childValue)
open PathText (quote)
open Routing

/-! ### Paths with apostrophes -/

namespace SchemaTree

/-- No node of this name lies in a list with keys below `p`. -/
def NotInLists (S : SchemaTree) (p : Place) (name : String) : Prop :=
  ∀ q tl ks, S.kind (p.path ++ q :: tl) = some (.list ks) → ks ≠ [] →
    ∀ tl' r, (S.kind (p.path ++ q :: tl ++ tl' ++ [r])).isSome → r.name ≠ name

variable {S : SchemaTree}

/-- **A path to such a node has no predicates.** -/
theorem NotInLists.predCount_eq_zero {name : String} : ∀ {front : List PathText.Step} {p : Place}
    {a}, S.NotInLists p name → S.resolve p (front ++ [⟨none, name, []⟩]) = some a →
    PathText.predCount (front ++ [⟨none, name, []⟩]) = 0 := by
  intro front
  induction front with
  | nil => intro p a _ _; rfl
  | cons s front ih =>
    intro p a hp ha
    obtain ⟨r, b, he, hb, -⟩ := resolve_cons_eq_some_iff.mp ha
    obtain ⟨m, kind, keys, -, hk, hkeys, rfl⟩ := enter_eq_some_iff.mp he
    rcases preds_of_keyLeaves hkeys with hnil | ⟨ks, rfl, hks, -⟩
    · have hbelow : S.NotInLists (p.child ⟨m, s.name⟩) name := fun q tl ks h hks tl' r h' =>
        hp ⟨m, s.name⟩ (q :: tl) ks (by simpa using h) hks tl' r (by simpa using h')
      have hrest := ih hbelow hb
      simpa [PathText.predCount, hnil] using hrest
    · obtain ⟨tl, m', hsome⟩ := kind_of_resolve_concat hb
      exact absurd rfl (hp ⟨m, s.name⟩ [] ks hk hks tl ⟨m', name⟩ (by simpa using hsome))

end SchemaTree

section Protocols

variable {S : SchemaTree} {lyd_new_path : NewPath LydNode} {r : Routing}

/-- **An apostrophe in a key of a control-plane protocol** keeps the first call for it from
spelling a path. -/
theorem address_protocol_eq_none (hS : RoutingSchema S)
    (hP : S.NotInLists protocolPlace "type") {type name : String}
    (h : quote ∈ type.toList ∨ quote ∈ name.toList) :
    S.address protocolsPlace ((protocolStep type name).text ++ "/" ++ "type") = none := by
  refine Option.eq_none_iff_forall_ne_some.mpr fun a ha => ?_
  obtain ⟨steps, hparse, hres⟩ := Option.bind_eq_some_iff.mp ha
  have hnamed := protocolStep_named type name
  have hcount := PathText.count_quote_of_parse hparse
  rw [String.toList_append, String.toList_append, List.count_append, List.count_append,
    PathText.Step.count_quote_text hnamed, show "/".toList.count quote = 0 by decide,
    show "type".toList.count quote = 0 by decide] at hcount
  obtain ⟨front, hfront⟩ := PathText.parse_slash_name (by decide) hparse
  rw [String.append_assoc] at hparse
  obtain ⟨ps, rest, rfl⟩ := PathText.head_of_parse hnamed hparse
  obtain ⟨r, b, he, hb, -⟩ := SchemaTree.resolve_cons_eq_some_iff.mp hres
  obtain ⟨m, kind, keys, hm, hk, hkeys, rfl⟩ := SchemaTree.enter_eq_some_iff.mp he
  obtain rfl : "ietf-routing" = m := Option.some.inj hm
  obtain rfl : Kind.list ["type", "name"] = kind := Option.some.inj (hS.protocol.symm.trans hk)
  have hlen : ps.length = 2 := by
    by_contra hne
    simp [SchemaTree.keyLeaves, hne] at hkeys
  -- the apostrophes of the keys are those of predicates further on
  have hrest : PathText.predCount rest ≠ 0 := by
    have hpos : 0 < type.toList.count quote + name.toList.count quote := by
      rcases h with h | h
      · exact Nat.add_pos_left (List.count_pos_iff.mpr h) _
      · exact Nat.add_pos_right _ (List.count_pos_iff.mpr h)
    simp only [PathText.predCount, List.map_cons, List.sum_cons, protocolStep, List.map_nil,
      List.sum_nil, List.length_cons, List.length_nil, hlen] at hcount ⊢
    omega
  cases front with
  | nil =>
    obtain ⟨-, rfl⟩ := List.cons.inj hfront
    exact hrest rfl
  | cons s front =>
    obtain ⟨-, rfl⟩ := List.cons.inj hfront
    exact hrest (SchemaTree.NotInLists.predCount_eq_zero hP hb)

/-- There is no step to an instance one of whose keys is no value of its type. -/
theorem enter_protocol_eq_none (hS : RoutingSchema S) {typeOf : String → Option String}
    (hk : S.kindAt (protocolPlace.child (rtName "type")) = some (.leaf typeOf)) {type name : String}
    (h : typeOf type = none ∨ ¬ YangText name) :
    S.enter protocolsPlace (protocolStep type name) = none := by
  have htype : S.typeAt (protocolPlace.child ⟨"ietf-routing", "type"⟩) = some typeOf := by
    rw [SchemaTree.typeAt, show S.kindAt (protocolPlace.child ⟨"ietf-routing", "type"⟩) = _ from hk]
    rfl
  have hname : S.typeAt (protocolPlace.child ⟨"ietf-routing", "name"⟩) = some yangString := by
    rw [SchemaTree.typeAt, show S.kindAt (protocolPlace.child ⟨"ietf-routing", "name"⟩) = _ from
      hS.protocolName]
    rfl
  have hkeys : S.keyLeaves protocolPlace [("type", type), ("name", name)]
      (.list ["type", "name"]) = none := by
    rcases h with h | h
    · have hkey : S.keyLeaf protocolPlace [("type", type), ("name", name)] "type" = none := by
        simp [SchemaTree.keyLeaf, htype, h, show protocolPlace.module = "ietf-routing" from rfl]
      simp [SchemaTree.keyLeaves, hkey]
    · have hkey : S.keyLeaf protocolPlace [("type", type), ("name", name)] "name" = none := by
        simp [SchemaTree.keyLeaf, hname, show protocolPlace.module = "ietf-routing" from rfl,
          List.lookup_cons, yangString_eq_none h]
      simp [SchemaTree.keyLeaves, hkey]
  rw [SchemaTree.enter_eq (p := protocolsPlace) (s := protocolStep type name) rfl hS.protocol]
  exact Option.map_eq_none_iff.mpr hkeys

/-- **The two calls for the keys** of a control-plane protocol: the first spells no path, or both
ask for a node below one instance. -/
theorem keyCalls_cases (hS : RoutingSchema S) (hP : S.NotInLists protocolPlace "type")
    (p : ControlPlaneProtocol) :
    S.address rootPlace (controlPlaneProtocolPath p.type p.name ++ "/type") = none ∨
      ∃ w, (keyCalls p).map (S.effect rootPlace) =
        [some ([nodeStep (rtName "control-plane-protocols"), protocolInstance w p.name,
            nodeStep (rtName "type")], w),
          some ([nodeStep (rtName "control-plane-protocols"), protocolInstance w p.name,
            nodeStep (rtName "name")], p.name)] := by
  have haddress : ∀ leaf, S.address rootPlace (controlPlaneProtocolPath p.type p.name ++
      ("/" ++ leaf)) = (S.address protocolsPlace
        ((protocolStep p.type p.name).text ++ "/" ++ leaf)).map fun a =>
          (nodeStep (rtName "control-plane-protocols") :: a.1, a.2) := by
    intro leaf
    rw [controlPlaneProtocolPath_eq, SchemaTree.address_step (bareStep_named (by decide))
      (bareStep_plain _), enter_protocols hS, Option.bind_some]
  have htype : "/type" = "/" ++ "type" := by decide
  by_cases hquote : quote ∈ p.type.toList ∨ quote ∈ p.name.toList
  · left
    rw [htype, haddress, address_protocol_eq_none hS hP hquote]
    rfl
  obtain ⟨ht, hn⟩ := not_or.mp hquote
  obtain ⟨type, hk⟩ := hS.protocolType
  have hnone : S.enter protocolsPlace (protocolStep p.type p.name) = none →
      S.address rootPlace (controlPlaneProtocolPath p.type p.name ++ "/type") = none := by
    intro henter
    rw [htype, haddress, SchemaTree.address_step (protocolStep_named _ _)
      (protocolStep_plain ht hn), henter]
    rfl
  by_cases htext : YangText p.name
  swap
  · exact .inl (hnone (enter_protocol_eq_none hS hk (.inr htext)))
  cases hw : type p.type with
  | none => exact .inl (hnone (enter_protocol_eq_none hS hk (.inl hw)))
  | some w =>
    right
    have heffect : ∀ leaf v : String,
        S.effect rootPlace (controlPlaneProtocolPath p.type p.name ++ ("/" ++ leaf), v) =
          ((S.effect protocolPlace (leaf, v)).map (under (protocolInstance w p.name))).map
            (under (nodeStep (rtName "control-plane-protocols"))) := by
      intro leaf v
      rw [controlPlaneProtocolPath_eq, SchemaTree.effect_step (bareStep_named (by decide))
        (bareStep_plain _), enter_protocols hS, Option.bind_some,
        SchemaTree.effect_step (protocolStep_named _ _) (protocolStep_plain ht hn),
        enter_protocol hS hk hw htext, Option.bind_some]
    refine ⟨w, ?_⟩
    rw [keyCalls, List.map_cons, List.map_singleton, htype, heffect,
      show "/name" = "/" ++ "name" by decide, heffect,
      SchemaTree.effect_name_eq (p := protocolPlace) (show PathText.IsIdent "type" by decide) hk
        rfl, hw,
      SchemaTree.effect_name_eq (p := protocolPlace) (show PathText.IsIdent "name" by decide)
        hS.protocolName rfl, htext.yangString_eq]
    rfl

/-- **Any control-plane protocol makes `serialize` throw.** -/
theorem serialize_protocols_error (hS : RoutingSchema S)
    (hP : S.NotInLists protocolPlace "type") (h : NewPath.Lawful S lyd_new_path)
    (hnul : r.NulFree) (hcpp : r.control_plane_protocols ≠ []) :
    (IetfRouting.mk r).serialize lyd_new_path = .error .yangDataError := by
  obtain ⟨p, ps, hps⟩ := List.exists_cons_of_ne_nil hcpp
  obtain ⟨rest, hcalls⟩ := exists_routingCalls_eq hps
  have hearlier : ∀ c ∈ earlierCalls r, S.Covered rootPlace c := by
    intro c hc
    simp only [earlierCalls, List.mem_append, List.mem_map] at hc
    rcases hc with ⟨id, -, rfl⟩ | ⟨v, -, rfl⟩
    · exact covered_routerId hS id
    · exact covered_interfaceEntry hS v
  -- some first calls cannot all succeed
  obtain ⟨first, rest, hsplit, hcovered, hfail⟩ : ∃ first rest, routingCalls r = first ++ rest ∧
      (∀ c ∈ first, S.Covered rootPlace c) ∧
      ∀ ops bs cs, first.mapM (S.effect rootPlace) = some ops → Attempts ops bs [] cs →
        ¬ ∀ b ∈ bs, b = true := by
    rcases keyCalls_cases hS hP p with hnone | ⟨w, heffects⟩
    · refine ⟨earlierCalls r ++
          [(controlPlaneProtocolPath p.type p.name ++ "/type", p.type)],
        (controlPlaneProtocolPath p.type p.name ++ "/name", p.name) :: rest, ?_, ?_, ?_⟩
      · rw [hcalls, keyCalls, List.append_assoc, List.append_assoc]
        rfl
      · intro c hc
        rcases List.mem_append.mp hc with hc | hc
        · exact hearlier c hc
        · obtain rfl := List.mem_singleton.mp hc
          exact SchemaTree.covered_of_address_eq_none hnone
      · intro ops bs cs hm _ _
        have hsome := (Traverse.mapM_eq_some_iff.mp hm).1
          (controlPlaneProtocolPath p.type p.name ++ "/type", p.type) (by simp)
        rw [SchemaTree.effect, hnone] at hsome
        cases hsome
    · simp only [keyCalls, List.map_cons, List.map_nil, List.cons.injEq, and_true] at heffects
      obtain ⟨htype, hname⟩ := heffects
      refine ⟨earlierCalls r ++ keyCalls p, rest, hcalls, ?_, ?_⟩
      · intro c hc
        rcases List.mem_append.mp hc with hc | hc
        · exact hearlier c hc
        · simp only [keyCalls, List.mem_cons, List.not_mem_nil, or_false] at hc
          rcases hc with rfl | rfl
          · exact SchemaTree.covered_of_effect htype
          · exact SchemaTree.covered_of_effect hname
      · intro ops bs cs hm ha hb
        obtain ⟨-, rfl⟩ := Traverse.mapM_eq_some_iff.mp hm
        rw [List.filterMap_append] at ha
        obtain ⟨bs₁, bs₂, ds, rfl, -, ha⟩ := Attempts.append_inv ha
        rw [keyCalls, List.filterMap_cons_some htype, List.filterMap_cons_some hname] at ha
        exact not_attempts_keys ha fun b hmem => hb b (List.mem_append_right _ hmem)
  have hwhole : ∀ c ∈ first, WholeCall c := fun c hc =>
    hnul.wholeCall c (hsplit ▸ List.mem_append_left rest hc)
  rw [serialize_root hS h, hsplit, checkAll_append]
  rcases checkAll_cases h (t := LydNode.inner (rtName "routing") []) rfl hwhole hcovered with
    ⟨ops, bs, cs, hm, ha, hb, -⟩ | hrun
  · exact absurd hb (hfail ops bs cs hm ha)
  · rw [hrun]
    rfl

end Protocols

/-! ### Every outcome -/

section Outcomes

variable {S : SchemaTree} {lyd_new_path : NewPath LydNode}

/-- **Where no call fails, no two ribs share a name.** -/
theorem ribNames_nodup_of_attempts {ribs : List Rib} {bs} {es : List LydNode}
    (h : Attempts (ribs.flatMap fun rib =>
      (([nodeStep (rtName "name")], rib.name) :: ribOps S rib).map
        (under (instanceStep (rtName "rib") (rtName "name") rib.name))) bs [] es)
    (hall : ∀ b ∈ bs, b = true) : (ribs.map Rib.name).Nodup := by
  obtain ⟨-, hpair⟩ := Attempts.distinct
    (s := fun rib : Rib => instanceStep (rtName "rib") (rtName "name") rib.name)
    (f := fun rib => (some (rtName "name"), rib.name)) (r := ribOps S)
    (fun rib _ => ⟨rfl, by simp [instanceStep]⟩) h hall
  rw [List.Nodup, List.pairwise_map]
  exact hpair.imp fun hne heq => hne (by rw [heq])

/-- The calls for a model without control-plane protocols ask for nodes of the schema, or for
none. -/
theorem covered_routingCalls (hS : RoutingSchema S) {r : Routing}
    (hcpp : r.control_plane_protocols = []) : ∀ c ∈ routingCalls r, S.Covered rootPlace c := by
  intro c hc
  simp only [routingCalls, hcpp, List.flatMap_nil, List.append_nil, List.mem_append,
    List.mem_map, Option.mem_toList, List.mem_flatMap] at hc
  rcases hc with (⟨id, -, rfl⟩ | ⟨v, -, rfl⟩) | ⟨rib, -, hc⟩
  · exact covered_routerId hS id
  · exact covered_interfaceEntry hS v
  · exact covered_rib hS rib c hc

/-- **If no call fails, the model is acceptable.** -/
theorem acceptable_of_attempts (hS : RoutingSchema S) {r : Routing}
    (hcpp : r.control_plane_protocols = [])
    (heffects : ∀ c ∈ routingCalls r, (S.effect rootPlace c).isSome) {bs} {cs : List LydNode}
    (ha : Attempts ((routingCalls r).filterMap (S.effect rootPlace)) bs [] cs)
    (hall : ∀ b ∈ bs, b = true) : RoutingAcceptable S r := by
  have hribs : ∀ rib ∈ r.ribs, RibValid S rib := fun rib hrib =>
    (ribValid_iff hS).mpr fun c hc => heffects c <| by
      rw [routingCalls]
      exact List.mem_append_right _ (List.mem_flatMap.mpr ⟨rib, hrib, hc⟩)
  have hinterfaces : ∀ n ∈ r.interfaces, YangText n := fun n hn => by
    have hsome := heffects ("interfaces/interface", n) (by simp [routingCalls, hn])
    rwa [effect_interface hS n, Option.isSome_map, isSome_yangString] at hsome
  obtain ⟨type, hk⟩ := hS.routerId
  have hrouter : ∀ id, r.router_id = some id →
      ∃ type w, S.kindAt (rootPlace.child (rtName "router-id")) = some (.leaf type) ∧
        type id = some w := by
    intro id hid
    have hsome := heffects ("router-id", id) (by simp [routingCalls, hid])
    have heffect : S.effect rootPlace ("router-id", id) = _ :=
      SchemaTree.effect_name_eq (p := rootPlace) (show PathText.IsIdent "router-id" by decide)
        hk rfl id
    rw [heffect, Option.isSome_map] at hsome
    obtain ⟨w, hw⟩ := Option.isSome_iff_exists.mp hsome
    exact ⟨type, w, hk, hw⟩
  have hnames : (r.ribs.map Rib.name).Nodup := by
    rw [filterMap_routingCalls hS hcpp hinterfaces hribs hk] at ha
    obtain ⟨bs', bs₃, cs₂, rfl, ha', ha₃⟩ := Attempts.append_inv ha
    obtain ⟨bs₁, bs₂, cs₁, rfl, ha₁, ha₂⟩ := Attempts.append_inv ha'
    have hl₀ : LabelsIn [] [] := LabelsIn.nil
    obtain ⟨-, -, hl₁⟩ := hl₀.attempts_leaf (q := rtName "router-id") (by simp) ha₁
    obtain ⟨-, -, -, hl₂⟩ := hl₁.attempts_container (by decide) (by simp) ha₂
    have hpaths : ∀ op ∈ r.ribs.flatMap fun rib =>
        (([nodeStep (rtName "name")], rib.name) :: ribOps S rib).map
          (under (instanceStep (rtName "rib") (rtName "name") rib.name)), op.1 ≠ [] := by
      intro op hop
      obtain ⟨rib, -, hop⟩ := List.mem_flatMap.mp hop
      obtain ⟨op', -, rfl⟩ := List.mem_map.mp hop
      simp [under]
    obtain ⟨es, hes, -, -⟩ := hl₂.attempts_container (by decide) hpaths ha₃
    exact ribNames_nodup_of_attempts hes fun b hb => hall b (List.mem_append_right _ hb)
  exact ⟨hrouter, hinterfaces, by simp [hcpp], by simp [hcpp], hribs, hnames⟩

/-- **A model that is not acceptable makes `serialize` throw.** -/
theorem serialize_error_of_not (hS : RoutingSchema S) (hP : S.NotInLists protocolPlace "type")
    (h : NewPath.Lawful S lyd_new_path) {r : Routing} (hnul : r.NulFree)
    (hbad : ¬ (r.control_plane_protocols = [] ∧ RoutingAcceptable S r)) :
    (IetfRouting.mk r).serialize lyd_new_path = .error .yangDataError := by
  by_cases hcpp : r.control_plane_protocols = []
  swap
  · exact serialize_protocols_error hS hP h hnul hcpp
  rw [serialize_root hS h]
  rcases checkAll_cases h (t := LydNode.inner (rtName "routing") []) rfl hnul.wholeCall
      (covered_routingCalls hS hcpp) with ⟨ops, bs, cs, hm, ha, hall, -⟩ | hrun
  · obtain ⟨heffects, rfl⟩ := Traverse.mapM_eq_some_iff.mp hm
    exact absurd ⟨hcpp, acceptable_of_attempts hS hcpp heffects ha hall⟩ hbad
  · exact hrun

/-- A tree is returned of an acceptable model only. -/
theorem acceptable_of_serialize (hS : RoutingSchema S) (hP : S.NotInLists protocolPlace "type")
    (h : NewPath.Lawful S lyd_new_path) {r : Routing} (hnul : r.NulFree) {t : LydNode}
    (hrun : (IetfRouting.mk r).serialize lyd_new_path = .ok (some t)) :
    (r.control_plane_protocols = [] ∧ RoutingAcceptable S r) ∧ RoutingTree S r t := by
  by_cases hgood : r.control_plane_protocols = [] ∧ RoutingAcceptable S r
  · obtain ⟨t', hok, ht⟩ := serialize_routingTree hS h hnul hgood.2 hgood.1
    cases hrun.symm.trans hok
    exact ⟨hgood, ht⟩
  · cases hrun.symm.trans (serialize_error_of_not hS hP h hnul hgood)

/-- **Every outcome of `serialize`** on a model whose texts hold no NULs, in any schema with the
nodes the encoder writes to, in which no list with keys below a control-plane protocol holds a node
called `type`: a complete tree, of an acceptable model without control-plane protocols, and
otherwise an exception. -/
theorem serialize_routing_cases (hS : RoutingSchema S) (hP : S.NotInLists protocolPlace "type")
    (h : NewPath.Lawful S lyd_new_path) {r : Routing} (hnul : r.NulFree) :
    ((r.control_plane_protocols = [] ∧ RoutingAcceptable S r) ∧
      ∃ t, (IetfRouting.mk r).serialize lyd_new_path = .ok (some t) ∧ RoutingTree S r t) ∨
    (¬ (r.control_plane_protocols = [] ∧ RoutingAcceptable S r) ∧
      (IetfRouting.mk r).serialize lyd_new_path = .error .yangDataError) := by
  by_cases hgood : r.control_plane_protocols = [] ∧ RoutingAcceptable S r
  · exact Or.inl ⟨hgood, serialize_routingTree hS h hnul hgood.2 hgood.1⟩
  · exact Or.inr ⟨hgood, serialize_error_of_not hS hP h hnul hgood⟩

end Outcomes

theorem Reference.protocolNotInLists : Reference.schema.NotInLists protocolPlace "type" :=
  fun q tl ks hk hks => absurd (Reference.keylessBelow (by decide) q tl ks hk) hks

/-- Two ribs of one name, next to a control-plane protocol whose name holds an apostrophe. -/
def twinRibs : Routing :=
  { control_plane_protocols := [{ type := "static", name := "it's" }]
    ribs := [{ name := "main", address_family := "ipv4" }, { name := "main" }] }

theorem serialize_routing_cases_twinRibs :
    ((twinRibs.control_plane_protocols = [] ∧ RoutingAcceptable Reference.schema twinRibs) ∧
      ∃ t, (IetfRouting.mk twinRibs).serialize (Reference.newPath Reference.schema) =
        .ok (some t) ∧ RoutingTree Reference.schema twinRibs t) ∨
    (¬ (twinRibs.control_plane_protocols = [] ∧ RoutingAcceptable Reference.schema twinRibs) ∧
      (IetfRouting.mk twinRibs).serialize (Reference.newPath Reference.schema) =
        .error .yangDataError) :=
  serialize_routing_cases Reference.routingSchema Reference.protocolNotInLists
    (Reference.newPath_lawful _) (by decide : twinRibs.NulFree)

/-! ### What is read back -/

/-- The router id that is read back. -/
def routerIdReadBack (S : SchemaTree) (r : Routing) : Option String :=
  r.router_id.bind fun id => (S.typeAt (rootPlace.child (rtName "router-id"))).bind (· id)

/-- The address family that is read back: the identity, without its module. -/
def familyReadBack (S : SchemaTree) (family : String) : String :=
  (((S.typeAt (ribPlace.child (rtName "address-family"))).bind (· family)).map
    stripIdentityPrefix).getD ""

/-- The rib that is read back: of its routes those with a preference, and that alone. -/
def ribReadBack (S : SchemaTree) (rib : Rib) : Rib :=
  { name := rib.name
    address_family := familyReadBack S rib.address_family
    description := rib.description
    routes := (preferences rib.routes).map fun k => { route_preference := some k } }

/-- `s` is read back of `r`, where `its` were read of the interfaces next to it. -/
structure RoutingReadBack (S : SchemaTree) (r : Routing) (its : List IetfInterface)
    (s : Routing) : Prop where
  router_id : s.router_id = routerIdReadBack S r
  interfaces : s.interfaces = appendAllNew (its.map IetfInterface.name) r.interfaces
  interfaces_info : s.interfaces_info = its
  control_plane_protocols : s.control_plane_protocols = []
  ribs : s.ribs.Perm (r.ribs.map (ribReadBack S))

section ReadBack

variable {S : SchemaTree} {lyd_new_path : NewPath LydNode} {lyd_find_path : FindPath}
  {r : Routing} {t : LydNode}

theorem RibTree.readRib_eq {rib : Rib} {n : LydNode} (h : RibTree S rib n) :
    readRib n = .ok (ribReadBack S rib) := by
  rw [readRib, h.routes, mapM_readRoute, h.name, h.addressFamily, h.description]
  rfl

/-- **What is read of the tree of a model.** -/
theorem RoutingTree.readRouting_ok (ht : RoutingTree S r t) (ifs_model : IetfInterfaces) :
    ∃ m, readRouting ifs_model t = .ok m ∧ RoutingReadBack S r ifs_model.ifs_ m.routing_ := by
  obtain ⟨ns, hperm, hall⟩ := ht.ribs
  have hnames : (entries t "interfaces" "interface").filterMap DataTree.Tree.value =
      r.interfaces := by
    rw [ht.interfaces, List.filterMap_map]
    exact List.filterMap_some
  have hcpps : entries t "control-plane-protocols" "control-plane-protocol" = [] := by
    rw [entries, ht.protocols]
  obtain ⟨ys, hys, hreadBack⟩ := Traverse.exists_mapM_of_forall₂ hall
    (P := fun rib y => y = ribReadBack S rib) fun rib _ n hn => ⟨_, hn.readRib_eq, rfl⟩
  obtain ⟨ys', hys', hp⟩ := Traverse.exists_mapM_of_perm hperm hys
  have hribs : ys = r.ribs.map (ribReadBack S) := by
    rw [← List.forall₂_eq_eq_eq, List.forall₂_map_right_iff]
    exact hreadBack.flip
  obtain ⟨m, hread, hm⟩ : ∃ m, readRouting ifs_model t = .ok m ∧ m.routing_ =
      { router_id := childValue t "router-id"
        interfaces := appendAllNew (ifs_model.ifs_.map IetfInterface.name) r.interfaces
        interfaces_info := ifs_model.ifs_
        ribs := ys' } :=
    ⟨_, by rw [readRouting, hcpps, hys', hnames, appendName_eq]; rfl, rfl⟩
  refine ⟨m, hread, ?_⟩
  rw [hm]
  exact ⟨ht.routerId, rfl, rfl, rfl, hribs ▸ hp⟩

end ReadBack

/-! ### Cycles -/

/-- A cycle of encoding and decoding. -/
def RoutingCycle (lyd_new_path : NewPath LydNode) (lyd_find_path : FindPath) (r s : Routing) :
    Prop :=
  ∃ t, (IetfRouting.mk r).serialize lyd_new_path = .ok (some t) ∧
    IetfRouting.deserialize lyd_find_path [t] (some t) = .ok ⟨s⟩

/-- `u` is `s`, but for the order of the ribs. -/
def SameButOrder (s u : Routing) : Prop := ∃ ribs, ribs.Perm s.ribs ∧ u = { s with ribs }

/-- An address family that the schema takes. -/
def FamilyAccepted (S : SchemaTree) (family : String) : Prop :=
  ((S.typeAt (ribPlace.child (rtName "address-family"))).bind (· family)).isSome

instance (S : SchemaTree) (family : String) : Decidable (FamilyAccepted S family) :=
  inferInstanceAs (Decidable (Option.isSome _ = true))

/-- What the types of two leaves are like: the canonical form of a router id is its own canonical
form, and holds no NULs, and the name of an address family has no colon. -/
structure RoutingTypes (S : SchemaTree) : Prop where
  routerId : ∀ type, S.typeAt (rootPlace.child (rtName "router-id")) = some type → Canonical type
  routerIdText : ∀ type, S.typeAt (rootPlace.child (rtName "router-id")) = some type →
    ∀ v w, type v = some w → Text.NulFree w
  family : ∀ type, S.typeAt (ribPlace.child (rtName "address-family")) = some type →
    ∀ v w, type v = some w → ':' ∉ (stripIdentityPrefix w).toList

section Cycles

variable {S : SchemaTree} {lyd_new_path : NewPath LydNode} {lyd_find_path : FindPath}
  {r s u : Routing} {its its' : List IetfInterface}

theorem deserialize_routingTree (hf : FindPath.Lawful lyd_find_path) {t : LydNode}
    (ht : RoutingTree S r t) : ∃ m, IetfRouting.deserialize lyd_find_path [t] (some t) = .ok m ∧
      RoutingReadBack S r [] m.routing_ := by
  have hmissing : matched (lyd_find_path [t] "/ietf-interfaces:interfaces") = none :=
    (hf.matched_eq (q := ⟨"ietf-interfaces", "interfaces"⟩)
      (show PathText.IsIdent "ietf-interfaces" by decide) [t]).trans (by simp [ht.label, rtName])
  have hinfo : readInterfacesInfo lyd_find_path [t] = .ok {} := by
    rw [readInterfacesInfo, hmissing]
  have hroot : findRouting lyd_find_path [t] t = some t := by
    rw [findRouting, if_pos (LydNode.named_iff.mpr ⟨_, ht.label⟩)]
  obtain ⟨m, hread, hm⟩ := ht.readRouting_ok {}
  refine ⟨m, ?_, hm⟩
  simp only [IetfRouting.deserialize, hinfo, hroot, bind, Except.bind]
  exact hread

/-- A cycle succeeds where `serialize` does. -/
theorem exists_routingCycle (hS : RoutingSchema S) (h : NewPath.Lawful S lyd_new_path)
    (hf : FindPath.Lawful lyd_find_path) (hnul : r.NulFree)
    (hgood : r.control_plane_protocols = [] ∧ RoutingAcceptable S r) :
    ∃ s, RoutingCycle lyd_new_path lyd_find_path r s := by
  obtain ⟨t, hok, ht⟩ := serialize_routingTree hS h hnul hgood.2 hgood.1
  obtain ⟨⟨s⟩, hread, -⟩ := deserialize_routingTree hf ht
  exact ⟨s, t, hok, hread⟩

/-- **What a cycle says** about the model it starts from and the one it leaves. -/
theorem RoutingCycle.readBack (hS : RoutingSchema S) (hP : S.NotInLists protocolPlace "type")
    (h : NewPath.Lawful S lyd_new_path) (hf : FindPath.Lawful lyd_find_path) (hnul : r.NulFree)
    (hcycle : RoutingCycle lyd_new_path lyd_find_path r s) :
    (r.control_plane_protocols = [] ∧ RoutingAcceptable S r) ∧ RoutingReadBack S r [] s := by
  obtain ⟨t, hok, hread⟩ := hcycle
  obtain ⟨hgood, ht⟩ := acceptable_of_serialize hS hP h hnul hok
  obtain ⟨⟨s'⟩, hread', hs⟩ := deserialize_routingTree hf ht
  cases hread.symm.trans hread'
  exact ⟨hgood, hs⟩

/-- **A cycle succeeds unless `serialize` throws**, and what is read back is settled but for the
order of the ribs. The texts of the model hold no NULs; the schema is any in which no list with
keys below a control-plane protocol holds a node called `type`, and libyang does what it
documents. -/
theorem routingCycle_iff (hS : RoutingSchema S) (hP : S.NotInLists protocolPlace "type")
    (h : NewPath.Lawful S lyd_new_path) (hf : FindPath.Lawful lyd_find_path) (hnul : r.NulFree) :
    ((∃ s, RoutingCycle lyd_new_path lyd_find_path r s) ↔
      r.control_plane_protocols = [] ∧ RoutingAcceptable S r) ∧
      ∀ s, RoutingCycle lyd_new_path lyd_find_path r s → RoutingReadBack S r [] s :=
  ⟨⟨fun ⟨_, hcycle⟩ => (hcycle.readBack hS hP h hf hnul).1, exists_routingCycle hS h hf hnul⟩,
    fun _ hcycle => (hcycle.readBack hS hP h hf hnul).2⟩

theorem preferences_map (ks : List UInt32) :
    preferences (ks.map fun k => { route_preference := some k }) = ks := by
  rw [preferences, List.filterMap_map]
  exact List.filterMap_some

/-- A name that has been read back is read back as it is, if it is written at all. -/
theorem familyReadBack_again (hS : RoutingSchema S) (hT : RoutingTypes S) {family : String}
    (hread : FamilyAccepted S family) (hagain : FamilyAccepted S (familyReadBack S family)) :
    familyReadBack S (familyReadBack S family) = familyReadBack S family := by
  obtain ⟨type, hk, hid⟩ := hS.addressFamily
  have hty : S.typeAt (ribPlace.child (rtName "address-family")) = some type := by
    rw [SchemaTree.typeAt, hk]
    rfl
  have hback : ∀ v, familyReadBack S v = ((type v).map stripIdentityPrefix).getD "" := fun v => by
    rw [familyReadBack, hty, Option.bind_some]
  rw [FamilyAccepted, hty, Option.bind_some] at hread hagain
  obtain ⟨w, hw⟩ := Option.isSome_iff_exists.mp hread
  obtain ⟨w', hw'⟩ := Option.isSome_iff_exists.mp hagain
  have hcolon : ':' ∉ (familyReadBack S family).toList := by
    rw [hback, hw]
    exact hT.family type hty _ _ hw
  obtain ⟨m, hm, rfl⟩ := hid.bare _ w' hcolon hw'
  rw [hback (familyReadBack S family), hw', Option.map_some, stripIdentityPrefix_join hm]
  rfl

theorem RibValid.familyAccepted {rib : Rib} (h : RibValid S rib) :
    FamilyAccepted S rib.address_family := by
  obtain ⟨type, w, hk, hw⟩ := h.addressFamily
  rw [FamilyAccepted, SchemaTree.typeAt, hk]
  exact Option.isSome_of_eq_some hw

/-- The address family that is read back holds a NUL only if the one that was written does. -/
theorem nulFree_familyReadBack (hS : RoutingSchema S) {family : String}
    (h : Text.NulFree family) : Text.NulFree (familyReadBack S family) := by
  obtain ⟨type, hk, hid⟩ := hS.addressFamily
  have hback : familyReadBack S family = ((type family).map stripIdentityPrefix).getD "" := by
    rw [familyReadBack, SchemaTree.typeAt, hk]
    rfl
  rw [hback]
  cases hw : type family with
  | none => exact (by decide : Text.NulFree "")
  | some w =>
    rw [Option.map_some, Option.getD_some]
    cases hsplit : Text.splitFirst ':' family with
    | none =>
      obtain ⟨m, hm, rfl⟩ := hid.bare family w (Text.splitFirst_eq_none_iff.mp hsplit) hw
      rwa [stripIdentityPrefix_join hm]
    | some p =>
      obtain ⟨q, v⟩ := p
      obtain ⟨heq, hcolon⟩ := Text.splitFirst_eq_some_iff.mp hsplit
      have hjoin : q ++ ":" ++ v = family := String.toList_inj.mp (by simp [heq])
      obtain ⟨m, -, hm, rfl⟩ := hid.prefixed q v w hcolon (hjoin ▸ hw)
      rw [stripIdentityPrefix_join hm]
      exact (h.splitFirst hsplit).2

/-- **What is read back of texts without NULs** holds none either. -/
theorem RoutingReadBack.nulFree (hS : RoutingSchema S) (hT : RoutingTypes S) (hnul : r.NulFree)
    (hits : ∀ i ∈ its, YangText i.name) (hs : RoutingReadBack S r its s) : s.NulFree := by
  intro v hv
  simp only [Routing.texts, hs.control_plane_protocols, List.flatMap_nil, List.append_nil,
    List.mem_append, List.mem_flatMap, Option.mem_toList] at hv
  rcases hv with (hv | hv) | ⟨rib', hrib', hv⟩
  · obtain ⟨id, -, htype⟩ := Option.bind_eq_some_iff.mp (hs.router_id.symm.trans hv)
    obtain ⟨type, hty, hw⟩ := Option.bind_eq_some_iff.mp htype
    exact hT.routerIdText type hty id v hw
  · rw [hs.interfaces] at hv
    rcases FirstOccurrence.mem_appendAllNew.mp hv with hv | hv
    · obtain ⟨i, hi, rfl⟩ := List.mem_map.mp hv
      exact (hits i hi).nulFree
    · exact hnul v (by simp [Routing.texts, hv])
  · obtain ⟨rib, hrib, rfl⟩ := List.mem_map.mp (hs.ribs.subset hrib')
    have hrib' : ∀ w ∈ rib.texts, Text.NulFree w := fun w hw =>
      hnul w (List.mem_append_right _ (List.mem_flatMap.mpr ⟨rib, hrib, hw⟩))
    simp only [Rib.texts, ribReadBack, List.mem_cons, Option.mem_toList] at hv
    rcases hv with rfl | rfl | hv
    · exact hrib' _ (by simp [Rib.texts])
    · exact nulFree_familyReadBack hS (hrib' _ (by simp [Rib.texts]))
    · exact hrib' _ (by simp [Rib.texts, hv])

/-- When what was read back can be written. -/
theorem RoutingReadBack.acceptable_iff (hS : RoutingSchema S) (hT : RoutingTypes S)
    (hr : RoutingAcceptable S r) (hits : ∀ i ∈ its, YangText i.name)
    (hs : RoutingReadBack S r its s) :
    s.control_plane_protocols = [] ∧ RoutingAcceptable S s ↔
      ∀ rib ∈ r.ribs, FamilyAccepted S (familyReadBack S rib.address_family) := by
  constructor
  · rintro ⟨-, hok⟩ rib hrib
    exact (hok.ribs _ (hs.ribs.symm.subset (List.mem_map_of_mem hrib))).familyAccepted
  · intro hfamilies
    refine ⟨hs.control_plane_protocols, ?_, ?_, by simp [hs.control_plane_protocols],
      by simp [hs.control_plane_protocols], ?_, ?_⟩
    · intro id' hid'
      obtain ⟨id, hid, htype⟩ := Option.bind_eq_some_iff.mp (hs.router_id.symm.trans hid')
      obtain ⟨type, w, hk, hw⟩ := hr.routerId id hid
      have hty : S.typeAt (rootPlace.child (rtName "router-id")) = some type := by
        rw [SchemaTree.typeAt, hk]
        rfl
      rw [hty, Option.bind_some] at htype
      exact ⟨type, id', hk, hT.routerId type hty id id' htype⟩
    · intro n hn
      rw [hs.interfaces] at hn
      rcases FirstOccurrence.mem_appendAllNew.mp hn with hn | hn
      · obtain ⟨i, hi, rfl⟩ := List.mem_map.mp hn
        exact hits i hi
      · exact hr.interfaces n hn
    · intro rib' hrib'
      obtain ⟨rib, hrib, rfl⟩ := List.mem_map.mp (hs.ribs.subset hrib')
      obtain ⟨type, hk, -⟩ := hS.addressFamily
      have hsome := hfamilies rib hrib
      rw [FamilyAccepted, SchemaTree.typeAt, hk] at hsome
      obtain ⟨w, hw⟩ := Option.isSome_iff_exists.mp hsome
      exact ⟨(hr.ribs rib hrib).name, ⟨type, w, hk, hw⟩, (hr.ribs rib hrib).description⟩
    · have hnames : ((r.ribs.map (ribReadBack S)).map Rib.name) = r.ribs.map Rib.name := by
        rw [List.map_map]
        rfl
      exact ((hs.ribs.map Rib.name).nodup_iff.mpr (hnames ▸ hr.ribNames))

/-- **Nothing more is lost the second time**: what is read back of something that was read back
could have been read back at once, if no interface has gone. -/
theorem RoutingReadBack.again (hS : RoutingSchema S) (hT : RoutingTypes S)
    (hr : RoutingAcceptable S r) (hs : RoutingReadBack S r its s) (hok : RoutingAcceptable S s)
    (hu : RoutingReadBack S s its' u)
    (hits : its.map IetfInterface.name ⊆ its'.map IetfInterface.name) :
    RoutingReadBack S r its' u where
  router_id := by
    rw [hu.router_id, hs.router_id.symm, routerIdReadBack]
    cases hid : s.router_id with
    | none => rfl
    | some id' =>
      obtain ⟨id, hid, htype⟩ := Option.bind_eq_some_iff.mp (hs.router_id.symm.trans hid)
      obtain ⟨type, hty, hw⟩ := Option.bind_eq_some_iff.mp htype
      rw [Option.bind_some, hty]
      exact hT.routerId type hty id id' hw
  interfaces := by
    rw [hu.interfaces, hs.interfaces, FirstOccurrence.appendAllNew_absorb hits]
  interfaces_info := hu.interfaces_info
  control_plane_protocols := hu.control_plane_protocols
  ribs := by
    refine (hu.ribs.trans (List.Perm.of_eq ?_)).trans hs.ribs
    refine (List.map_congr_left fun rib' hrib' => ?_).trans (List.map_id _)
    have hvalid := (hok.ribs rib' hrib').familyAccepted
    obtain ⟨rib, hrib, rfl⟩ := List.mem_map.mp (hs.ribs.subset hrib')
    have hfamily := familyReadBack_again hS hT (hr.ribs rib hrib).familyAccepted hvalid
    have hroutes := preferences_map (preferences rib.routes)
    simp only [ribReadBack, hfamily, hroutes, id]

/-- Two models read back of one differ in the order of the ribs. -/
theorem RoutingReadBack.sameButOrder (hs : RoutingReadBack S r its s)
    (hu : RoutingReadBack S r its u) : SameButOrder s u := by
  refine ⟨u.ribs, hu.ribs.trans hs.ribs.symm, ?_⟩
  rw [← hu.router_id.trans hs.router_id.symm, ← hu.interfaces.trans hs.interfaces.symm,
    ← hu.interfaces_info.trans hs.interfaces_info.symm,
    ← hu.control_plane_protocols.trans hs.control_plane_protocols.symm]

/-- **After one cycle further cycles change nothing but the order of the ribs**, and they go on
exactly if the schema takes every address family without the module that was stripped off. The texts
of the first model hold no NULs, and those of the others hold none because canonical forms do not
(`RoutingTypes`). -/
theorem routing_cycles_stable (hS : RoutingSchema S) (hP : S.NotInLists protocolPlace "type")
    (hT : RoutingTypes S) (h : NewPath.Lawful S lyd_new_path) (hf : FindPath.Lawful lyd_find_path)
    (hnul : r.NulFree)
    (hfirst : RoutingCycle lyd_new_path lyd_find_path r s)
    (hmore : Relation.ReflTransGen (RoutingCycle lyd_new_path lyd_find_path) s u) :
    SameButOrder s u ∧ ((∃ v, RoutingCycle lyd_new_path lyd_find_path u v) ↔
      ∀ rib ∈ r.ribs, FamilyAccepted S (familyReadBack S rib.address_family)) := by
  obtain ⟨⟨-, hr⟩, hs⟩ := hfirst.readBack hS hP h hf hnul
  -- everything on the way is read back of the first model
  have hu : RoutingReadBack S r [] u := by
    induction hmore with
    | refl => exact hs
    | tail _ hab ha =>
      obtain ⟨⟨-, hok⟩, hb⟩ := hab.readBack hS hP h hf (ha.nulFree hS hT hnul (by simp))
      exact ha.again hS hT hr hok hb (List.Subset.refl _)
  have hnulU : u.NulFree := hu.nulFree hS hT hnul (by simp)
  refine ⟨hs.sameButOrder hu, ?_⟩
  rw [← hu.acceptable_iff hS hT hr (by simp)]
  exact ⟨fun ⟨_, hcycle⟩ => (hcycle.readBack hS hP h hf hnulU).1,
    exists_routingCycle hS h hf hnulU⟩

end Cycles

theorem Reference.routingTypes : RoutingTypes Reference.schema where
  routerId type h := by
    cases h
    exact Reference.textOf_canonical _
  routerIdText type h v w hw := by
    cases h
    exact Reference.nulFree_of_textOf (by decide) hw
  family type h v w hw hcolon := by
    cases h
    obtain ⟨m, n, hn, rfl⟩ : ∃ m n, Reference.isAddressFamily m n = true ∧
        w = m ++ ":" ++ n := by
      simp only [Reference.identityref] at hw
      split at hw
      · obtain ⟨m, -, hw⟩ := Option.bind_eq_some_iff.mp hw
        split at hw
        · rename_i hn
          exact ⟨m, _, hn, (Option.some.inj hw).symm⟩
        · cases hw
      · split at hw
        · rename_i hn
          exact ⟨_, _, hn, (Option.some.inj hw).symm⟩
        · cases hw
    simp only [Reference.isAddressFamily, Bool.and_eq_true, Bool.or_eq_true, beq_iff_eq] at hn
    obtain ⟨rfl, rfl | rfl⟩ := hn
    · exact absurd hcolon (by decide)
    · exact absurd hcolon (by decide)

/-- A model that changes once: an interface is named twice, a route has no preference, and one has
more than that. -/
def settlingRouter : Routing :=
  { router_id := some "192.0.2.1"
    interfaces := ["eth1", "eth0", "eth1"]
    ribs := [
      { name := "", address_family := "ietf-routing:ipv4", default_rib := false
        routes := [{}, { route_preference := some 5, next_hop := some {} }] },
      { name := "v6", address_family := "ipv6" }] }

theorem settlingRouter_acceptable : RoutingAcceptable Reference.schema settlingRouter where
  routerId id hid := by
    cases hid
    exact ⟨_, "192.0.2.1", rfl, by decide⟩
  interfaces := by decide
  protocols := by simp [settlingRouter]
  protocolKeys := by decide
  ribs rib hrib := by
    simp only [settlingRouter, List.mem_cons, List.not_mem_nil, or_false] at hrib
    rcases hrib with rfl | rfl
    · exact ⟨by decide, ⟨_, "ietf-routing:ipv4", rfl, by decide⟩, by decide⟩
    · exact ⟨by decide, ⟨_, "ietf-routing:ipv6", rfl, by decide⟩, by decide⟩
  ribNames := by decide

theorem routingCycle_iff_settlingRouter :
    let newPath := Reference.newPath Reference.schema
    ((∃ s, RoutingCycle newPath Reference.findPath settlingRouter s) ↔
      settlingRouter.control_plane_protocols = [] ∧
        RoutingAcceptable Reference.schema settlingRouter) ∧
      ∀ s, RoutingCycle newPath Reference.findPath settlingRouter s →
        RoutingReadBack Reference.schema settlingRouter [] s :=
  routingCycle_iff Reference.routingSchema Reference.protocolNotInLists
    (Reference.newPath_lawful _) Reference.findPath_lawful (by decide : settlingRouter.NulFree)

/-- Three cycles from it. -/
theorem routing_cycles_stable_settlingRouter :
    let newPath := Reference.newPath Reference.schema
    ∃ s u v, RoutingCycle newPath Reference.findPath settlingRouter s ∧
      RoutingCycle newPath Reference.findPath s u ∧
      RoutingCycle newPath Reference.findPath u v ∧ SameButOrder s u := by
  intro newPath
  have hlawful : NewPath.Lawful Reference.schema newPath := Reference.newPath_lawful _
  obtain ⟨s, hfirst⟩ := exists_routingCycle Reference.routingSchema hlawful
    Reference.findPath_lawful (by decide) ⟨rfl, settlingRouter_acceptable⟩
  have hfamilies : ∀ rib ∈ settlingRouter.ribs,
      FamilyAccepted Reference.schema (familyReadBack Reference.schema rib.address_family) := by
    decide
  have hstable := fun {u} => routing_cycles_stable (u := u) Reference.routingSchema
    Reference.protocolNotInLists Reference.routingTypes hlawful Reference.findPath_lawful
    (by decide) hfirst
  obtain ⟨u, hsecond⟩ := (hstable .refl).2.mpr hfamilies
  obtain ⟨hsame, hmore⟩ := hstable (.single hsecond)
  obtain ⟨v, hthird⟩ := hmore.mpr hfamilies
  exact ⟨s, u, v, hfirst, hsecond, hthird, hsame⟩

end StelleriYang

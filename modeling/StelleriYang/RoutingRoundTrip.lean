import StelleriYang.RoutingErrors

/-!
# Routing: decoding after encoding

Without control-plane protocols the encoder of routing models is faithful but for one thing: a
route without a preference is passed over. Where every route has one, decoding gives back the
router id, the interface references and the ribs.

## Main definitions

* `RoutingEncodable` — the models the round trip is about
* `RoutingRoundTrips` — decoding after encoding gives back the model
* `RoutesKept` — the entries under the ribs of a tree are the routes of the model

## Main results

* `routing_roundTrips`
* `routesKept_iff` — no route is lost exactly when every route has a preference
-/

namespace StelleriYang

open LydNode (named findChild childrenNamed childValue)
open PathText (quote)
open Routing

/-! ### Which models -/

/-- A rib whose routes have a preference and nothing else. -/
structure RibEncodable (S : SchemaTree) (rib : Rib) : Prop where
  name_nonempty : rib.name ≠ ""
  family_nonempty : rib.address_family ≠ ""
  family_colon : ':' ∉ rib.address_family.toList
  valid : RibValid S rib
  routes : ∀ route ∈ rib.routes, ∃ k, route = { route_preference := some k }

/-- A model whose values the schema accepts and keeps as they are. -/
structure RoutingEncodable (S : SchemaTree) (r : Routing) : Prop where
  protocols : r.control_plane_protocols = []
  routerId : ∀ id, r.router_id = some id → S.Accepts (rootPlace.child (rtName "router-id")) id
  interfaces : r.interfaces.Nodup
  interfaceTexts : ∀ n ∈ r.interfaces, YangText n
  ribNames : (r.ribs.map Rib.name).Nodup
  ribs : ∀ rib ∈ r.ribs, RibEncodable S rib
  nulFree : r.NulFree

/-- `y` is what is encoded of `x`. -/
structure RibAgrees (x y : Rib) : Prop where
  name : y.name = x.name
  address_family : y.address_family = x.address_family
  description : y.description = x.description
  routes : y.routes = x.routes

structure RoutingAgrees (r s : Routing) : Prop where
  router_id : s.router_id = r.router_id
  interfaces : s.interfaces = r.interfaces
  ribs : ∃ ys, s.ribs.Perm ys ∧ List.Forall₂ RibAgrees r.ribs ys

/-- Encoding does not throw, and decoding gives the same router id, the same interface references in
the same order, and the same ribs. -/
def RoutingRoundTrips (lyd_new_path : NewPath LydNode) (lyd_find_path : FindPath) (r : Routing) :
    Prop :=
  ∃ t m, (IetfRouting.mk r).serialize lyd_new_path = .ok (some t) ∧
    IetfRouting.deserialize lyd_find_path [t] (some t) = .ok m ∧ RoutingAgrees r m.routing_

/-! ### Reading the parts -/

section Reading

variable {S : SchemaTree}

theorem readRoute_preference (k : UInt32) :
    readRoute (LydNode.inner (rtName "route")
      [LydNode.leaf (rtName "route-preference") k.toNat.repr]) =
        .ok { route_preference := some k } := by
  have hv : childValue (LydNode.inner (rtName "route")
      [LydNode.leaf (rtName "route-preference") k.toNat.repr]) "route-preference" =
        some k.toNat.repr := rfl
  rw [readRoute, hv, readUInt32_repr]
  rfl

/-- The routes that have a preference, without anything else. -/
theorem mapM_readRoute (ks : List UInt32) :
    (ks.map fun k => LydNode.inner (rtName "route")
      [LydNode.leaf (rtName "route-preference") k.toNat.repr]).mapM readRoute =
        .ok (ks.map fun k => { route_preference := some k }) := by
  rw [Traverse.mapM_eq_ok_iff, List.forall₂_map_left_iff, List.forall₂_map_right_iff]
  exact List.forall₂_same.mpr fun k _ => readRoute_preference k

theorem map_preferences : ∀ {routes : List Route},
    (∀ route ∈ routes, ∃ k, route = { route_preference := some k }) →
    ((preferences routes).map fun k => ({ route_preference := some k } : Route)) = routes := by
  intro routes
  induction routes with
  | nil => intro _; rfl
  | cons route routes ih =>
    intro h
    obtain ⟨k, rfl⟩ := h route (by simp)
    have hcons : preferences ({ route_preference := some k } :: routes) =
        k :: preferences routes := List.filterMap_cons_some rfl
    rw [hcons, List.map_cons, ih fun r hr => h r (by simp [hr])]

theorem stripIdentityPrefix_join {m v : String} (hm : PathText.IsIdent m) :
    stripIdentityPrefix (m ++ ":" ++ v) = v := by
  have hcolon : ':' ∉ m.toList := fun h => absurd (hm.2 _ h) (by decide)
  have : Text.splitFirst ':' (m ++ ":" ++ v) = some (m, v) :=
    Text.splitFirst_eq_some_iff.mpr ⟨by simp, hcolon⟩
  rw [stripIdentityPrefix, this]

theorem RibTree.readRib_ok (hS : RoutingSchema S) {rib : Rib} {n : LydNode}
    (h : RibTree S rib n) (hrib : RibEncodable S rib) :
    ∃ y, readRib n = .ok y ∧ RibAgrees rib y := by
  obtain ⟨type, w, hk, hw⟩ := hrib.valid.addressFamily
  obtain ⟨type', hk', hid⟩ := hS.addressFamily
  cases hk.symm.trans hk'
  -- the canonical form has a prefix, which is stripped off again
  obtain ⟨m, hm, rfl⟩ := hid.bare _ w hrib.family_colon hw
  have haf : childValue n "address-family" = some (m ++ ":" ++ rib.address_family) := by
    rw [h.addressFamily, SchemaTree.typeAt, hk]
    exact hw
  refine ⟨{ rib with default_rib := true }, ?_, ⟨rfl, rfl, rfl, rfl⟩⟩
  rw [readRib, h.routes, mapM_readRoute, map_preferences hrib.routes, h.name, haf, h.description,
    Option.map_some, stripIdentityPrefix_join hm]
  rfl

theorem foldl_appendName : ∀ {names old : List String}, (old ++ names).Nodup →
    names.foldl appendName old = old ++ names := by
  intro names
  induction names with
  | nil => intro old _; simp
  | cons n names ih =>
    intro old h
    have hn : n ∉ old := fun hmem => by
      have := (List.nodup_append.mp h).2.2 n hmem n (by simp)
      exact this rfl
    rw [List.foldl_cons, appendName, if_neg hn, ih (by simpa using h)]
    simp

end Reading

/-! ### The round trip -/

section RoundTrip

variable {S : SchemaTree} {lyd_new_path : NewPath LydNode} {lyd_find_path : FindPath}
  {r : Routing}

theorem RoutingEncodable.acceptable (hr : RoutingEncodable S r) (hS : RoutingSchema S) :
    RoutingAcceptable S r where
  routerId id hid := by
    obtain ⟨type, hk⟩ := hS.routerId
    obtain ⟨type', hty, hw⟩ := hr.routerId id hid
    rw [SchemaTree.typeAt, hk] at hty
    cases hty
    exact ⟨type, id, hk, hw⟩
  interfaces := hr.interfaceTexts
  protocols := by simp [hr.protocols]
  protocolKeys := by simp [hr.protocols]
  ribs rib hrib := (hr.ribs rib hrib).valid
  ribNames := hr.ribNames

/-- **Decoding undoes encoding** for router id, interface references and ribs, in any schema with
the nodes the encoder writes to and for any libyang that does what it documents.

`RoutingEncodable` says of the model that it has no control-plane protocols, that its texts hold no
NULs and are values of their types, in canonical form, that no interface is referred to twice and
no two ribs share a name, and that every route has a preference and nothing else. -/
theorem routing_roundTrips (hS : RoutingSchema S) (h : NewPath.Lawful S lyd_new_path)
    (hf : FindPath.Lawful lyd_find_path) (hr : RoutingEncodable S r) :
    RoutingRoundTrips lyd_new_path lyd_find_path r := by
  obtain ⟨t, hok, ht⟩ := serialize_routingTree hS h hr.nulFree (hr.acceptable hS) hr.protocols
  obtain ⟨ns, hperm, hall⟩ := ht.ribs
  -- there is no `interfaces` next to the `routing` of an encoded model
  have hmissing : matched (lyd_find_path [t] "/ietf-interfaces:interfaces") = none :=
    (hf.matched_eq (q := ⟨"ietf-interfaces", "interfaces"⟩)
      (show PathText.IsIdent "ietf-interfaces" by decide) [t]).trans (by simp [ht.label, rtName])
  have hinfo : readInterfacesInfo lyd_find_path [t] = .ok {} := by
    rw [readInterfacesInfo, hmissing]
  have hroot : findRouting lyd_find_path [t] t = some t := by
    rw [findRouting, if_pos (LydNode.named_iff.mpr ⟨_, ht.label⟩)]
  have hrouter : childValue t "router-id" = r.router_id := by
    rw [ht.routerId]
    cases hid : r.router_id with
    | none => rfl
    | some id =>
      obtain ⟨type, hty, hw⟩ := hr.routerId id hid
      rw [Option.bind_some, hty]
      exact hw
  have hnames : (entries t "interfaces" "interface").filterMap DataTree.Tree.value =
      r.interfaces := by
    rw [ht.interfaces, List.filterMap_map]
    exact List.filterMap_some
  have hcpps : entries t "control-plane-protocols" "control-plane-protocol" = [] := by
    rw [entries, ht.protocols]
  obtain ⟨ys, hys, hagrees⟩ := Traverse.exists_mapM_of_forall₂ hall fun rib hrib n hn =>
    hn.readRib_ok hS (hr.ribs rib hrib)
  obtain ⟨ys', hys', hp⟩ := Traverse.exists_mapM_of_perm hperm hys
  have hfold : r.interfaces.foldl appendName [] = r.interfaces :=
    foldl_appendName (by simpa using hr.interfaces)
  have hdec : IetfRouting.deserialize lyd_find_path [t] (some t) =
      .ok ⟨{ router_id := r.router_id, interfaces := r.interfaces, ribs := ys' }⟩ := by
    simp only [IetfRouting.deserialize, readRouting, hinfo, hroot, hcpps, hys', bind, Except.bind]
    rw [hrouter, hnames, List.map_nil, hfold]
    rfl
  exact ⟨t, _, hok, hdec, ⟨rfl, rfl, ys, hp, hagrees⟩⟩

/-- Two ribs, with a preference that occurs twice. -/
def twoRibs : Routing :=
  { router_id := some "192.0.2.1"
    interfaces := ["eth1", "eth0"]
    ribs := [
      { name := "v4"
        address_family := "ipv4"
        description := some ""
        routes := [{ route_preference := some 5 }, { route_preference := some 5 }] },
      { name := "v6", address_family := "ipv6" }] }

theorem twoRibs_encodable : RoutingEncodable Reference.schema twoRibs where
  protocols := rfl
  routerId id hid := by
    cases hid
    exact ⟨_, rfl, by decide⟩
  interfaces := by decide
  interfaceTexts := by decide
  ribNames := by decide
  ribs rib hrib := by
    simp only [twoRibs, List.mem_cons, List.not_mem_nil, or_false] at hrib
    rcases hrib with rfl | rfl
    · exact ⟨by decide, by decide, by decide,
        ⟨by decide, ⟨_, "ietf-routing:ipv4", rfl, by decide⟩, by decide⟩,
        fun route hroute => ⟨5, by simpa using hroute⟩⟩
    · exact ⟨by decide, by decide, by decide,
        ⟨by decide, ⟨_, "ietf-routing:ipv6", rfl, by decide⟩, by decide⟩,
        fun route hroute => by cases hroute⟩
  nulFree := by decide

theorem twoRibs_roundTrips :
    RoutingRoundTrips (Reference.newPath Reference.schema) Reference.findPath twoRibs :=
  routing_roundTrips Reference.routingSchema (Reference.newPath_lawful _)
    Reference.findPath_lawful twoRibs_encodable

/-! ### Routes -/

/-- The entries under the instance of each rib are the routes of the rib: as many, and each with
the preference of its route, if it has one. -/
def RoutesKept (r : Routing) (t : LydNode) : Prop :=
  ∀ rib ∈ r.ribs, ∃ n ∈ entries t "ribs" "rib", childValue n "name" = some rib.name ∧
    List.Forall₂ (fun route e => childValue e "route-preference" =
      route.route_preference.map fun k => k.toNat.repr) rib.routes (entries n "routes" "route")

theorem forall₂_preferences_iff {routes : List Route} :
    List.Forall₂ (fun (route : Route) e => childValue e "route-preference" =
        route.route_preference.map fun k => k.toNat.repr) routes
      ((preferences routes).map fun k => LydNode.inner (rtName "route")
        [LydNode.leaf (rtName "route-preference") k.toNat.repr]) ↔
      ∀ route ∈ routes, route.route_preference.isSome := by
  constructor
  · intro h route hroute
    have hlen := h.length_eq
    rw [List.length_map, preferences] at hlen
    by_contra hnone
    have hlt : (routes.filterMap Route.route_preference).length < routes.length :=
      List.length_filterMap_lt_length_iff_exists.mpr
        ⟨route, hroute, by simpa using hnone⟩
    omega
  · induction routes with
    | nil => intro _; exact .nil
    | cons route routes ih =>
      intro h
      obtain ⟨k, hk⟩ := Option.isSome_iff_exists.mp (h route (by simp))
      rw [preferences, List.filterMap_cons_some hk, List.map_cons]
      refine .cons ?_ (ih fun r hr => h r (by simp [hr]))
      rw [hk]
      rfl

theorem RoutingTree.kept_iff {t : LydNode} (ht : RoutingTree S r t)
    (hnames : (r.ribs.map Rib.name).Nodup) :
    RoutesKept r t ↔ ∀ rib ∈ r.ribs, ∀ route ∈ rib.routes, route.route_preference.isSome := by
  obtain ⟨ns, hperm, hall⟩ := ht.ribs
  constructor
  · intro hkept rib hrib
    obtain ⟨n, hn, hname, hroutes⟩ := hkept rib hrib
    -- the instance of that name is the one that was made for the rib
    obtain ⟨rib', hrib', htree⟩ := Traverse.exists_of_forall₂_right hall n (hperm.subset hn)
    obtain rfl : rib' = rib := List.inj_on_of_nodup_map hnames hrib' hrib
      (Option.some.inj (htree.name.symm.trans hname))
    rw [htree.routes] at hroutes
    exact forall₂_preferences_iff.mp hroutes
  · intro hpref rib hrib
    obtain ⟨n, hn, htree⟩ := Traverse.exists_of_forall₂_left hall rib hrib
    refine ⟨n, hperm.symm.subset hn, htree.name, ?_⟩
    rw [htree.routes]
    exact forall₂_preferences_iff.mpr (hpref rib hrib)

/-- **No route is lost exactly when every route has a preference**, in every tree that is returned
for a model without control-plane protocols, whose ribs have names of their own, without NULs. The
schema is any with the nodes the encoder writes to, and libyang does what it documents. -/
theorem routesKept_iff (hS : RoutingSchema S) (h : NewPath.Lawful S lyd_new_path)
    (hcpp : r.control_plane_protocols = []) (hnul : ∀ rib ∈ r.ribs, Text.NulFree rib.name)
    (hnames : (r.ribs.map Rib.name).Nodup) {t : LydNode}
    (hok : (IetfRouting.mk r).serialize lyd_new_path = .ok (some t)) :
    RoutesKept r t ↔ ∀ rib ∈ r.ribs, ∀ route ∈ rib.routes, route.route_preference.isSome := by
  -- the ribs keep their names and their routes when the values are cut
  have hcut : r.cut.ribs.map Rib.name = r.ribs.map Rib.name := by
    simp [Routing.cut, Rib.cut, Function.comp_def]
  have hkept : RoutesKept r.cut t ↔ RoutesKept r t := by
    simp [RoutesKept, Routing.cut, Rib.cut]
  have hpref : (∀ rib ∈ r.cut.ribs, ∀ route ∈ rib.routes, route.route_preference.isSome) ↔
      ∀ rib ∈ r.ribs, ∀ route ∈ rib.routes, route.route_preference.isSome := by
    simp [Routing.cut, Rib.cut]
  have hnames' : (r.cut.ribs.map Rib.name).Nodup := hcut ▸ hnames
  rw [← IetfRouting.serialize_cut] at hok
  rw [← hkept, ← hpref]
  exact (routingTree_of_serialize hS h (Routing.nulFree_cut hcpp hnul) hcpp hnames' hok).kept_iff
    hnames'

end RoundTrip

/-- A rib with a route that has no preference, in front of one that has. -/
def unpreferredRoute : Routing :=
  { ribs := [{
      name := "main"
      address_family := "ipv4"
      routes := [{}, { route_preference := some 7 }] }] }

theorem unpreferredRoute_acceptable : RoutingAcceptable Reference.schema unpreferredRoute where
  routerId := by simp [unpreferredRoute]
  interfaces := by simp [unpreferredRoute]
  protocols := by simp [unpreferredRoute]
  protocolKeys := by decide
  ribs rib hrib := by
    obtain rfl := List.mem_singleton.mp hrib
    exact ⟨by decide, ⟨_, "ietf-routing:ipv4", rfl, by decide⟩, by decide⟩
  ribNames := by decide

theorem routesKept_iff_unpreferredRoute :
    ∃ t, (IetfRouting.mk unpreferredRoute).serialize (Reference.newPath Reference.schema) =
        .ok (some t) ∧
      (RoutesKept unpreferredRoute t ↔ ∀ rib ∈ unpreferredRoute.ribs, ∀ route ∈ rib.routes,
        route.route_preference.isSome) := by
  obtain ⟨t, hok, -⟩ := serialize_routingTree Reference.routingSchema
    (Reference.newPath_lawful _) (by decide) unpreferredRoute_acceptable rfl
  exact ⟨t, hok, routesKept_iff Reference.routingSchema (Reference.newPath_lawful _) rfl
    (by decide) (by decide) hok⟩

theorem not_routesKept_unpreferredRoute :
    ∃ t, (IetfRouting.mk unpreferredRoute).serialize (Reference.newPath Reference.schema) =
      .ok (some t) ∧ ¬ RoutesKept unpreferredRoute t := by
  obtain ⟨t, hok, ht⟩ := serialize_routingTree Reference.routingSchema
    (Reference.newPath_lawful _) (by decide) unpreferredRoute_acceptable rfl
  refine ⟨t, hok, ?_⟩
  rw [ht.kept_iff (by decide)]
  decide

end StelleriYang

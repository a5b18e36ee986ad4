import StelleriYang.InterfacesMerge

/-!
# The entries of a router

What `IetfRouting.deserialize` reads of the control-plane protocols, the ribs and their routes:
every entry, in the order of the document, and each from its own subtree.

## Main definitions

* `RouteOf`, `ProtocolOf`, `RibOf` — what an entry says about the record that is read from it
* `PreferencesInRange` — the numerals of a `routing` node are those of `uint32` values

## Main results

* `deserialize_entries`
-/

namespace StelleriYang

open LydNode (childValue)
open Text (IsNumeral)

/-- What stands behind the first colon, or the whole text if there is none. -/
def BehindColon (v text : String) : Prop :=
  (':' ∉ v.toList ∧ text = v) ∨ ∃ a, ':' ∉ a.toList ∧ v = a ++ ":" ++ text

/-- A member that is empty if there is no leaf. -/
def TextOf (R : String → String → Prop) (v : Option String) (text : String) : Prop :=
  match v with
  | none => text = ""
  | some v => R v text

/-- A route: the preference is the number the leaf of this route stands for. -/
structure RouteOf (r : LydNode) (route : Route) : Prop where
  route_preference : Option.Rel (fun v (k : UInt32) => IsNumeral v k.toNat)
    (childValue r "route-preference") route.route_preference
  next_hop : route.next_hop = none
  metadata : route.metadata = none

structure ProtocolOf (entry : LydNode) (cp : ControlPlaneProtocol) : Prop where
  type : TextOf BehindColon (childValue entry "type") cp.type
  name : TextOf Eq (childValue entry "name") cp.name
  description : cp.description = childValue entry "description"
  static_routes : List.Forall₂ RouteOf (entries entry "static-routes" "route") cp.static_routes

structure RibOf (entry : LydNode) (rib : Rib) : Prop where
  name : TextOf Eq (childValue entry "name") rib.name
  address_family : TextOf BehindColon (childValue entry "address-family") rib.address_family
  default_rib : rib.default_rib = true
  description : rib.description = childValue entry "description"
  routes : List.Forall₂ RouteOf (entries entry "routes" "route") rib.routes

/-- The `route-preference` leaves of a list of routes hold numerals of `uint32` values. -/
def InRange (rs : List LydNode) : Prop :=
  ∀ r ∈ rs, ∀ v, childValue r "route-preference" = some v → ∃ k : UInt32, IsNumeral v k.toNat

def PreferencesInRange (rt : LydNode) : Prop :=
  (∀ entry ∈ entries rt "control-plane-protocols" "control-plane-protocol",
    InRange (entries entry "static-routes" "route")) ∧
  ∀ entry ∈ entries rt "ribs" "rib", InRange (entries entry "routes" "route")

theorem stripIdentityPrefix_behindColon (v : String) : BehindColon v (stripIdentityPrefix v) := by
  rw [stripIdentityPrefix]
  cases hs : Text.splitFirst ':' v with
  | none => exact .inl ⟨Text.splitFirst_eq_none_iff.mp hs, rfl⟩
  | some p =>
    obtain ⟨a, b⟩ := p
    obtain ⟨hv, ha⟩ := Text.splitFirst_eq_some_iff.mp hs
    refine .inr ⟨a, ha, String.toList_inj.mp ?_⟩
    rw [hv]
    simp

theorem textOf_stripIdentityPrefix (v : Option String) :
    TextOf BehindColon v ((v.map stripIdentityPrefix).getD "") := by
  cases v with
  | none => exact rfl
  | some v => exact stripIdentityPrefix_behindColon v

theorem textOf_getD (v : Option String) : TextOf Eq v (v.getD "") := by
  cases v <;> exact rfl

theorem readRoutes_complete {rs : List LydNode} (h : InRange rs) :
    ∃ routes, rs.mapM readRoute = .ok routes ∧ List.Forall₂ RouteOf rs routes := by
  refine Traverse.exists_mapM fun r hr => ?_
  cases hv : childValue r "route-preference" with
  | none =>
    refine ⟨{}, ?_, ⟨by rw [hv]; exact .none, rfl, rfl⟩⟩
    rw [readRoute, hv]
    rfl
  | some v =>
    obtain ⟨k, hk⟩ := h r hr v hv
    refine ⟨{ route_preference := some k }, ?_, ⟨by rw [hv]; exact .some hk, rfl, rfl⟩⟩
    rw [readRoute, hv, readUInt32_of_isNumeral hk]
    rfl

theorem readControlPlaneProtocol_complete {entry : LydNode}
    (h : InRange (entries entry "static-routes" "route")) :
    ∃ cp, readControlPlaneProtocol entry = .ok cp ∧ ProtocolOf entry cp := by
  obtain ⟨static_routes, hread, hroutes⟩ := readRoutes_complete h
  refine ⟨_, by rw [readControlPlaneProtocol, hread]; rfl, ?_⟩
  exact ⟨textOf_stripIdentityPrefix _, textOf_getD _, rfl, hroutes⟩

theorem readRib_complete {entry : LydNode} (h : InRange (entries entry "routes" "route")) :
    ∃ rib, readRib entry = .ok rib ∧ RibOf entry rib := by
  obtain ⟨routes, hread, hroutes⟩ := readRoutes_complete h
  refine ⟨_, by rw [readRib, hread]; rfl, ?_⟩
  exact ⟨textOf_getD _, textOf_stripIdentityPrefix _, rfl, rfl, hroutes⟩

/-- **Every protocol and every rib is read, in the order of the document and from its own subtree
alone**, unless the top-level interfaces are malformed. The preferences of the routes are numerals
of a `uint32`. -/
theorem deserialize_entries {lyd_find_path : FindPath} {top : List LydNode} {tree rt : LydNode}
    (hrt : findRouting lyd_find_path top tree = some rt)
    (hifs : ∀ ifs, matched (lyd_find_path top "/ietf-interfaces:interfaces") = some ifs →
      ∃ m, IetfInterfaces.deserializeLoop lyd_find_path top (some ifs) = .ok m)
    (hrange : PreferencesInRange rt) :
    ∃ m, IetfRouting.deserializeLoop lyd_find_path top (some tree) = .ok m ∧
      List.Forall₂ ProtocolOf (entries rt "control-plane-protocols" "control-plane-protocol")
        m.routing_.control_plane_protocols ∧
      List.Forall₂ RibOf (entries rt "ribs" "rib") m.routing_.ribs := by
  obtain ⟨ifs_model, hinfo⟩ : ∃ m, readInterfacesInfo lyd_find_path top = .ok m := by
    rw [readInterfacesInfo]
    cases hm : matched (lyd_find_path top "/ietf-interfaces:interfaces") with
    | none => exact ⟨{}, rfl⟩
    | some ifs =>
      obtain ⟨m, hm⟩ := hifs ifs hm
      exact ⟨m, by rw [← hm, IetfInterfaces.deserializeLoop_eq]⟩
  obtain ⟨cps, hcps, hprotocols⟩ := Traverse.exists_mapM fun entry he =>
    readControlPlaneProtocol_complete (hrange.1 entry he)
  obtain ⟨ribs, hribs, hribOf⟩ := Traverse.exists_mapM fun entry he =>
    readRib_complete (hrange.2 entry he)
  obtain ⟨m, hread, hm, hm'⟩ : ∃ m, readRouting ifs_model rt = .ok m ∧
      m.routing_.control_plane_protocols = cps ∧ m.routing_.ribs = ribs :=
    ⟨_, by rw [readRouting, hcps, hribs]; rfl, rfl, rfl⟩
  refine ⟨m, ?_, hm ▸ hprotocols, hm' ▸ hribOf⟩
  rw [IetfRouting.deserializeLoop_eq, IetfRouting.deserialize, hinfo, hrt]
  exact hread

/-- A router with an opaque node and a foreign one among its entries: a protocol with two routes,
of which one has a preference, and a rib without a container of routes. -/
def mixedRouter : LydNode :=
  let opaqueNode : LydNode := .node none (some "7") []
  let leaf (name value : String) := LydNode.leaf (Routing.rtName name) value
  let inner (name : String) (cs : List LydNode) := LydNode.inner (Routing.rtName name) cs
  inner "routing"
    [inner "control-plane-protocols"
      [opaqueNode, leaf "name" "foreign",
        inner "control-plane-protocol"
          [leaf "type" "ietf-routing:static", leaf "name" "r",
            inner "static-routes"
              [inner "route" [leaf "route-preference" "0042"], opaqueNode, inner "route" []]]],
      inner "ribs" [inner "rib" [leaf "name" "main"], opaqueNode]]

theorem mixedRouter_inRange : PreferencesInRange mixedRouter := by
  refine ⟨fun entry he r hr v hv => ?_, fun entry he r hr => ?_⟩
  · obtain rfl := List.mem_singleton.mp he
    rcases List.mem_cons.mp hr with rfl | hr
    · obtain rfl := Option.some.inj hv
      exact ⟨42, List.all_eq_true.mp (by decide), by decide, by decide⟩
    · obtain rfl := List.mem_singleton.mp hr
      cases hv
  · obtain rfl := List.mem_singleton.mp he
    cases hr

theorem deserialize_entries_mixedRouter :
    ∃ m, IetfRouting.deserializeLoop Reference.findPath [mixedRouter] (some mixedRouter) = .ok m ∧
      List.Forall₂ ProtocolOf
        (entries mixedRouter "control-plane-protocols" "control-plane-protocol")
        m.routing_.control_plane_protocols ∧
      List.Forall₂ RibOf (entries mixedRouter "ribs" "rib") m.routing_.ribs :=
  deserialize_entries rfl (fun ifs h => by cases h) mixedRouter_inRange

end StelleriYang

import StelleriYang.IetfInterfaces

/-!
# The `ietf-routing` model

The C++ classes of `IetfRouting.hpp` and the two functions of `IetfRouting.cpp`. Unlike
`IetfInterfaces::serialize`, the encoder looks at the result of each `lyd_new_path` call and throws
at the first that is an error.

## What is left out

The fields of `NextHop` and of `RouteMetadata`: a route may have them or not, but neither function
looks inside.

## Main definitions

* `Route`, `Rib`, `ControlPlaneProtocol`, `Routing`, `IetfRouting`
* `IetfRouting.serialize`, `IetfRouting.deserialize`
* `routingCalls` — the calls `serialize` makes after the one for the root
* `Routing.NulFree` — the models whose texts reach libyang whole
* `Routing.cut` — a model with its values as libyang gets them

## Main results

* `IetfRouting.serialize_eq` — `serialize` is the call for the root and then `routingCalls`, checked
* `Routing.NulFree.wholeCall` — what the calls for a `NulFree` model hold
* `IetfRouting.serialize_cut` — cutting the values first makes no difference
-/

namespace StelleriYang

open LydNode (named findChild childrenNamed childValue)

/-! ### Data -/

/-- `NextHop`. -/
structure NextHop where
  deriving DecidableEq, Repr

/-- `RouteMetadata`. -/
structure RouteMetadata where
  deriving DecidableEq, Repr

/-- `Route`. -/
structure Route where
  route_preference : Option UInt32 := none
  next_hop : Option NextHop := none
  metadata : Option RouteMetadata := none
  deriving DecidableEq, Repr

/-- `Rib`. -/
structure Rib where
  name : String := ""
  address_family : String := ""
  default_rib : Bool := true
  routes : List Route := []
  description : Option String := none
  deriving DecidableEq, Repr

/-- `ControlPlaneProtocol`. -/
structure ControlPlaneProtocol where
  type : String := ""
  name : String := ""
  description : Option String := none
  static_routes : List Route := []
  deriving DecidableEq, Repr

/-- `Routing`. -/
structure Routing where
  router_id : Option String := none
  interfaces : List String := []
  interfaces_info : List IetfInterface := []
  control_plane_protocols : List ControlPlaneProtocol := []
  ribs : List Rib := []
  deriving DecidableEq, Repr

/-- `IetfRouting`. -/
structure IetfRouting where
  routing_ : Routing := {}
  deriving DecidableEq, Repr

/-! ### Serialization -/

/-- `pred` of a control-plane protocol. -/
def controlPlaneProtocolPath (type name : String) : String :=
  "control-plane-protocols/control-plane-protocol[type='" ++ type ++ "'][name='" ++ name ++ "']"

/-- `pred` of a rib. -/
def ribPath (name : String) : String := "ribs/rib[name='" ++ name ++ "']"

section Serialize

variable {T : Type} (lyd_new_path : NewPath T)

/-- `check_ly_err(ctx, lyd_new_path(root, c, path.c_str(), value.c_str(), 0, &tmp))`. -/
def putChecked (root : Option T) (path value : String) : Except Thrown (Option T) :=
  check_ly_err (lyd_new_path root (Text.cStr path) (some (Text.cStr value)))

def writeRouterId (root : Option T) : Option String → Except Thrown (Option T)
  | some id => putChecked lyd_new_path root "router-id" id
  | none => .ok root

/-- The loops over routes: a route without a preference is passed over. -/
def writeRoute (path : String) (root : Option T) (r : Route) : Except Thrown (Option T) :=
  match r.route_preference with
  | some p => putChecked lyd_new_path root path p.toNat.repr
  | none => .ok root

def writeDescription (pred : String) (root : Option T) :
    Option String → Except Thrown (Option T)
  | some d => putChecked lyd_new_path root (pred ++ "/description") d
  | none => .ok root

/-- The body of the loop over the control-plane protocols. -/
def writeControlPlaneProtocol (root : Option T) (cpp : ControlPlaneProtocol) :
    Except Thrown (Option T) := do
  let pred := controlPlaneProtocolPath cpp.type cpp.name
  let root ← putChecked lyd_new_path root (pred ++ "/type") cpp.type
  let root ← putChecked lyd_new_path root (pred ++ "/name") cpp.name
  let root ← writeDescription lyd_new_path pred root cpp.description
  cpp.static_routes.foldlM
    (writeRoute lyd_new_path (pred ++ "/static-routes/route/route-preference")) root

/-- The body of the loop over the ribs. -/
def writeRib (root : Option T) (rib : Rib) : Except Thrown (Option T) := do
  let pred := ribPath rib.name
  let root ← putChecked lyd_new_path root (pred ++ "/name") rib.name
  let root ← putChecked lyd_new_path root (pred ++ "/address-family") rib.address_family
  let root ← writeDescription lyd_new_path pred root rib.description
  rib.routes.foldlM (writeRoute lyd_new_path (pred ++ "/routes/route/route-preference")) root

/-- `IetfRouting::serialize`. -/
def IetfRouting.serialize (m : IetfRouting) : Except Thrown (Option T) := do
  let r := m.routing_
  let root ← check_ly_err (lyd_new_path none "/ietf-routing:routing" none)
  let root ← writeRouterId lyd_new_path root r.router_id
  let root ← r.interfaces.foldlM
    (fun root ifname => putChecked lyd_new_path root "interfaces/interface" ifname) root
  let root ← r.control_plane_protocols.foldlM (writeControlPlaneProtocol lyd_new_path) root
  r.ribs.foldlM (writeRib lyd_new_path) root

end Serialize

/-! The calls, apart from what they do. -/

/-- The preferences of the routes that have one. -/
def preferences (routes : List Route) : List UInt32 := routes.filterMap Route.route_preference

def routeCalls (path : String) (routes : List Route) : List (String × String) :=
  (preferences routes).map fun p => (path, p.toNat.repr)

def descriptionCalls (pred : String) (description : Option String) : List (String × String) :=
  description.toList.map fun d => (pred ++ "/description", d)

def controlPlaneProtocolCalls (cpp : ControlPlaneProtocol) : List (String × String) :=
  let pred := controlPlaneProtocolPath cpp.type cpp.name
  (pred ++ "/type", cpp.type) :: (pred ++ "/name", cpp.name) ::
    (descriptionCalls pred cpp.description ++
      routeCalls (pred ++ "/static-routes/route/route-preference") cpp.static_routes)

def ribCalls (rib : Rib) : List (String × String) :=
  let pred := ribPath rib.name
  (pred ++ "/name", rib.name) :: (pred ++ "/address-family", rib.address_family) ::
    (descriptionCalls pred rib.description ++
      routeCalls (pred ++ "/routes/route/route-preference") rib.routes)

/-- The calls after the one for the root. -/
def routingCalls (r : Routing) : List (String × String) :=
  (r.router_id.toList.map fun id => ("router-id", id)) ++
    (r.interfaces.map fun ifname => ("interfaces/interface", ifname)) ++
    r.control_plane_protocols.flatMap controlPlaneProtocolCalls ++ r.ribs.flatMap ribCalls

section Calls

variable {T : Type} {lyd_new_path : NewPath T}

theorem foldlM_checkAll {α : Type} (write : Option T → α → Except Thrown (Option T))
    (calls : α → List (String × String))
    (h : ∀ root a, write root a = checkAll lyd_new_path root (calls a)) :
    ∀ (as : List α) (root : Option T),
      as.foldlM write root = checkAll lyd_new_path root (as.flatMap calls) := by
  intro as
  induction as with
  | nil => intro root; rfl
  | cons a as ih =>
    intro root
    rw [List.foldlM_cons, h, List.flatMap_cons, checkAll_append]
    simp only [ih]
    rfl

theorem putChecked_eq (root : Option T) (path value : String) :
    putChecked lyd_new_path root path value = checkAll lyd_new_path root [(path, value)] := by
  rw [checkAll_cons, putChecked]
  cases check_ly_err (lyd_new_path root (Text.cStr path) (some (Text.cStr value))) <;> rfl

theorem foldlM_writeRoute (path : String) (routes : List Route) : ∀ root : Option T,
    routes.foldlM (writeRoute lyd_new_path path) root =
      checkAll lyd_new_path root (routeCalls path routes) := by
  induction routes with
  | nil => intro root; rfl
  | cons r routes ih =>
    intro root
    rw [List.foldlM_cons, funext ih]
    cases h : r.route_preference with
    | none =>
      have hcalls : routeCalls path (r :: routes) = routeCalls path routes := by
        simp [routeCalls, preferences, h]
      rw [writeRoute, h, hcalls]
      rfl
    | some p =>
      have hcalls : routeCalls path (r :: routes) =
          (path, p.toNat.repr) :: routeCalls path routes := by
        simp [routeCalls, preferences, h]
      rw [writeRoute, h, hcalls]
      rfl

theorem writeDescription_eq (pred : String) (root : Option T) (description : Option String) :
    writeDescription lyd_new_path pred root description =
      checkAll lyd_new_path root (descriptionCalls pred description) := by
  cases description with
  | none => rfl
  | some d => exact putChecked_eq root _ d

theorem writeControlPlaneProtocol_eq (root : Option T) (cpp : ControlPlaneProtocol) :
    writeControlPlaneProtocol lyd_new_path root cpp =
      checkAll lyd_new_path root (controlPlaneProtocolCalls cpp) := by
  rw [controlPlaneProtocolCalls, checkAll_cons]
  simp only [checkAll_cons, checkAll_append, writeControlPlaneProtocol, foldlM_writeRoute,
    writeDescription_eq]
  rfl

theorem writeRib_eq (root : Option T) (rib : Rib) :
    writeRib lyd_new_path root rib = checkAll lyd_new_path root (ribCalls rib) := by
  rw [ribCalls, checkAll_cons]
  simp only [checkAll_cons, checkAll_append, writeRib, foldlM_writeRoute, writeDescription_eq]
  rfl

/-- **`serialize` is the call for the root, and then `routingCalls`, each checked.** -/
theorem IetfRouting.serialize_eq (m : IetfRouting) : m.serialize lyd_new_path =
    (check_ly_err (lyd_new_path none "/ietf-routing:routing" none)).bind fun root =>
      checkAll lyd_new_path root (routingCalls m.routing_) := by
  obtain ⟨r⟩ := m
  have hrouter : ∀ root : Option T, writeRouterId lyd_new_path root r.router_id =
      checkAll lyd_new_path root (r.router_id.toList.map fun id => ("router-id", id)) := by
    intro root
    cases r.router_id with
    | none => rfl
    | some id => exact putChecked_eq root _ id
  have hifs : ∀ root : Option T, r.interfaces.foldlM (fun root ifname =>
        putChecked lyd_new_path root "interfaces/interface" ifname) root =
      checkAll lyd_new_path root (r.interfaces.map fun n => ("interfaces/interface", n)) := by
    intro root
    rw [foldlM_checkAll _ (fun n => [("interfaces/interface", n)]) fun root n =>
      putChecked_eq root _ n, ← List.map_eq_flatMap]
  rw [IetfRouting.serialize]
  simp only [routingCalls, checkAll_append, hrouter, hifs,
    foldlM_checkAll _ _ writeControlPlaneProtocol_eq, foldlM_checkAll _ _ writeRib_eq]
  cases check_ly_err (lyd_new_path none "/ietf-routing:routing" none) with
  | error e => rfl
  | ok root =>
    simp only [bind, Except.bind]
    cases checkAll lyd_new_path root (r.router_id.toList.map fun id => ("router-id", id)) with
    | error e => rfl
    | ok root =>
      simp only
      cases checkAll lyd_new_path root (r.interfaces.map fun n => ("interfaces/interface", n)) <;>
        rfl

end Calls

/-! ### Texts -/

/-- The texts of a control-plane protocol that are written. -/
def ControlPlaneProtocol.texts (cpp : ControlPlaneProtocol) : List String :=
  cpp.type :: cpp.name :: cpp.description.toList

/-- The texts of a rib that are written. -/
def Rib.texts (rib : Rib) : List String :=
  rib.name :: rib.address_family :: rib.description.toList

/-- The texts of a model that are written. -/
def Routing.texts (r : Routing) : List String :=
  r.router_id.toList ++ r.interfaces ++
    r.control_plane_protocols.flatMap ControlPlaneProtocol.texts ++ r.ribs.flatMap Rib.texts

/-- No text that is written holds a NUL, so all of them reach libyang whole. -/
def Routing.NulFree (r : Routing) : Prop := ∀ s ∈ r.texts, Text.NulFree s

instance (r : Routing) : Decidable r.NulFree :=
  inferInstanceAs (Decidable (∀ s ∈ r.texts, Text.NulFree s))

theorem wholeCall_descriptionCalls {pred : String} (hpred : Text.NulFree pred)
    {description : Option String} (h : ∀ d ∈ description, Text.NulFree d) :
    ∀ c ∈ descriptionCalls pred description, WholeCall c := by
  intro c hc
  obtain ⟨d, hd, rfl⟩ := List.mem_map.mp hc
  exact ⟨hpred.append (by decide : Text.NulFree "/description"),
    h d (Option.mem_toList.mp hd)⟩

theorem wholeCall_routeCalls {path : String} (hpath : Text.NulFree path) (routes : List Route) :
    ∀ c ∈ routeCalls path routes, WholeCall c := by
  intro c hc
  obtain ⟨p, -, rfl⟩ := List.mem_map.mp hc
  exact ⟨hpath, Text.nulFree_repr _⟩

theorem wholeCall_controlPlaneProtocolCalls {cpp : ControlPlaneProtocol}
    (h : ∀ s ∈ cpp.texts, Text.NulFree s) :
    ∀ c ∈ controlPlaneProtocolCalls cpp, WholeCall c := by
  have htype : Text.NulFree cpp.type := h _ (by simp [ControlPlaneProtocol.texts])
  have hname : Text.NulFree cpp.name := h _ (by simp [ControlPlaneProtocol.texts])
  have hpred : Text.NulFree (controlPlaneProtocolPath cpp.type cpp.name) := by
    delta controlPlaneProtocolPath
    exact ((((by decide : Text.NulFree
      "control-plane-protocols/control-plane-protocol[type='").append htype).append
        (by decide : Text.NulFree "'][name='")).append hname).append
          (by decide : Text.NulFree "']")
  intro c hc
  simp only [controlPlaneProtocolCalls, List.mem_cons, List.mem_append] at hc
  rcases hc with rfl | rfl | hc | hc
  · exact ⟨hpred.append (by decide : Text.NulFree "/type"), htype⟩
  · exact ⟨hpred.append (by decide : Text.NulFree "/name"), hname⟩
  · exact wholeCall_descriptionCalls hpred
      (fun d hd => h d (by simp [ControlPlaneProtocol.texts, Option.mem_def.mp hd])) c hc
  · exact wholeCall_routeCalls (hpred.append
      (by decide : Text.NulFree "/static-routes/route/route-preference")) _ c hc

theorem wholeCall_ribCalls {rib : Rib} (h : ∀ s ∈ rib.texts, Text.NulFree s) :
    ∀ c ∈ ribCalls rib, WholeCall c := by
  have hname : Text.NulFree rib.name := h _ (by simp [Rib.texts])
  have hpred : Text.NulFree (ribPath rib.name) := by
    delta ribPath
    exact ((by decide : Text.NulFree "ribs/rib[name='").append hname).append
      (by decide : Text.NulFree "']")
  intro c hc
  simp only [ribCalls, List.mem_cons, List.mem_append] at hc
  rcases hc with rfl | rfl | hc | hc
  · exact ⟨hpred.append (by decide : Text.NulFree "/name"), hname⟩
  · exact ⟨hpred.append (by decide : Text.NulFree "/address-family"), h _ (by simp [Rib.texts])⟩
  · exact wholeCall_descriptionCalls hpred
      (fun d hd => h d (by simp [Rib.texts, Option.mem_def.mp hd])) c hc
  · exact wholeCall_routeCalls (hpred.append
      (by decide : Text.NulFree "/routes/route/route-preference")) _ c hc

/-- **The calls for a model without NULs** reach libyang as they are. -/
theorem Routing.NulFree.wholeCall {r : Routing} (h : r.NulFree) :
    ∀ c ∈ routingCalls r, WholeCall c := by
  have hmem : ∀ {s}, s ∈ r.router_id.toList ∨ s ∈ r.interfaces ∨
      (∃ cpp ∈ r.control_plane_protocols, s ∈ cpp.texts) ∨ (∃ rib ∈ r.ribs, s ∈ rib.texts) →
      Text.NulFree s := by
    intro s hs
    refine h s ?_
    simpa only [Routing.texts, List.mem_append, List.mem_flatMap, or_assoc] using hs
  intro c hc
  simp only [routingCalls, List.mem_append, List.mem_map, List.mem_flatMap] at hc
  rcases hc with ((⟨id, hid, rfl⟩ | ⟨ifname, hif, rfl⟩) | ⟨cpp, hcpp, hc⟩) | ⟨rib, hrib, hc⟩
  · exact ⟨(by decide : Text.NulFree "router-id"), hmem (.inl hid)⟩
  · exact ⟨(by decide : Text.NulFree "interfaces/interface"), hmem (.inr (.inl hif))⟩
  · exact wholeCall_controlPlaneProtocolCalls
      (fun s hs => hmem (.inr (.inr (.inl ⟨cpp, hcpp, hs⟩)))) c hc
  · exact wholeCall_ribCalls (fun s hs => hmem (.inr (.inr (.inr ⟨rib, hrib, hs⟩)))) c hc

/-! Values, unlike keys, may as well be cut before the model is encoded. -/

/-- A rib with its values as libyang gets them. -/
def Rib.cut (rib : Rib) : Rib :=
  { rib with
    address_family := Text.cStr rib.address_family
    description := rib.description.map Text.cStr }

/-- A model with the values outside of control-plane protocols as libyang gets them. -/
def Routing.cut (r : Routing) : Routing :=
  { r with
    router_id := r.router_id.map Text.cStr
    interfaces := r.interfaces.map Text.cStr
    ribs := r.ribs.map Rib.cut }

theorem Rib.map_cCall_cut (rib : Rib) : (ribCalls rib.cut).map cCall = (ribCalls rib).map cCall := by
  have hdescription (pred : String) : (descriptionCalls pred rib.cut.description).map cCall =
      (descriptionCalls pred rib.description).map cCall := by
    cases hd : rib.description <;> simp [descriptionCalls, Rib.cut, cCall, hd]
  rw [ribCalls, ribCalls]
  simp only [List.map_cons, List.map_append, hdescription]
  simp [Rib.cut, cCall]

theorem Routing.map_cCall_cut (r : Routing) :
    (routingCalls r.cut).map cCall = (routingCalls r).map cCall := by
  have hrouter : (r.cut.router_id.toList.map fun id => ("router-id", id)).map cCall =
      (r.router_id.toList.map fun id => ("router-id", id)).map cCall := by
    cases hid : r.router_id <;> simp [Routing.cut, cCall, hid]
  have hifs : (r.cut.interfaces.map fun n => ("interfaces/interface", n)).map cCall =
      (r.interfaces.map fun n => ("interfaces/interface", n)).map cCall := by
    simp [Routing.cut, cCall]
  have hribs : (r.cut.ribs.flatMap ribCalls).map cCall = (r.ribs.flatMap ribCalls).map cCall := by
    simp only [Routing.cut, List.map_flatMap, List.flatMap_map, Rib.map_cCall_cut]
  rw [routingCalls, routingCalls]
  simp only [List.map_append, hrouter, hifs, hribs]
  rfl

/-- **`serialize` gives the same for the model with its values cut.** -/
theorem IetfRouting.serialize_cut {T : Type} (lyd_new_path : NewPath T) (r : Routing) :
    (IetfRouting.mk r.cut).serialize lyd_new_path = (IetfRouting.mk r).serialize lyd_new_path := by
  rw [IetfRouting.serialize_eq, IetfRouting.serialize_eq]
  refine congrArg _ (funext fun root => ?_)
  rw [← checkAll_map_cCall, Routing.map_cCall_cut, checkAll_map_cCall]

/-- What is left then to assume of a model without control-plane protocols. -/
theorem Routing.nulFree_cut {r : Routing} (hcpp : r.control_plane_protocols = [])
    (hribs : ∀ rib ∈ r.ribs, Text.NulFree rib.name) : r.cut.NulFree := by
  intro s hs
  simp only [Routing.texts, Routing.cut, hcpp, List.mem_append, List.flatMap_nil,
    List.not_mem_nil, or_false, List.mem_flatMap, List.mem_map] at hs
  rcases hs with (hid | ⟨n, -, rfl⟩) | ⟨_, ⟨rib, hrib, rfl⟩, hs⟩
  · obtain ⟨id, -, rfl⟩ := Option.map_eq_some_iff.mp (Option.mem_toList.mp hid)
    exact Text.nulFree_cStr id
  · exact Text.nulFree_cStr n
  · simp only [Rib.texts, Rib.cut, List.mem_cons] at hs
    rcases hs with rfl | rfl | hd
    · exact hribs rib hrib
    · exact Text.nulFree_cStr _
    · obtain ⟨d, -, rfl⟩ := Option.map_eq_some_iff.mp (Option.mem_toList.mp hd)
      exact Text.nulFree_cStr d

/-! ### Deserialization -/

/-- `sv.substr(sv.find(':') + 1)`, if there is a colon. -/
def stripIdentityPrefix (sv : String) : String :=
  match Text.splitFirst ':' sv with
  | some (_, b) => b
  | none => sv

/-- The children of a container with a given name, if the container is there. -/
def entries (parent : LydNode) (container entry : String) : List LydNode :=
  match findChild parent container with
  | some n => childrenNamed n entry
  | none => []

/-- The body of the loops over `route` entries. -/
def readRoute (r : LydNode) : Except Thrown Route := do
  let route_preference ← readUInt32 (childValue r "route-preference")
  .ok { route_preference }

/-- The body of the loop over the control-plane protocols. -/
def readControlPlaneProtocol (entry : LydNode) : Except Thrown ControlPlaneProtocol := do
  let static_routes ← (entries entry "static-routes" "route").mapM readRoute
  .ok {
    type := ((childValue entry "type").map stripIdentityPrefix).getD ""
    name := (childValue entry "name").getD ""
    description := childValue entry "description"
    static_routes }

/-- The body of the loop over the ribs. -/
def readRib (entry : LydNode) : Except Thrown Rib := do
  let routes ← (entries entry "routes" "route").mapM readRoute
  .ok {
    name := (childValue entry "name").getD ""
    address_family := ((childValue entry "address-family").map stripIdentityPrefix).getD ""
    description := childValue entry "description"
    routes }

/-- The model at the top-level `interfaces` container, if there is one. -/
def readInterfacesInfo (lyd_find_path : FindPath) (top : List LydNode) :
    Except Thrown IetfInterfaces :=
  match matched (lyd_find_path top "/ietf-interfaces:interfaces") with
  | some ifs_tree => IetfInterfaces.deserialize lyd_find_path top (some ifs_tree)
  | none => .ok {}

/-- The `routing` node: the entry node if that is its name, or the one at the top. -/
def findRouting (lyd_find_path : FindPath) (top : List LydNode) (tree : LydNode) :
    Option LydNode :=
  if named "routing" tree then some tree
  else matched (lyd_find_path top "/ietf-routing:routing")

/-- A name is appended unless it is there already. -/
def appendName (names : List String) (val : String) : List String :=
  if val ∈ names then names else names ++ [val]

/-- What is read below the `routing` node, after the interfaces. -/
def readRouting (ifs_model : IetfInterfaces) (rt : LydNode) : Except Thrown IetfRouting := do
  let names := (entries rt "interfaces" "interface").filterMap DataTree.Tree.value
  let control_plane_protocols ←
    (entries rt "control-plane-protocols" "control-plane-protocol").mapM readControlPlaneProtocol
  let ribs ← (entries rt "ribs" "rib").mapM readRib
  .ok ⟨{
    router_id := childValue rt "router-id"
    interfaces := names.foldl appendName (ifs_model.ifs_.map IetfInterface.name)
    interfaces_info := ifs_model.ifs_
    control_plane_protocols
    ribs }⟩

/-- `IetfRouting::deserialize`: `top` are the siblings of the entry node `tree`. -/
def IetfRouting.deserialize (lyd_find_path : FindPath) (top : List LydNode)
    (tree : Option LydNode) : Except Thrown IetfRouting :=
  match tree with
  | none => .error .yangDataError
  | some tree => do
    let ifs_model ← readInterfacesInfo lyd_find_path top
    match findRouting lyd_find_path top tree with
    | none => .error .yangDataError
    | some rt => readRouting ifs_model rt

theorem readInterfacesInfo_eq_elim (lyd_find_path : FindPath) (top : List LydNode) :
    readInterfacesInfo lyd_find_path top =
      (matched (lyd_find_path top "/ietf-interfaces:interfaces")).elim (.ok {})
        fun ifs => IetfInterfaces.deserialize lyd_find_path top (some ifs) := by
  rw [readInterfacesInfo]
  cases matched (lyd_find_path top "/ietf-interfaces:interfaces") <;> rfl

theorem IetfRouting.deserialize_eq_elim (lyd_find_path : FindPath) (top : List LydNode)
    (tree : Option LydNode) : IetfRouting.deserialize lyd_find_path top tree =
      tree.elim (.error .yangDataError) fun tree =>
        readInterfacesInfo lyd_find_path top >>= fun ifs_model =>
          (findRouting lyd_find_path top tree).elim (.error .yangDataError)
            (readRouting ifs_model) := by
  cases tree with
  | none => rfl
  | some tree =>
    rw [IetfRouting.deserialize, Option.elim_some]
    refine congrArg _ (funext fun ifs_model => ?_)
    cases findRouting lyd_find_path top tree <;> rfl

end StelleriYang

import StelleriYang.Lib.Prune
import StelleriYang.Reference

/-!
# Nodes of other modules

The decoders look children up by the local name of their schema node and never look at its module.
So a node that another module has added to an interface is read if it has a name the decoder looks
for, and the decoder comes to it: if it is the first child of that name, or an entry of a list the
decoder runs through. What is settled here is that this is the only way: any other subtree of
another module can be deleted, at the top and at any depth, and the outcome is the same.

## Main definitions

* `foreign` — what another module defines
* `interfacesReads`, `routingReads` — what the decoders look for, as data
* `interfacesDecoder`, `routingDecoder` — the same for whole forests
* `DataForest` — top-level siblings
* `DataForest.prune` — the forest without the foreign subtrees a decoder does not look at
* `DataForest.native` — the forest without any foreign subtree

## Main results

* `readInterface_prune`, `readRouting_prune` — what is deleted makes no difference to what is read
* `deserialize_eq_of_prune_eq`
* `vendorDescription_read` — a foreign node that is looked at
-/

namespace StelleriYang

open DataTree (Tree Reads Take)
open LydNode (named findChild childrenNamed childValue)
open Interfaces (ifName ipName)
open Routing (rtName)

/-- Defined by another module than `ietf-interfaces`, `ietf-ip` and `ietf-routing`, or by none. -/
def foreign (label : Option QName) : Bool :=
  label.all fun q => decide (q.module ∉ ["ietf-interfaces", "ietf-ip", "ietf-routing"])

/-! ### What the decoders look for -/

/-- Leaves of which the first is taken. -/
def leaves (names : List String) : List (String × Take × Reads String) :=
  names.map fun k => (k, .first, .nothing)

/-- Leaf-lists. -/
def leafLists (names : List String) : List (String × Take × Reads String) :=
  names.map fun k => (k, .all, .nothing)

def addressReads : Reads String := .node (leaves ["ip", "prefix-length"])

def ipReads : Reads String := .node (("address", .all, addressReads) :: leaves ["mtu"])

def statisticsReads : Reads String := .node (leaves ["discontinuity-time"])

def interfaceReads : Reads String :=
  .node ([("statistics", .first, statisticsReads), ("ipv4", .first, ipReads),
      ("ipv6", .first, ipReads)] ++
    leaves ["name", "description", "type", "enabled", "admin-status", "oper-status",
      "last-change", "if-index", "phys-address"] ++
    leafLists ["higher-layer-if", "lower-layer-if"])

def interfacesReads : Reads String := .node [("interface", .all, interfaceReads)]

def routeReads : Reads String := .node (leaves ["route-preference"])

def routesReads : Reads String := .node [("route", .all, routeReads)]

def protocolReads : Reads String :=
  .node (("static-routes", .first, routesReads) :: leaves ["type", "name", "description"])

def ribReads : Reads String :=
  .node (("routes", .first, routesReads) :: leaves ["name", "address-family", "description"])

def routingReads : Reads String :=
  .node ([("interfaces", .first, .node (leafLists ["interface"])),
      ("control-plane-protocols", .first, .node [("control-plane-protocol", .all, protocolReads)]),
      ("ribs", .first, .node [("rib", .all, ribReads)])] ++
    leaves ["router-id"])

/-! ### Reading a pruned node -/

/-- The node without the foreign subtrees that are not looked at. -/
def LydNode.prune (r : Reads String) (n : LydNode) : LydNode :=
  Tree.prune (Option.map QName.name) foreign r n

open LydNode (prune)

section Lookup

variable {r : Reads String} {k : String}

theorem findChild_prune (h : r.takes (some k) = some .first) (n : LydNode) :
    findChild (prune r n) k = (findChild n k).map (prune (r.beneath (some k))) :=
  DataTree.find?_children_prune h n

theorem childrenNamed_prune (h : r.takes (some k) = some .all) (n : LydNode) :
    childrenNamed (prune r n) k = (childrenNamed n k).map (prune (r.beneath (some k))) :=
  DataTree.filter_children_prune h n

theorem value_prune (r : Reads String) (n : LydNode) : (prune r n).value = n.value :=
  Tree.value_prune r n

theorem childValue_prune (h : r.takes (some k) = some .first) (n : LydNode) :
    childValue (prune r n) k = childValue n k := by
  rw [childValue, findChild_prune h, Option.bind_map]
  exact congrArg (Option.bind _) (funext fun c => value_prune _ c)

/-- The values of a leaf-list. -/
theorem values_prune (h : r.takes (some k) = some .all) (n : LydNode) :
    (childrenNamed (prune r n) k).filterMap Tree.value =
      (childrenNamed n k).filterMap Tree.value := by
  rw [childrenNamed_prune h, List.filterMap_map]
  exact congrArg (List.filterMap · _) (funext fun c => value_prune _ c)

/-- A traversal of the entries of a list. -/
theorem mapM_prune {α : Type} {read : LydNode → Except Thrown α} (h : r.takes (some k) = some .all)
    (hread : ∀ c, read (prune (r.beneath (some k)) c) = read c) (n : LydNode) :
    (childrenNamed (prune r n) k).mapM read = (childrenNamed n k).mapM read := by
  rw [childrenNamed_prune h, List.mapM_map]
  exact congrArg (List.mapM · _) (funext hread)

end Lookup

theorem readAddress_prune (n : LydNode) : readAddress (prune addressReads n) = readAddress n := by
  have hip : childValue (prune addressReads n) "ip" = childValue n "ip" :=
    childValue_prune (by decide) n
  have hlen : childValue (prune addressReads n) "prefix-length" = childValue n "prefix-length" :=
    childValue_prune (by decide) n
  rw [readAddress, readAddress, hip, hlen]

theorem readIp_prune (n : Option LydNode) : readIp (n.map (prune ipReads)) = readIp n := by
  cases n with
  | none => rfl
  | some n =>
    have hmtu : childValue (prune ipReads n) "mtu" = childValue n "mtu" :=
      childValue_prune (by decide) n
    have haddress : (childrenNamed (prune ipReads n) "address").filterMap readAddress =
        (childrenNamed n "address").filterMap readAddress := by
      rw [childrenNamed_prune (by decide), List.filterMap_map]
      exact congrArg (List.filterMap · _) (funext readAddress_prune)
    rw [Option.map_some, readIp, readIp, hmtu, haddress]

theorem readInterface_prune (ch : LydNode) :
    readInterface (prune interfaceReads ch) = readInterface ch := by
  have hfamily : ∀ f, interfaceReads.takes (some f) = some .first →
      interfaceReads.beneath (some f) = ipReads →
      readIp (findChild (prune interfaceReads ch) f) = readIp (findChild ch f) := by
    intro f htakes hbeneath
    rw [findChild_prune htakes, hbeneath, readIp_prune]
  have hstatistics : ((findChild (prune interfaceReads ch) "statistics").bind fun n =>
        childValue n "discontinuity-time") =
      (findChild ch "statistics").bind fun n => childValue n "discontinuity-time" := by
    rw [findChild_prune (by decide), Option.bind_map]
    exact congrArg (Option.bind _) (funext fun n => childValue_prune (by decide) n)
  rw [readInterface, readInterface]
  rw [hfamily "ipv4" (by decide) rfl, hfamily "ipv6" (by decide) rfl, hstatistics]
  simp (disch := decide) only [childValue_prune, values_prune]

theorem readRoute_prune (r : LydNode) : readRoute (prune routeReads r) = readRoute r := by
  rw [readRoute, readRoute, childValue_prune (by decide)]

/-- The entries of a list in a container. -/
theorem mapM_entries_prune {α : Type} {read : LydNode → Except Thrown α} {r : Reads String}
    {container entry : String} (hc : r.takes (some container) = some .first)
    (he : (r.beneath (some container)).takes (some entry) = some .all)
    (hread : ∀ c, read (prune ((r.beneath (some container)).beneath (some entry)) c) = read c)
    (n : LydNode) :
    (entries (prune r n) container entry).mapM read = (entries n container entry).mapM read := by
  rw [entries, entries, findChild_prune hc]
  cases findChild n container with
  | none => rfl
  | some c => exact mapM_prune he hread c

theorem readControlPlaneProtocol_prune (entry : LydNode) :
    readControlPlaneProtocol (prune protocolReads entry) = readControlPlaneProtocol entry := by
  rw [readControlPlaneProtocol, readControlPlaneProtocol,
    mapM_entries_prune (by decide) (by decide) readRoute_prune]
  simp (disch := decide) only [childValue_prune]

theorem readRib_prune (entry : LydNode) : readRib (prune ribReads entry) = readRib entry := by
  rw [readRib, readRib, mapM_entries_prune (by decide) (by decide) readRoute_prune]
  simp (disch := decide) only [childValue_prune]

theorem readInterfaces_prune (ifs : LydNode) :
    readInterfaces (prune interfacesReads ifs) = readInterfaces ifs := by
  rw [readInterfaces, readInterfaces, mapM_prune (by decide) readInterface_prune]

theorem readRouting_prune (ifs_model : IetfInterfaces) (rt : LydNode) :
    readRouting ifs_model (prune routingReads rt) = readRouting ifs_model rt := by
  have hnames : (entries (prune routingReads rt) "interfaces" "interface").filterMap Tree.value =
      (entries rt "interfaces" "interface").filterMap Tree.value := by
    rw [entries, entries, findChild_prune (by decide)]
    cases findChild rt "interfaces" with
    | none => rfl
    | some c => exact values_prune (by decide) c
  rw [readRouting, readRouting, hnames, childValue_prune (by decide),
    mapM_entries_prune (by decide) (by decide) readControlPlaneProtocol_prune,
    mapM_entries_prune (by decide) (by decide) readRib_prune]

/-! ### Forests -/

def interfacesRoot : QName := ifName "interfaces"

def routingRoot : QName := rtName "routing"

/-- Top-level siblings. A container is there at most once. -/
structure DataForest where
  top : List LydNode
  interfaces_once : (top.filter fun n => n.label == some interfacesRoot).length ≤ 1
  routing_once : (top.filter fun n => n.label == some routingRoot).length ≤ 1

namespace DataForest

/-- The forest without the foreign subtrees at the top, and without those below that a decoder does
not look at. -/
def prune (F : DataForest) (reads : QName → Reads String) : List LydNode :=
  (F.top.filter fun n => !foreign n.label).map fun n =>
    LydNode.prune (n.label.elim .nothing reads) n

/-- The forest without foreign subtrees. -/
def native (F : DataForest) : List LydNode := F.prune fun _ => .nothing

/-- The top-level node of a module. -/
def find (F : DataForest) (q : QName) : Option LydNode := F.top.find? fun n => n.label == some q

/-- A node to hand to a decoder that looks for `q`: one at the top, and not one of another module
that has the same name. -/
structure Entry (F : DataForest) (q : QName) (tree : LydNode) : Prop where
  mem : tree ∈ F.top
  own : named q.name tree = true → tree.label = some q

theorem label_of_find {F : DataForest} {q : QName} {n : LydNode} (h : F.find q = some n) :
    n.label = some q := by
  simpa using List.find?_some h

/-- The top-level node of a module stays, pruned. -/
theorem find_prune (F : DataForest) {q : QName} (hq : foreign (some q) = false)
    (reads : QName → Reads String) :
    ((F.prune reads).find? fun n => n.label == some q) =
      (F.find q).map (LydNode.prune (reads q)) := by
  have hfind : ((F.top.filter fun n => !foreign n.label).find? fun n =>
      (LydNode.prune (n.label.elim .nothing reads) n).label == some q) = F.find q := by
    rw [find, List.find?_filter]
    refine congrArg (List.find? · _) (funext fun n => ?_)
    rw [LydNode.prune, Tree.label_prune]
    by_cases hn : n.label = some q
    · simp [hn, hq]
    · simp [hn]
  rw [prune, List.find?_map]
  simp only [Function.comp_def, hfind]
  cases hq : F.find q with
  | none => rfl
  | some n =>
    rw [Option.map_some, Option.map_some, label_of_find hq]
    rfl

/-- Reading the top-level node of a module, in the pruned forest. -/
theorem elim_find_prune {α : Type} {read : LydNode → α} (F : DataForest) {q : QName}
    (reads : QName → Reads String) (hq : foreign (some q) = false)
    (hread : ∀ n, read (LydNode.prune (reads q) n) = read n) (a : α) :
    ((F.prune reads).find? fun n => n.label == some q).elim a read = (F.find q).elim a read := by
  rw [F.find_prune hq, Option.elim_map]
  exact congrArg (Option.elim _ a) (funext hread)

/-- A top-level node that is there once is found. -/
theorem find_eq_of_mem {F : DataForest} {q : QName} {tree : LydNode}
    (honce : (F.top.filter fun n => n.label == some q).length ≤ 1) (hmem : tree ∈ F.top)
    (hlabel : tree.label = some q) : F.find q = some tree := by
  rw [find, ← List.head?_filter]
  have hmem' : tree ∈ F.top.filter fun n => n.label == some q :=
    List.mem_filter.mpr ⟨hmem, by simp [hlabel]⟩
  obtain ⟨n, hn⟩ : ∃ n, (F.top.filter fun n => n.label == some q) = [n] := by
    refine List.length_eq_one_iff.mp ?_
    have := List.length_pos_of_mem hmem'
    omega
  rw [hn] at hmem' ⊢
  rw [List.mem_singleton.mp hmem']
  rfl

end DataForest

/-! ### Decoding a forest -/

section Decode

variable {lyd_find_path : FindPath}

theorem matched_interfaces (h : FindPath.Lawful lyd_find_path) (F : DataForest) :
    matched (lyd_find_path F.top "/ietf-interfaces:interfaces") = F.find interfacesRoot :=
  h.matched_eq (q := interfacesRoot) (show PathText.IsIdent "ietf-interfaces" by decide) F.top

theorem matched_routing (h : FindPath.Lawful lyd_find_path) (F : DataForest) :
    matched (lyd_find_path F.top "/ietf-routing:routing") = F.find routingRoot :=
  h.matched_eq (q := routingRoot) (show PathText.IsIdent "ietf-routing" by decide) F.top

/-- Whatever the entry node, the decoder reads the `interfaces` of `ietf-interfaces`. -/
theorem deserialize_interfaces_eq (h : FindPath.Lawful lyd_find_path) {F : DataForest}
    {tree : LydNode} (he : F.Entry interfacesRoot tree) :
    IetfInterfaces.deserialize lyd_find_path F.top (some tree) =
      (F.find interfacesRoot).elim (.error .yangDataError) readInterfaces := by
  have hfind : findInterfaces lyd_find_path F.top tree = F.find interfacesRoot := by
    rw [findInterfaces, matched_interfaces h]
    split
    · rename_i hn
      exact (DataForest.find_eq_of_mem F.interfaces_once he.mem (he.own hn)).symm
    · rfl
  rw [IetfInterfaces.deserialize, Option.bind_some, hfind]
  cases F.find interfacesRoot <;> rfl

theorem readInterfacesInfo_eq (h : FindPath.Lawful lyd_find_path) (F : DataForest) :
    readInterfacesInfo lyd_find_path F.top =
      (F.find interfacesRoot).elim (.ok {}) readInterfaces := by
  rw [readInterfacesInfo, matched_interfaces h]
  cases hfind : F.find interfacesRoot with
  | none => rfl
  | some ifs =>
    have he : F.Entry interfacesRoot ifs :=
      ⟨List.mem_of_find?_eq_some hfind, fun _ => DataForest.label_of_find hfind⟩
    rw [Option.elim_some]
    simp only
    rw [deserialize_interfaces_eq h he, hfind, Option.elim_some]

/-- Whatever the entry node, the decoder reads the `routing` of `ietf-routing`. -/
theorem deserialize_routing_eq (h : FindPath.Lawful lyd_find_path) {F : DataForest}
    {tree : LydNode} (he : F.Entry routingRoot tree) :
    IetfRouting.deserialize lyd_find_path F.top (some tree) =
      ((F.find interfacesRoot).elim (.ok {}) readInterfaces).bind fun ifs_model =>
        (F.find routingRoot).elim (.error .yangDataError) (readRouting ifs_model) := by
  have hfind : findRouting lyd_find_path F.top tree = F.find routingRoot := by
    rw [findRouting, matched_routing h]
    split
    · rename_i hn
      exact (DataForest.find_eq_of_mem F.routing_once he.mem (he.own hn)).symm
    · rfl
  rw [IetfRouting.deserialize, hfind, readInterfacesInfo_eq h]
  cases F.find routingRoot <;> rfl

/-! ### Two forests -/

/-- What `IetfInterfaces::deserialize` looks for below the top-level nodes. -/
def interfacesDecoder (q : QName) : Reads String :=
  if q = interfacesRoot then interfacesReads else .nothing

/-- What `IetfRouting::deserialize` looks for below the top-level nodes. -/
def routingDecoder (q : QName) : Reads String :=
  if q = interfacesRoot then interfacesReads
  else if q = routingRoot then routingReads
  else .nothing

/-- **Foreign subtrees that a decoder does not look at make no difference**, on any two forests that
are the same without them, with either container there at most once.

The entry nodes are any at the top, but for one of another module that has the name of the
container, and libyang finds a top-level node by its path. -/
theorem deserialize_eq_of_prune_eq (h : FindPath.Lawful lyd_find_path) (F F' : DataForest)
    (tree tree' : LydNode) :
    (F.prune interfacesDecoder = F'.prune interfacesDecoder →
      F.Entry interfacesRoot tree → F'.Entry interfacesRoot tree' →
      IetfInterfaces.deserialize lyd_find_path F.top (some tree) =
        IetfInterfaces.deserialize lyd_find_path F'.top (some tree')) ∧
    (F.prune routingDecoder = F'.prune routingDecoder →
      F.Entry routingRoot tree → F'.Entry routingRoot tree' →
      IetfRouting.deserialize lyd_find_path F.top (some tree) =
        IetfRouting.deserialize lyd_find_path F'.top (some tree')) := by
  constructor
  · intro heq he he'
    have hifs := fun G : DataForest =>
      G.elim_find_prune (q := interfacesRoot) interfacesDecoder (by decide) readInterfaces_prune
        (.error .yangDataError)
    rw [deserialize_interfaces_eq h he, deserialize_interfaces_eq h he', ← hifs F, ← hifs F', heq]
  · intro heq he he'
    have hifs := fun G : DataForest =>
      G.elim_find_prune (q := interfacesRoot) routingDecoder (by decide) readInterfaces_prune
        (.ok {})
    have hrt := fun (G : DataForest) (ifs_model : IetfInterfaces) =>
      G.elim_find_prune (q := routingRoot) routingDecoder (by decide)
        (readRouting_prune ifs_model) (.error .yangDataError)
    rw [deserialize_routing_eq h he, deserialize_routing_eq h he', ← hifs F, ← hifs F', heq]
    refine congrArg _ (funext fun ifs_model => ?_)
    rw [← hrt F, ← hrt F', heq]

end Decode

/-- A node of a module that adds nodes of its own. -/
def vendorLeaf (name v : String) : LydNode := LydNode.leaf ⟨"vendor", name⟩ v

/-- An interface `eth0` with further leaves. -/
def eth0With (more : List LydNode) : LydNode :=
  LydNode.inner interfacesRoot
    [LydNode.inner (ifName "interface") (LydNode.leaf (ifName "name") "eth0" :: more)]

/-- A router with further leaves. -/
def routerWith (more : List LydNode) : LydNode :=
  LydNode.inner routingRoot (LydNode.leaf (rtName "router-id") "192.0.2.1" :: more)

def plainForest : DataForest where
  top := [eth0With [LydNode.leaf (ifName "description") "uplink"], routerWith []]
  interfaces_once := by decide
  routing_once := by decide

/-- With leaves of another module: one that is not looked for, two that stand behind a leaf of the
same name, and one at the top. -/
def vendorForest : DataForest where
  top := [vendorLeaf "interfaces" "none",
    eth0With [LydNode.leaf (ifName "description") "uplink", vendorLeaf "description" "red",
      vendorLeaf "colour" "red"],
    routerWith [vendorLeaf "router-id" "0"]]
  interfaces_once := by decide
  routing_once := by decide

theorem deserialize_vendorForest_eq :
    IetfInterfaces.deserialize Reference.findPath vendorForest.top
        (some (routerWith [vendorLeaf "router-id" "0"])) =
      IetfInterfaces.deserialize Reference.findPath plainForest.top (some (routerWith [])) ∧
    IetfRouting.deserialize Reference.findPath vendorForest.top
        (some (routerWith [vendorLeaf "router-id" "0"])) =
      IetfRouting.deserialize Reference.findPath plainForest.top (some (routerWith [])) := by
  have both := deserialize_eq_of_prune_eq Reference.findPath_lawful vendorForest plainForest
    (routerWith [vendorLeaf "router-id" "0"]) (routerWith [])
  exact ⟨both.1 rfl ⟨by simp [vendorForest], fun h => absurd h (by decide)⟩
      ⟨by simp [plainForest], fun h => absurd h (by decide)⟩,
    both.2 rfl ⟨by simp [vendorForest], fun _ => rfl⟩ ⟨by simp [plainForest], fun _ => rfl⟩⟩

/-- Forests of one interface, without a description and with a description of another module. -/
def undescribedForest : DataForest where
  top := [eth0With []]
  interfaces_once := by decide
  routing_once := by decide

def vendorDescribedForest : DataForest where
  top := [eth0With [vendorLeaf "description" "red"]]
  interfaces_once := by decide
  routing_once := by decide

theorem deserialize_undescribedForest :
    IetfInterfaces.deserialize Reference.findPath undescribedForest.top (some (eth0With [])) =
      .ok ⟨[{ name := "eth0" }]⟩ := rfl

theorem deserialize_vendorDescribedForest :
    IetfInterfaces.deserialize Reference.findPath vendorDescribedForest.top
        (some (eth0With [vendorLeaf "description" "red"])) =
      .ok ⟨[{ name := "eth0", description := some "red" }]⟩ := rfl

/-- A leaf of another module that is the first of a name the decoder looks for is read. -/
theorem vendorDescription_read : FindPath.Lawful Reference.findPath ∧
    undescribedForest.native = vendorDescribedForest.native ∧
    undescribedForest.Entry interfacesRoot (eth0With []) ∧
    vendorDescribedForest.Entry interfacesRoot (eth0With [vendorLeaf "description" "red"]) ∧
    IetfInterfaces.deserialize Reference.findPath undescribedForest.top (some (eth0With [])) ≠
      IetfInterfaces.deserialize Reference.findPath vendorDescribedForest.top
        (some (eth0With [vendorLeaf "description" "red"])) := by
  refine ⟨Reference.findPath_lawful, rfl, ⟨by simp [undescribedForest], fun _ => rfl⟩,
    ⟨by simp [vendorDescribedForest], fun _ => rfl⟩, ?_⟩
  rw [deserialize_undescribedForest, deserialize_vendorDescribedForest]
  intro h
  cases h

end StelleriYang

import StelleriYang.Foreign
import StelleriYang.Lib.Shuffle

/-!
# The order of siblings

A document may list the children of a node in any order, as long as the entries of one list keep
theirs. The decoders run through the children of a node and compare names, some of them in one pass
for two lists (`higher-layer-if` and `lower-layer-if`), others once for each name. What they make of
a document is the same in every such order, exceptions included: also where a document is wrong in
several places, the one that is complained about does not depend on the order.

## Main definitions

* `parseXml`, `decodeXml` — from a text to a model
* `FirstIsNative` — no other module takes the first node's name

## Main results

* `readInterface_alike`, `readRouting_alike` — nodes that differ in the order of their children
* `deserialize_shuffle` — forests that differ in the order of siblings, at the top and below
* `decodeXml_shuffle` — texts, of which the first node is handed to the decoder
-/

namespace StelleriYang

open DataTree (Tree Shuffle Alike)
open Interfaces (ifName)
open LydNode (named findChild childrenNamed childValue)
open Traverse (map_eq_of_forall₂ elim_eq_of_rel bind_eq_of_rel)

/-- The name of a node, none for one without a schema. -/
abbrev nameOf : Option QName → Option String := Option.map QName.name

section Lookup

variable {n n' : LydNode} (h : Alike nameOf n n') (k : String)

theorem nameOf_of_eq {l : Option QName} (h : (nameOf l == some k) = true) : nameOf l = some k :=
  beq_iff_eq.mp h

include h

theorem findChild_alike : Option.Rel (Alike nameOf) (findChild n k) (findChild n' k) :=
  h.children.find? (p := fun l => nameOf l == some k) fun _ => nameOf_of_eq k

theorem childrenNamed_alike :
    List.Forall₂ (Alike nameOf) (childrenNamed n k) (childrenNamed n' k) :=
  h.children.filter (p := fun l => nameOf l == some k) fun _ => nameOf_of_eq k

theorem named_alike : named k n = named k n' := by
  rw [named, named, LydNode.schemaName, LydNode.schemaName, h.label]

theorem childValue_alike : childValue n k = childValue n' k := by
  rw [childValue, childValue]
  exact bind_eq_of_rel (findChild_alike h k) fun _ _ hc => hc.value

/-- What is made of the children of a name, one by one. -/
theorem map_childrenNamed_alike {α : Type} {read : LydNode → α}
    (hread : ∀ c c', Alike nameOf c c' → read c = read c') :
    (childrenNamed n k).map read = (childrenNamed n' k).map read :=
  map_eq_of_forall₂ (childrenNamed_alike h k) hread

end Lookup

/-- A traversal looks at what is made of the elements. -/
theorem mapM_eq_of_map_eq {α : Type} {read : LydNode → Except Thrown α} {xs ys : List LydNode}
    (h : xs.map read = ys.map read) : xs.mapM read = ys.mapM read := by
  have hid : ∀ zs : List LydNode, zs.mapM read = (zs.map read).mapM id :=
    fun zs => by rw [List.mapM_map]; rfl
  rw [hid, hid, h]

theorem filterMap_eq_of_map_eq {α : Type} {read : LydNode → Option α} {xs ys : List LydNode}
    (h : xs.map read = ys.map read) : xs.filterMap read = ys.filterMap read := by
  have hid : ∀ zs : List LydNode, zs.filterMap read = (zs.map read).filterMap id :=
    fun zs => by rw [List.filterMap_map]; rfl
  rw [hid, hid, h]

/-! ### Interfaces -/

theorem readAddress_alike {n n' : LydNode} (h : Alike nameOf n n') :
    readAddress n = readAddress n' := by
  rw [readAddress, readAddress, childValue_alike h "ip", childValue_alike h "prefix-length"]

theorem readIp_alike {n n' : LydNode} (h : Alike nameOf n n') (family : String) :
    readIp (findChild n family) = readIp (findChild n' family) := by
  have helim : ∀ o, readIp o = o.elim (.ok none) fun c => readIp (some c) := by
    intro o
    cases o <;> rfl
  rw [helim, helim (findChild n' family)]
  refine elim_eq_of_rel (findChild_alike h family) fun c c' hc => ?_
  rw [readIp, readIp, childValue_alike hc "mtu", filterMap_eq_of_map_eq
    (map_childrenNamed_alike hc "address" fun _ _ => readAddress_alike)]

/-- The values of a leaf-list. -/
theorem values_alike {n n' : LydNode} (h : Alike nameOf n n') (k : String) :
    (childrenNamed n k).filterMap Tree.value = (childrenNamed n' k).filterMap Tree.value :=
  filterMap_eq_of_map_eq (map_childrenNamed_alike h k fun _ _ => Alike.value)

/-- **An interface is read the same, in whatever order its nodes stand.** -/
theorem readInterface_alike {ch ch' : LydNode} (h : Alike nameOf ch ch') :
    readInterface ch = readInterface ch' := by
  have hstatistics : ((findChild ch "statistics").bind fun n =>
        childValue n "discontinuity-time") =
      (findChild ch' "statistics").bind fun n => childValue n "discontinuity-time" :=
    bind_eq_of_rel (findChild_alike h "statistics")
      fun _ _ hc => childValue_alike hc "discontinuity-time"
  rw [readInterface, readInterface]
  simp only [childValue_alike h, readIp_alike h, values_alike h, hstatistics]

theorem readInterfaces_alike {ifs ifs' : LydNode} (h : Alike nameOf ifs ifs') :
    readInterfaces ifs = readInterfaces ifs' := by
  rw [readInterfaces, readInterfaces, mapM_eq_of_map_eq
    (map_childrenNamed_alike h "interface" fun _ _ => readInterface_alike)]

/-! ### Routing -/

/-- The entries of a list in a container. -/
theorem map_entries_alike {n n' : LydNode} (h : Alike nameOf n n') (container entry : String)
    {α : Type} {read : LydNode → α} (hread : ∀ c c', Alike nameOf c c' → read c = read c') :
    (entries n container entry).map read = (entries n' container entry).map read := by
  have helim : ∀ n, (entries n container entry).map read =
      (findChild n container).elim [] fun c => (childrenNamed c entry).map read := by
    intro n
    rw [entries]
    cases findChild n container <;> rfl
  rw [helim, helim]
  exact elim_eq_of_rel (findChild_alike h container)
    fun _ _ hc => map_childrenNamed_alike hc entry hread

theorem readRoute_alike {n n' : LydNode} (h : Alike nameOf n n') : readRoute n = readRoute n' := by
  rw [readRoute, readRoute, childValue_alike h]

theorem readControlPlaneProtocol_alike {n n' : LydNode} (h : Alike nameOf n n') :
    readControlPlaneProtocol n = readControlPlaneProtocol n' := by
  rw [readControlPlaneProtocol, readControlPlaneProtocol, mapM_eq_of_map_eq
    (map_entries_alike h "static-routes" "route" fun _ _ => readRoute_alike)]
  simp only [childValue_alike h]

theorem readRib_alike {n n' : LydNode} (h : Alike nameOf n n') : readRib n = readRib n' := by
  rw [readRib, readRib, mapM_eq_of_map_eq
    (map_entries_alike h "routes" "route" fun _ _ => readRoute_alike)]
  simp only [childValue_alike h]

/-- **The routing model is read the same, in whatever order its nodes stand.** -/
theorem readRouting_alike (ifs_model : IetfInterfaces) {rt rt' : LydNode}
    (h : Alike nameOf rt rt') : readRouting ifs_model rt = readRouting ifs_model rt' := by
  rw [readRouting, readRouting, childValue_alike h,
    filterMap_eq_of_map_eq (map_entries_alike h "interfaces" "interface" fun _ _ => Alike.value),
    mapM_eq_of_map_eq (map_entries_alike h "control-plane-protocols" "control-plane-protocol"
      fun _ _ => readControlPlaneProtocol_alike),
    mapM_eq_of_map_eq (map_entries_alike h "ribs" "rib" fun _ _ => readRib_alike)]

/-! ### Forests -/

section Forests

variable {lyd_find_path : FindPath} {top top' : List LydNode} {tree tree' : LydNode}

/-- The first node of a schema, in both forests. -/
theorem find?_shuffle (htop : Shuffle nameOf top top') (q : QName) :
    Option.Rel (Alike nameOf) (top.find? fun c => c.label == some q)
      (top'.find? fun c => c.label == some q) := by
  refine htop.find? (p := fun l => l == some q) (k := q.name) fun l hl => ?_
  rw [beq_iff_eq.mp hl]
  rfl

/-- A top-level node that is found by its path is found in the other forest. -/
theorem matched_shuffle (hf : FindPath.Lawful lyd_find_path) (htop : Shuffle nameOf top top')
    {q : QName} (hq : PathText.IsIdent q.module) :
    Option.Rel (Alike nameOf) (matched (lyd_find_path top ("/" ++ q.module ++ ":" ++ q.name)))
      (matched (lyd_find_path top' ("/" ++ q.module ++ ":" ++ q.name))) := by
  rw [hf.matched_eq hq, hf.matched_eq hq]
  exact find?_shuffle htop q

theorem matched_interfaces_shuffle (hf : FindPath.Lawful lyd_find_path)
    (htop : Shuffle nameOf top top') :
    Option.Rel (Alike nameOf) (matched (lyd_find_path top "/ietf-interfaces:interfaces"))
      (matched (lyd_find_path top' "/ietf-interfaces:interfaces")) :=
  matched_shuffle hf htop (q := interfacesRoot) (show PathText.IsIdent "ietf-interfaces" by decide)

theorem matched_routing_shuffle (hf : FindPath.Lawful lyd_find_path)
    (htop : Shuffle nameOf top top') :
    Option.Rel (Alike nameOf) (matched (lyd_find_path top "/ietf-routing:routing"))
      (matched (lyd_find_path top' "/ietf-routing:routing")) :=
  matched_shuffle hf htop (q := routingRoot) (show PathText.IsIdent "ietf-routing" by decide)

theorem deserialize_interfaces_shuffle (hf : FindPath.Lawful lyd_find_path)
    (htop : Shuffle nameOf top top') (htree : Alike nameOf tree tree') :
    IetfInterfaces.deserialize lyd_find_path top (some tree) =
      IetfInterfaces.deserialize lyd_find_path top' (some tree') := by
  have hfound : Option.Rel (Alike nameOf) (findInterfaces lyd_find_path top tree)
      (findInterfaces lyd_find_path top' tree') := by
    rw [findInterfaces, findInterfaces, named_alike htree]
    split
    · exact .some htree
    · exact matched_interfaces_shuffle hf htop
  rw [IetfInterfaces.deserialize_eq_elim, IetfInterfaces.deserialize_eq_elim]
  exact elim_eq_of_rel hfound fun _ _ => readInterfaces_alike

theorem readInterfacesInfo_shuffle (hf : FindPath.Lawful lyd_find_path)
    (htop : Shuffle nameOf top top') :
    readInterfacesInfo lyd_find_path top = readInterfacesInfo lyd_find_path top' := by
  rw [readInterfacesInfo_eq_elim, readInterfacesInfo_eq_elim]
  exact elim_eq_of_rel (matched_interfaces_shuffle hf htop)
    fun _ _ => deserialize_interfaces_shuffle hf htop

/-- **Both decoders make the same of two forests that differ in the order of siblings of different
names**, at the top and at any depth, and in nodes without a schema, when they are entered at nodes
that differ in no other way. -/
theorem deserialize_shuffle (hf : FindPath.Lawful lyd_find_path) (htop : Shuffle nameOf top top')
    (htree : Alike nameOf tree tree') :
    IetfInterfaces.deserialize lyd_find_path top (some tree) =
        IetfInterfaces.deserialize lyd_find_path top' (some tree') ∧
      IetfRouting.deserialize lyd_find_path top (some tree) =
        IetfRouting.deserialize lyd_find_path top' (some tree') := by
  refine ⟨deserialize_interfaces_shuffle hf htop htree, ?_⟩
  have hfound : Option.Rel (Alike nameOf) (findRouting lyd_find_path top tree)
      (findRouting lyd_find_path top' tree') := by
    rw [findRouting, findRouting, named_alike htree]
    split
    · exact .some htree
    · exact matched_routing_shuffle hf htop
  rw [IetfRouting.deserialize_eq_elim, IetfRouting.deserialize_eq_elim,
    readInterfacesInfo_shuffle hf htop, Option.elim_some, Option.elim_some]
  refine congrArg _ (funext fun ifs_model => ?_)
  exact elim_eq_of_rel hfound fun _ _ => readRouting_alike ifs_model

end Forests

/-- A forest, and the same with the two modules, and the leaves of the interface, in another order
and a node without a schema among them. -/
def orderedForest : List LydNode :=
  [eth0With [LydNode.leaf (ifName "description") "uplink"], routerWith []]

def shuffledForest : List LydNode :=
  [routerWith [],
    LydNode.inner interfacesRoot
      [LydNode.inner (ifName "interface")
        [.node none (some "?") [], LydNode.leaf (ifName "description") "uplink",
          LydNode.leaf (ifName "name") "eth0"]]]

theorem shuffle_orderedForest : Shuffle nameOf orderedForest shuffledForest := by
  have hleaves : Shuffle nameOf
      [LydNode.leaf (ifName "name") "eth0", LydNode.leaf (ifName "description") "uplink"]
      [.node none (some "?") [], LydNode.leaf (ifName "description") "uplink",
        LydNode.leaf (ifName "name") "eth0"] :=
    .trans (.swap (by decide)) (.symm (.skip rfl))
  exact .trans (.cons (.cons hleaves .nil) (.refl _)) (.swap (by decide))

/-- The forests of `orderedForest` and `shuffledForest` decode to the same models. -/
theorem deserialize_shuffle_orderedForest : orderedForest ≠ shuffledForest ∧
    IetfInterfaces.deserialize Reference.findPath orderedForest (some (routerWith [])) =
      IetfInterfaces.deserialize Reference.findPath shuffledForest (some (routerWith [])) ∧
    IetfRouting.deserialize Reference.findPath orderedForest (some (routerWith [])) =
      IetfRouting.deserialize Reference.findPath shuffledForest (some (routerWith [])) := by
  refine ⟨fun h => ?_, deserialize_shuffle Reference.findPath_lawful shuffle_orderedForest
    (.refl (routerWith []))⟩
  have hhead := congrArg (fun top => top.head?.map Tree.label) h
  exact absurd hhead (by decide)

/-! ### Parsed documents -/

/-- `lyd_parse_data_mem` for XML: the text and the flags; the top-level nodes, of which libyang
returns the first. -/
abbrev ParseDataMem := String → UInt32 → LyErr × List LydNode

/-- `YangModel::parseXml`: throws if the text cannot be parsed, or if there is nothing in it. -/
def parseXml (lyd_parse_data_mem : ParseDataMem) (xml : String) (parse_flags : UInt32) :
    Except Thrown (List LydNode) :=
  match lyd_parse_data_mem (Text.cStr xml) parse_flags with
  | (.LY_SUCCESS, n :: ns) => .ok (n :: ns)
  | _ => .error .yangDataError

/-- A decoder, entered at the first node of a text. -/
def decodeXml {M : Type} (lyd_parse_data_mem : ParseDataMem)
    (deserialize : List LydNode → Option LydNode → Except Thrown M) (xml : String)
    (parse_flags : UInt32) : Except Thrown M := do
  let top ← parseXml lyd_parse_data_mem xml parse_flags
  deserialize top top.head?

/-- The first node is one of the two modules if it is called `interfaces` or `routing`: a decoder
takes it by its local name, whatever its module. -/
def FirstIsNative (top : List LydNode) : Prop :=
  ∀ n ∈ top.head?, (named "interfaces" n = true → n.label = some interfacesRoot) ∧
    (named "routing" n = true → n.label = some routingRoot)

section Texts

variable {lyd_find_path : FindPath} {lyd_parse_data_mem : ParseDataMem} {top top' : List LydNode}
  {xml xml' : String} {parse_flags : UInt32}

/-- Entered at the first node, a decoder starts from the first node of its schema. -/
theorem FirstIsNative.found (hfirst : FirstIsNative top) (hf : FindPath.Lawful lyd_find_path)
    {n : LydNode} (hn : n ∈ top.head?) :
    findInterfaces lyd_find_path top n = (top.find? fun c => c.label == some interfacesRoot) ∧
      findRouting lyd_find_path top n = (top.find? fun c => c.label == some routingRoot) := by
  have hhead : ∀ q, n.label = some q → (top.find? fun c => c.label == some q) = some n := by
    intro q hq
    obtain ⟨ns, rfl⟩ := List.head?_eq_some_iff.mp hn
    exact List.find?_cons_of_pos (beq_iff_eq.mpr hq)
  obtain ⟨hi, hr⟩ := hfirst n hn
  constructor
  · rw [findInterfaces]
    split
    · rw [hhead _ (hi ‹_›)]
    · exact hf.matched_eq (q := interfacesRoot) (show PathText.IsIdent "ietf-interfaces" by decide)
        top
  · rw [findRouting]
    split
    · rw [hhead _ (hr ‹_›)]
    · exact hf.matched_eq (q := routingRoot) (show PathText.IsIdent "ietf-routing" by decide) top

/-- A text with nodes at the top is decoded from the first. -/
theorem decodeXml_eq {M : Type} (deserialize : List LydNode → Option LydNode → Except Thrown M)
    {top : List LydNode} (h : parseXml lyd_parse_data_mem xml parse_flags = .ok top) :
    ∃ n ∈ top.head?, decodeXml lyd_parse_data_mem deserialize xml parse_flags =
      deserialize top (some n) := by
  have hdecode : decodeXml lyd_parse_data_mem deserialize xml parse_flags =
      deserialize top top.head? := by rw [decodeXml, h]; rfl
  rw [parseXml] at h
  split at h
  · cases h
    exact ⟨_, rfl, hdecode⟩
  · cases h

/-- **Two texts whose nodes are the same but for their order decode to the same models**, whichever
node comes first and is handed to the decoder, if that is none of another module called `interfaces`
or `routing`. -/
theorem decodeXml_shuffle (hf : FindPath.Lawful lyd_find_path)
    (hparse : parseXml lyd_parse_data_mem xml parse_flags = .ok top)
    (hparse' : parseXml lyd_parse_data_mem xml' parse_flags = .ok top')
    (hfirst : FirstIsNative top) (hfirst' : FirstIsNative top') (h : Shuffle nameOf top top') :
    decodeXml lyd_parse_data_mem (IetfInterfaces.deserialize lyd_find_path) xml parse_flags =
        decodeXml lyd_parse_data_mem (IetfInterfaces.deserialize lyd_find_path) xml' parse_flags ∧
      decodeXml lyd_parse_data_mem (IetfRouting.deserialize lyd_find_path) xml parse_flags =
        decodeXml lyd_parse_data_mem (IetfRouting.deserialize lyd_find_path) xml' parse_flags := by
  constructor
  · obtain ⟨n, hn, hdecode⟩ := decodeXml_eq (IetfInterfaces.deserialize lyd_find_path) hparse
    obtain ⟨n', hn', hdecode'⟩ := decodeXml_eq (IetfInterfaces.deserialize lyd_find_path) hparse'
    rw [hdecode, hdecode', IetfInterfaces.deserialize_eq_elim, IetfInterfaces.deserialize_eq_elim,
      Option.bind_some, Option.bind_some, (hfirst.found hf hn).1, (hfirst'.found hf hn').1]
    exact elim_eq_of_rel (find?_shuffle h interfacesRoot) fun _ _ => readInterfaces_alike
  · obtain ⟨n, hn, hdecode⟩ := decodeXml_eq (IetfRouting.deserialize lyd_find_path) hparse
    obtain ⟨n', hn', hdecode'⟩ := decodeXml_eq (IetfRouting.deserialize lyd_find_path) hparse'
    rw [hdecode, hdecode', IetfRouting.deserialize_eq_elim, IetfRouting.deserialize_eq_elim,
      Option.elim_some, Option.elim_some, readInterfacesInfo_shuffle hf h,
      (hfirst.found hf hn).2, (hfirst'.found hf hn').2]
    refine congrArg _ (funext fun ifs_model => ?_)
    exact elim_eq_of_rel (find?_shuffle h routingRoot) fun _ _ => readRouting_alike ifs_model

end Texts

/-- A parser that knows two texts. -/
def parseTwo : ParseDataMem := fun xml _ =>
  if xml = "<interfaces/><routing/>" then (.LY_SUCCESS, orderedForest)
  else if xml = "<routing/><interfaces/>" then (.LY_SUCCESS, shuffledForest)
  else (.LY_EVALID, [])

theorem decodeXml_shuffle_parseTwo :
    decodeXml parseTwo (IetfInterfaces.deserialize Reference.findPath) "<interfaces/><routing/>" 0 =
        decodeXml parseTwo (IetfInterfaces.deserialize Reference.findPath)
          "<routing/><interfaces/>" 0 ∧
      decodeXml parseTwo (IetfRouting.deserialize Reference.findPath) "<interfaces/><routing/>" 0 =
        decodeXml parseTwo (IetfRouting.deserialize Reference.findPath)
          "<routing/><interfaces/>" 0 := by
  have hfirst : FirstIsNative orderedForest := by
    intro n hn
    cases hn
    exact ⟨fun _ => rfl, fun h => absurd h (by decide)⟩
  have hfirst' : FirstIsNative shuffledForest := by
    intro n hn
    cases hn
    exact ⟨fun h => absurd h (by decide), fun _ => rfl⟩
  exact decodeXml_shuffle Reference.findPath_lawful rfl rfl hfirst hfirst' shuffle_orderedForest

end StelleriYang

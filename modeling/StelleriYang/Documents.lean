import StelleriYang.InterfacesCycles
import StelleriYang.RoutingOutcomes

/-!
# Documents with both modules

A data tree that holds what both encoders return, next to the nodes of other modules. The decoder
of the routing model reads both parts, the interfaces first, and it makes no difference at which
top-level node it is entered, unless that is a node of another module called `interfaces` or
`routing`, which would be taken for the one of the model.

## Main definitions

* `Document` — a forest with both trees
* `Entrance` — the nodes it may be entered at
* `DocumentCycle` — encoding both models and decoding the document

## Main results

* `deserialize_document` — what both decoders make of a document
* `documentCycle_iff`, `document_cycles_stable` — one cycle, and further ones
-/

namespace StelleriYang

open Interfaces
open LydNode (named childrenNamed named_iff)
open Routing (rtName protocolPlace)

/-- A forest with the trees of both models, each the only node of its schema at the top. Nodes of
other modules may stand anywhere and have any names. -/
structure Document (top : List LydNode) (ti tr : LydNode) : Prop where
  interfaces : ti ∈ top
  routing : tr ∈ top
  onlyInterfaces : ∀ n ∈ top, n.label = some (ifName "interfaces") → n = ti
  onlyRouting : ∀ n ∈ top, n.label = some (rtName "routing") → n = tr

/-- A top-level node at which a decoder may be entered: one that is called `interfaces` or `routing`
is the tree of the model, for an entry node is taken by its local name, whatever its module. -/
structure Entrance (top : List LydNode) (ti tr entry : LydNode) : Prop where
  mem : entry ∈ top
  interfaces : named "interfaces" entry = true → entry = ti
  routing : named "routing" entry = true → entry = tr

section Document

variable {lyd_find_path : FindPath} {top : List LydNode} {ti tr entry : LydNode}

/-- A top-level node is found by its path, wherever it stands. -/
theorem find?_top {q : QName} {t : LydNode} (ht : t.label = some q) (hmem : t ∈ top)
    (honly : ∀ n ∈ top, n.label = some q → n = t) :
    top.find? (fun c => c.label == some q) = some t := by
  cases hfind : top.find? fun c => c.label == some q with
  | none => exact absurd ht (by simpa using List.find?_eq_none.mp hfind t hmem)
  | some n =>
    have hn := List.find?_some hfind
    rw [honly n (List.mem_of_find?_eq_some hfind) (by simpa using hn)]

/-- **Both decoders find their parts of a document**, from whichever node they may be entered at. -/
theorem Document.found (hdoc : Document top ti tr) (hf : FindPath.Lawful lyd_find_path)
    (hti : ti.label = some (ifName "interfaces")) (htr : tr.label = some (rtName "routing"))
    (hentry : Entrance top ti tr entry) :
    findInterfaces lyd_find_path top entry = some ti ∧
      matched (lyd_find_path top "/ietf-interfaces:interfaces") = some ti ∧
      findRouting lyd_find_path top entry = some tr := by
  have hpathI : matched (lyd_find_path top "/ietf-interfaces:interfaces") = some ti :=
    (hf.matched_eq (q := ifName "interfaces") (show PathText.IsIdent "ietf-interfaces" by decide)
      top).trans (find?_top hti hdoc.interfaces hdoc.onlyInterfaces)
  have hpathR : matched (lyd_find_path top "/ietf-routing:routing") = some tr :=
    (hf.matched_eq (q := rtName "routing") (show PathText.IsIdent "ietf-routing" by decide)
      top).trans (find?_top htr hdoc.routing hdoc.onlyRouting)
  refine ⟨?_, hpathI, ?_⟩
  · rw [findInterfaces]
    split
    · rw [hentry.interfaces ‹_›]
    · exact hpathI
  · rw [findRouting]
    split
    · rw [hentry.routing ‹_›]
    · exact hpathR

/-- The interfaces are read from the container, whatever stands next to it. -/
theorem deserialize_of_find {t : LydNode} (ht : t.label = some (ifName "interfaces"))
    (hfind : findInterfaces lyd_find_path top entry = some t) :
    IetfInterfaces.deserialize lyd_find_path top (some entry) =
      IetfInterfaces.deserialize lyd_find_path [t] (some t) := by
  have hself : findInterfaces lyd_find_path [t] t = some t := by
    rw [findInterfaces, if_pos (named_iff.mpr ⟨_, ht⟩)]
  simp only [IetfInterfaces.deserialize, Option.bind_some, hfind, hself]

section Trees

variable {S : SchemaTree} {m : IetfInterfaces} {r : Routing} {ns : List LydNode}

/-- The interfaces of a document are read as they are read alone, and the routing model reads them
first. -/
theorem Document.interfaces_eq (hdoc : Document top ti tr) (hf : FindPath.Lawful lyd_find_path)
    (hti : ti.label = some (ifName "interfaces")) (htr : tr.label = some (rtName "routing"))
    (hentry : Entrance top ti tr entry) :
    IetfInterfaces.deserialize lyd_find_path top (some entry) =
        IetfInterfaces.deserialize lyd_find_path [ti] (some ti) ∧
      IetfRouting.deserialize lyd_find_path top (some entry) =
        (IetfInterfaces.deserialize lyd_find_path [ti] (some ti)).bind fun ifs_model =>
          readRouting ifs_model tr := by
  obtain ⟨hfindI, hpath, hfindR⟩ := hdoc.found hf hti htr hentry
  have hinfo : readInterfacesInfo lyd_find_path top =
      IetfInterfaces.deserialize lyd_find_path [ti] (some ti) := by
    rw [readInterfacesInfo, hpath]
    refine deserialize_of_find hti ?_
    rw [findInterfaces, if_pos (named_iff.mpr ⟨_, hti⟩)]
  refine ⟨deserialize_of_find hti hfindI, ?_⟩
  simp only [IetfRouting.deserialize, hinfo, hfindR]
  rfl

/-- **An empty name** makes both decoders throw. -/
theorem Document.error_of_empty (hdoc : Document top ti tr) (hf : FindPath.Lawful lyd_find_path)
    (hti : ti.label = some (ifName "interfaces")) (hperm : ti.children.Perm ns)
    (hall : List.Forall₂ (MergedTree (spellable m.ifs_))
      (FirstOccurrence.appendAllNew [] ((spellable m.ifs_).map IetfInterface.name)) ns)
    (htree : RoutingTree S r tr) (hentry : Entrance top ti tr entry)
    (hempty : "" ∈ m.ifs_.map IetfInterface.name) :
    IetfInterfaces.deserialize lyd_find_path top (some entry) = .error .yangDataError ∧
      IetfRouting.deserialize lyd_find_path top (some entry) = .error .yangDataError := by
  have hread := deserialize_instances lyd_find_path hti hperm hall
  rw [if_pos hempty] at hread
  obtain ⟨hI, hR⟩ := hdoc.interfaces_eq hf hti htree.label hentry
  rw [hI, hR, hread]
  exact ⟨rfl, rfl⟩

/-- **Otherwise both return**, and the routing model holds the same interfaces. -/
theorem Document.ok_of_nonempty (hdoc : Document top ti tr) (hf : FindPath.Lawful lyd_find_path)
    (hti : ti.label = some (ifName "interfaces")) (hperm : ti.children.Perm ns)
    (hall : List.Forall₂ (MergedTree (spellable m.ifs_))
      (FirstOccurrence.appendAllNew [] ((spellable m.ifs_).map IetfInterface.name)) ns)
    (htree : RoutingTree S r tr) (hentry : Entrance top ti tr entry)
    (hempty : "" ∉ m.ifs_.map IetfInterface.name) :
    ∃ its s, its.Perm (survivors m) ∧ RoutingReadBack S r its s ∧
      IetfInterfaces.deserialize lyd_find_path top (some entry) = .ok ⟨its⟩ ∧
        IetfRouting.deserialize lyd_find_path top (some entry) = .ok ⟨s⟩ := by
  have hread := deserialize_instances lyd_find_path hti hperm hall
  rw [if_neg hempty] at hread
  obtain ⟨⟨its⟩, hits, hsurvivors⟩ := hread
  obtain ⟨⟨s⟩, hs, hback⟩ := htree.readRouting_ok ⟨its⟩
  obtain ⟨hI, hR⟩ := hdoc.interfaces_eq hf hti htree.label hentry
  refine ⟨its, s, hsurvivors, hback, hI.trans hits, ?_⟩
  rw [hR, hits]
  exact hs

end Trees

/-- **What is read of a document** with what the encoders return of two models whose texts hold no
NULs, entered at a node that is none of another module called `interfaces` or `routing`. If an
interface has an empty name both decoders throw, and the rest of the document is lost with it.
Otherwise they read the same interfaces, and the routing model names these first. -/
theorem deserialize_document {S : SchemaTree} {lyd_new_path : NewPath LydNode}
    (hI : InterfacesSchema S) (hM : ModuleNames S) (hlists : S.ListsBelow interfacePlace leafNames)
    (hR : RoutingSchema S) (hP : S.NotInLists protocolPlace "type")
    (h : NewPath.Lawful S lyd_new_path) (hf : FindPath.Lawful lyd_find_path)
    {m : IetfInterfaces} {r : Routing} (hnulI : m.NulFree) (hnulR : r.NulFree)
    (hm : m.serialize lyd_new_path = .ok (some ti))
    (hr : (IetfRouting.mk r).serialize lyd_new_path = .ok (some tr))
    (hdoc : Document top ti tr) (hentry : Entrance top ti tr entry) :
    if "" ∈ m.ifs_.map IetfInterface.name then
      IetfInterfaces.deserialize lyd_find_path top (some entry) = .error .yangDataError ∧
        IetfRouting.deserialize lyd_find_path top (some entry) = .error .yangDataError
    else ∃ its s, its.Perm (survivors m) ∧ RoutingReadBack S r its s ∧
      IetfInterfaces.deserialize lyd_find_path top (some entry) = .ok ⟨its⟩ ∧
        IetfRouting.deserialize lyd_find_path top (some entry) = .ok ⟨s⟩ := by
  obtain ⟨ti', hm', hti, ns, hperm, hall⟩ := serialize_instances hI hM hlists h hnulI
  cases hm.symm.trans hm'
  obtain ⟨-, htree⟩ := acceptable_of_serialize hR hP h hnulR hr
  split
  · exact hdoc.error_of_empty hf hti hperm hall htree hentry ‹_›
  · exact hdoc.ok_of_nonempty hf hti hperm hall htree hentry ‹_›

end Document

/-- Nodes of another module. -/
def systemNode : LydNode := LydNode.inner ⟨"vendor", "system"⟩ []

def vendorInterfaces : LydNode := LydNode.inner ⟨"vendor", "interfaces"⟩ []

/-- A document in which both stand in front of the trees, entered at the first of them. -/
theorem document_vendor {ti tr : LydNode} (hti : ti.label = some (ifName "interfaces"))
    (htr : tr.label = some (rtName "routing")) :
    Document [systemNode, vendorInterfaces, tr, ti] ti tr ∧
      Entrance [systemNode, vendorInterfaces, tr, ti] ti tr systemNode := by
  refine ⟨⟨by simp, by simp, fun n hn hl => ?_, fun n hn hl => ?_⟩, List.mem_cons_self,
    fun h => absurd h (by decide), fun h => absurd h (by decide)⟩
  · simp only [List.mem_cons, List.not_mem_nil, or_false] at hn
    rcases hn with rfl | rfl | rfl | rfl
    · exact absurd hl (by decide)
    · exact absurd hl (by decide)
    · exact absurd (htr.symm.trans hl) (by decide)
    · rfl
  · simp only [List.mem_cons, List.not_mem_nil, or_false] at hn
    rcases hn with rfl | rfl | rfl | rfl
    · exact absurd hl (by decide)
    · exact absurd hl (by decide)
    · rfl
    · exact absurd (hti.symm.trans hl) (by decide)

theorem deserialize_document_systemNode :
    ∃ ti tr its s, sharedName.serialize (Reference.newPath Reference.schema) = .ok (some ti) ∧
      (IetfRouting.mk settlingRouter).serialize (Reference.newPath Reference.schema) =
        .ok (some tr) ∧
      its.Perm (survivors sharedName) ∧ RoutingReadBack Reference.schema settlingRouter its s ∧
      IetfInterfaces.deserialize Reference.findPath [systemNode, vendorInterfaces, tr, ti]
        (some systemNode) = .ok ⟨its⟩ ∧
      IetfRouting.deserialize Reference.findPath [systemNode, vendorInterfaces, tr, ti]
        (some systemNode) = .ok ⟨s⟩ := by
  have hlawful : NewPath.Lawful Reference.schema (Reference.newPath Reference.schema) :=
    Reference.newPath_lawful _
  obtain ⟨ti, hm, hti, -⟩ := serialize_instances Reference.interfacesSchema Reference.moduleNames
    Reference.interfaceLists hlawful sharedName_nulFree
  obtain ⟨tr, hr, htree⟩ := serialize_routingTree Reference.routingSchema hlawful (by decide)
    settlingRouter_acceptable rfl
  obtain ⟨hdoc, hentry⟩ := document_vendor hti htree.label
  have hread := deserialize_document Reference.interfacesSchema Reference.moduleNames
    Reference.interfaceLists Reference.routingSchema Reference.protocolNotInLists hlawful
    Reference.findPath_lawful sharedName_nulFree (by decide) hm hr hdoc hentry
  rw [if_neg (by decide)] at hread
  obtain ⟨its, s, hperm, hback, hits, hs⟩ := hread
  exact ⟨ti, tr, its, s, hm, hr, hperm, hback, hits, hs⟩

/-! ### Cycles -/

/-- A cycle of a document: both models are encoded, stand in one forest, and are decoded from
whichever of the nodes it may be entered at. -/
def DocumentCycle (lyd_new_path : NewPath LydNode) (lyd_find_path : FindPath)
    (a b : IetfInterfaces × Routing) : Prop :=
  ∃ ti tr top entry, a.1.serialize lyd_new_path = .ok (some ti) ∧
    (IetfRouting.mk a.2).serialize lyd_new_path = .ok (some tr) ∧ Document top ti tr ∧
    Entrance top ti tr entry ∧
    IetfInterfaces.deserialize lyd_find_path top (some entry) = .ok b.1 ∧
    IetfRouting.deserialize lyd_find_path top (some entry) = .ok ⟨b.2⟩

/-- The models are the same, but for the order of the interfaces, of their names, and of the
ribs. -/
structure SameModels (a b : IetfInterfaces × Routing) : Prop where
  ifs_ : b.1.ifs_.Perm a.1.ifs_
  router_id : b.2.router_id = a.2.router_id
  interfaces : b.2.interfaces.Perm a.2.interfaces
  interfaces_info : b.2.interfaces_info.Perm a.2.interfaces_info
  control_plane_protocols : b.2.control_plane_protocols = a.2.control_plane_protocols
  ribs : b.2.ribs.Perm a.2.ribs

/-- Models read back of one model, next to the same interfaces. -/
theorem RoutingReadBack.sameModels {S : SchemaTree} {r s u : Routing}
    {its its' : List IetfInterface}
    (hs : RoutingReadBack S r its s) (hu : RoutingReadBack S r its' u) (hperm : its'.Perm its)
    (hdistinct : (its.map IetfInterface.name).Nodup) : SameModels (⟨its⟩, s) (⟨its'⟩, u) where
  ifs_ := hperm
  router_id := hu.router_id.trans hs.router_id.symm
  interfaces := by
    have hnames := hperm.map IetfInterface.name
    rw [hs.interfaces, hu.interfaces]
    refine (List.perm_ext_iff_of_nodup
      (FirstOccurrence.nodup_appendAllNew (hnames.nodup_iff.mpr hdistinct))
      (FirstOccurrence.nodup_appendAllNew hdistinct)).mpr fun name => ?_
    rw [FirstOccurrence.mem_appendAllNew, FirstOccurrence.mem_appendAllNew, hnames.mem_iff]
  interfaces_info := by
    rw [hs.interfaces_info, hu.interfaces_info]
    exact hperm
  control_plane_protocols := hu.control_plane_protocols.trans hs.control_plane_protocols.symm
  ribs := hu.ribs.trans hs.ribs.symm

section Cycles

variable {S : SchemaTree} {lyd_new_path : NewPath LydNode} {lyd_find_path : FindPath}
  {a b c : IetfInterfaces × Routing}

/-- The forest that holds nothing but the two trees, entered at the first. -/
theorem document_pair {ti tr : LydNode} (hti : ti.label = some (ifName "interfaces"))
    (htr : tr.label = some (rtName "routing")) :
    Document [ti, tr] ti tr ∧ Entrance [ti, tr] ti tr ti := by
  refine ⟨⟨by simp, by simp, fun n hn hl => ?_, fun n hn hl => ?_⟩, List.mem_cons_self,
    fun _ => rfl, fun h => ?_⟩
  · simp only [List.mem_cons, List.not_mem_nil, or_false] at hn
    rcases hn with rfl | rfl
    · rfl
    · exact absurd (htr.symm.trans hl) (by decide)
  · simp only [List.mem_cons, List.not_mem_nil, or_false] at hn
    rcases hn with rfl | rfl
    · exact absurd (hti.symm.trans hl) (by decide)
    · rfl
  · obtain ⟨m, hm⟩ := named_iff.mp h
    exact absurd (hti.symm.trans hm) (by simp [ifName])

/-- **When a cycle succeeds, and what it leaves.** -/
theorem documentCycle_iff (hI : InterfacesSchema S) (hM : ModuleNames S)
    (hlists : S.ListsBelow interfacePlace leafNames) (hR : RoutingSchema S)
    (hP : S.NotInLists protocolPlace "type") (h : NewPath.Lawful S lyd_new_path)
    (hf : FindPath.Lawful lyd_find_path) (hnulI : a.1.NulFree) (hnulR : a.2.NulFree) :
    ((∃ b, DocumentCycle lyd_new_path lyd_find_path a b) ↔
      "" ∉ a.1.ifs_.map IetfInterface.name ∧ a.2.control_plane_protocols = [] ∧
        RoutingAcceptable S a.2) ∧
      ∀ b, DocumentCycle lyd_new_path lyd_find_path a b →
        b.1.ifs_.Perm (survivors a.1) ∧ RoutingReadBack S a.2 b.1.ifs_ b.2 := by
  obtain ⟨m, r⟩ := a
  obtain ⟨ti, hm, hti, ns, hperm, hall⟩ := serialize_instances hI hM hlists h hnulI
  -- the trees a cycle is made with
  have htrees : ∀ {ti' tr}, m.serialize lyd_new_path = .ok (some ti') →
      (IetfRouting.mk r).serialize lyd_new_path = .ok (some tr) →
      ti' = ti ∧ (r.control_plane_protocols = [] ∧ RoutingAcceptable S r) ∧
        RoutingTree S r tr := by
    intro ti' tr hm' hr
    cases hm.symm.trans hm'
    exact ⟨rfl, acceptable_of_serialize hR hP h hnulR hr⟩
  refine ⟨⟨?_, ?_⟩, ?_⟩
  · rintro ⟨⟨m', r'⟩, ti', tr, top, entry, hm', hr, hdoc, hentry, hreadI, -⟩
    obtain ⟨rfl, hgood, htree⟩ := htrees hm' hr
    refine ⟨fun hempty => ?_, hgood⟩
    cases hreadI.symm.trans (hdoc.error_of_empty hf hti hperm hall htree hentry hempty).1
  · rintro ⟨hempty, hgood⟩
    obtain ⟨tr, hr, htree⟩ := serialize_routingTree hR h hnulR hgood.2 hgood.1
    obtain ⟨hdoc, hentry⟩ := document_pair hti htree.label
    obtain ⟨its, s, -, -, hits, hs⟩ :=
      hdoc.ok_of_nonempty hf hti hperm hall htree hentry hempty
    exact ⟨(⟨its⟩, s), ti, tr, _, _, hm, hr, hdoc, hentry, hits, hs⟩
  · rintro ⟨m', r'⟩ ⟨ti', tr, top, entry, hm', hr, hdoc, hentry, hreadI, hreadR⟩
    obtain ⟨rfl, -, htree⟩ := htrees hm' hr
    by_cases hempty : "" ∈ m.ifs_.map IetfInterface.name
    · cases hreadI.symm.trans (hdoc.error_of_empty hf hti hperm hall htree hentry hempty).1
    · obtain ⟨its, s, hsurvivors, hback, hits, hs⟩ :=
        hdoc.ok_of_nonempty hf hti hperm hall htree hentry hempty
      cases hreadI.symm.trans hits
      cases hreadR.symm.trans hs
      exact ⟨hsurvivors, hback⟩

/-- **After one cycle further cycles change nothing but orders**, and they go on exactly if the
schema takes every address family without the module that was stripped off. The texts of the first
two models reach libyang whole, and with them those of all others. -/
theorem document_cycles_stable (hI : InterfacesSchema S) (hM : ModuleNames S)
    (hlists : S.ListsBelow interfacePlace leafNames) (hR : RoutingSchema S)
    (hP : S.NotInLists protocolPlace "type") (hT : RoutingTypes S)
    (h : NewPath.Lawful S lyd_new_path) (hf : FindPath.Lawful lyd_find_path)
    (hnulI : a.1.NulFree) (hnulR : a.2.NulFree)
    (hfirst : DocumentCycle lyd_new_path lyd_find_path a b)
    (hmore : Relation.ReflTransGen (DocumentCycle lyd_new_path lyd_find_path) b c) :
    SameModels b c ∧ ((∃ d, DocumentCycle lyd_new_path lyd_find_path c d) ↔
      ∀ rib ∈ a.2.ribs, FamilyAccepted S (familyReadBack S rib.address_family)) := by
  have hcycle := fun {a} => documentCycle_iff (a := a) hI hM hlists hR hP h hf
  obtain ⟨hok, hleft⟩ := hcycle hnulI hnulR
  obtain ⟨hnames, -, hr⟩ := hok.mp ⟨b, hfirst⟩
  obtain ⟨hperm, hback⟩ := hleft b hfirst
  have hnul : ∀ {c : IetfInterfaces × Routing}, c.1.ifs_.Perm (survivors a.1) →
      RoutingReadBack S a.2 c.1.ifs_ c.2 → c.1.NulFree ∧ c.2.NulFree := fun hc hcback =>
    ⟨nulFree_of_perm hc, hcback.nulFree hR hT hnulR (yangText_of_perm hc)⟩
  -- everything on the way is read back of the first models
  have hall : c.1.ifs_.Perm (survivors a.1) ∧ RoutingReadBack S a.2 c.1.ifs_ c.2 := by
    induction hmore with
    | refl => exact ⟨hperm, hback⟩
    | @tail c d _ hcd ih =>
      obtain ⟨hc, hcback⟩ := ih
      obtain ⟨hcnulI, hcnulR⟩ := hnul hc hcback
      obtain ⟨hcok, hcleft⟩ := hcycle hcnulI hcnulR
      obtain ⟨hd, hdback⟩ := hcleft d hcd
      have hdc : d.1.ifs_.Perm c.1.ifs_ := hd.trans (.of_eq (survivors_of_perm hc))
      exact ⟨hdc.trans hc, hcback.again hR hT hr (hcok.mp ⟨d, hcd⟩).2.2 hdback
        (hdc.map IetfInterface.name).symm.subset⟩
  obtain ⟨hc, hcback⟩ := hall
  obtain ⟨hcnulI, hcnulR⟩ := hnul hc hcback
  have hdistinct : (b.1.ifs_.map IetfInterface.name).Nodup :=
    (hperm.map IetfInterface.name).nodup_iff.mpr (distinct_survivors a.1)
  refine ⟨hback.sameModels hcback (hc.trans hperm.symm) hdistinct, ?_⟩
  rw [(hcycle hcnulI hcnulR).1, hcback.acceptable_iff hR hT hr (yangText_of_perm hc),
    and_iff_right (empty_notMem_names hc hnames)]

end Cycles

/-- Three cycles of a document. -/
theorem document_cycles_stable_sharedName :
    let newPath := Reference.newPath Reference.schema
    ∃ b c d, DocumentCycle newPath Reference.findPath (sharedName, settlingRouter) b ∧
      DocumentCycle newPath Reference.findPath b c ∧
      DocumentCycle newPath Reference.findPath c d ∧ SameModels b c := by
  intro newPath
  have hlawful : NewPath.Lawful Reference.schema newPath := Reference.newPath_lawful _
  have hnulR : settlingRouter.NulFree := by decide
  obtain ⟨b, hfirst⟩ := (documentCycle_iff (a := (sharedName, settlingRouter))
    Reference.interfacesSchema Reference.moduleNames Reference.interfaceLists
    Reference.routingSchema Reference.protocolNotInLists hlawful Reference.findPath_lawful
    sharedName_nulFree hnulR).1.mpr ⟨by decide, rfl, settlingRouter_acceptable⟩
  have hfamilies : ∀ rib ∈ settlingRouter.ribs,
      FamilyAccepted Reference.schema (familyReadBack Reference.schema rib.address_family) := by
    decide
  have hstable := fun {c} => document_cycles_stable (c := c) Reference.interfacesSchema
    Reference.moduleNames Reference.interfaceLists Reference.routingSchema
    Reference.protocolNotInLists Reference.routingTypes hlawful Reference.findPath_lawful
    sharedName_nulFree hnulR hfirst
  obtain ⟨c, hsecond⟩ := (hstable .refl).2.mpr hfamilies
  obtain ⟨hsame, hmore⟩ := hstable (.single hsecond)
  obtain ⟨d, hthird⟩ := hmore.mpr hfamilies
  exact ⟨b, c, d, hfirst, hsecond, hthird, hsame⟩

end StelleriYang

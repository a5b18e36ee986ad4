import StelleriYang.DecoderLoops
import StelleriYang.Lib.FirstOccurrence
import StelleriYang.Reference

/-!
# The interfaces of a router

The decoder of `ietf-routing` takes the names of the interfaces of the top-level container, and
appends to them the values of the leaf-list of the router that are not there yet. The scan runs over
the list that is extended.

## Main definitions

* `topEntries`, `topNames` — the entries of the top-level container and their names
* `referenceNames` — the values of the leaf-list

## Main results

* `readInterfaces_names` — the decoded interfaces have the names of the entries
* `deserialize_interfaces`
-/

namespace StelleriYang

open LydNode (childrenNamed childValue)
open FirstOccurrence (appendNew appendAllNew)

/-- The entries of the top-level container of `ietf-interfaces`, if there is one. -/
def topEntries (lyd_find_path : FindPath) (top : List LydNode) : List LydNode :=
  match matched (lyd_find_path top "/ietf-interfaces:interfaces") with
  | some ifs => childrenNamed ifs "interface"
  | none => []

def topNames (lyd_find_path : FindPath) (top : List LydNode) : List String :=
  (topEntries lyd_find_path top).filterMap fun ch => childValue ch "name"

/-- The values of the leaf-list of a `routing` node. -/
def referenceNames (rt : LydNode) : List String :=
  (entries rt "interfaces" "interface").filterMap DataTree.Tree.value

theorem appendName_eq : appendName = appendNew := by
  funext names val
  rfl

/-- An entry that is accepted has a name, and the interface has it. -/
theorem readInterface_name {ch : LydNode} {i : IetfInterface} (h : readInterface ch = .ok i) :
    childValue ch "name" = some i.name ∧ i.name ≠ "" := by
  obtain ⟨hname, ipv4, ipv6, if_index, -, -, rfl⟩ := readInterface_eq_ok h
  refine ⟨?_, hname⟩
  rw [interfaceFields]
  cases hv : childValue ch "name" with
  | none => exact absurd (by rw [hv]; rfl) hname
  | some v => rfl

theorem readInterfaces_names {chs : List LydNode} {is : List IetfInterface}
    (h : List.Forall₂ (fun ch i => readInterface ch = .ok i) chs is) :
    is.map IetfInterface.name = chs.filterMap fun ch => childValue ch "name" := by
  induction h with
  | nil => rfl
  | cons hi _ ih =>
    rw [List.map_cons, ih]
    exact (List.filterMap_cons_some (f := fun ch => childValue ch "name")
      (readInterface_name hi).1).symm

/-- What is read of the top-level container. -/
theorem readInterfacesInfo_eq_ok {lyd_find_path : FindPath} {top : List LydNode}
    {ifs_model : IetfInterfaces} (h : readInterfacesInfo lyd_find_path top = .ok ifs_model) :
    List.Forall₂ (fun ch i => readInterface ch = .ok i) (topEntries lyd_find_path top)
      ifs_model.ifs_ := by
  rw [readInterfacesInfo] at h
  rw [topEntries]
  cases hm : matched (lyd_find_path top "/ietf-interfaces:interfaces") with
  | none =>
    rw [hm] at h
    cases h
    exact .nil
  | some ifs =>
    rw [hm] at h
    -- the decoder is entered at the node, and finds it, by its name or by the same path
    have hfind : findInterfaces lyd_find_path top ifs = some ifs := by
      rw [findInterfaces, hm]
      exact ite_self _
    have hread : IetfInterfaces.deserialize lyd_find_path top (some ifs) =
        ((childrenNamed ifs "interface").mapM readInterface).map IetfInterfaces.mk := by
      simp only [IetfInterfaces.deserialize, Option.bind_some, hfind, readInterfaces]
    cases hr : (childrenNamed ifs "interface").mapM readInterface with
    | error e =>
      rw [hr] at hread
      cases hread.symm.trans h
    | ok is =>
      rw [hr] at hread
      cases hread.symm.trans h
      exact Traverse.mapM_eq_ok_iff.mp hr

/-- **The interfaces of a router are those of the top-level container and, once each and in the
order of their first occurrence, the further values of the leaf-list.** The forest is any that is
accepted, with any entry node. The names are distinct if those of the container are, its interfaces
are kept as objects, and merging the result again changes nothing. -/
theorem deserialize_interfaces {lyd_find_path : FindPath} {top : List LydNode} {tree : LydNode}
    {m : IetfRouting} (h : IetfRouting.deserializeLoop lyd_find_path top (some tree) = .ok m) :
    let names := topNames lyd_find_path top
    let merged := m.routing_.interfaces
    ∃ rt, findRouting lyd_find_path top tree = some rt ∧
      merged =
        names ++ ((referenceNames rt).filter fun n => decide (n ∉ names)).eraseDups ∧
      (∀ n, n ∈ merged ↔ n ∈ names ∨ n ∈ referenceNames rt) ∧
      (names.Nodup → merged.Nodup) ∧
      List.Forall₂ (fun ch i => readInterface ch = .ok i) (topEntries lyd_find_path top)
        m.routing_.interfaces_info ∧
      m.routing_.interfaces_info.map IetfInterface.name = names ∧
      merged.foldl appendName names = merged := by
  intro names merged
  rw [IetfRouting.deserializeLoop_eq, IetfRouting.deserialize] at h
  obtain ⟨ifs_model, hinfo, h⟩ := Traverse.bind_eq_ok_iff.mp h
  cases hrt : findRouting lyd_find_path top tree with
  | none =>
    rw [hrt] at h
    cases h
  | some rt =>
    rw [hrt] at h
    obtain ⟨cps, -, h⟩ := Traverse.bind_eq_ok_iff.mp h
    obtain ⟨ribs, -, h⟩ := Traverse.bind_eq_ok_iff.mp h
    cases h
    have hentries := readInterfacesInfo_eq_ok hinfo
    have hnames : ifs_model.ifs_.map IetfInterface.name = names := readInterfaces_names hentries
    have hmerged : merged = appendAllNew names (referenceNames rt) := by
      rw [← hnames, appendAllNew, ← appendName_eq]
      rfl
    refine ⟨rt, rfl, ?_, fun n => ?_, fun hnodup => ?_, hentries, hnames, ?_⟩
    · rw [hmerged, FirstOccurrence.appendAllNew_eq]
    · rw [hmerged, FirstOccurrence.mem_appendAllNew]
    · rw [hmerged]
      exact FirstOccurrence.nodup_appendAllNew hnodup
    · rw [hmerged, appendName_eq]
      exact FirstOccurrence.appendAllNew_idem names (referenceNames rt)

/-- A router whose leaf-list names an interface of its own twice, and one of the container. -/
def mergedRouter : LydNode :=
  let entry (name : String) := LydNode.leaf (Routing.rtName "interface") name
  LydNode.inner (Routing.rtName "routing")
    [LydNode.inner (Routing.rtName "interfaces") [entry "lo", entry "eth0", entry "lo"]]

def mergedInterfaces : LydNode :=
  LydNode.inner (Interfaces.ifName "interfaces")
    [LydNode.inner (Interfaces.ifName "interface") [LydNode.leaf (Interfaces.ifName "name") "eth0"]]

theorem deserialize_interfaces_mergedRouter :
    let top := [mergedInterfaces, mergedRouter]
    let names := topNames Reference.findPath top
    let merged := ["eth0", "lo"]
    ∃ rt, findRouting Reference.findPath top mergedRouter = some rt ∧
      merged =
        names ++ ((referenceNames rt).filter fun n => decide (n ∉ names)).eraseDups ∧
      (∀ n, n ∈ merged ↔ n ∈ names ∨ n ∈ referenceNames rt) ∧
      (names.Nodup → merged.Nodup) ∧
      List.Forall₂ (fun ch i => readInterface ch = .ok i) (topEntries Reference.findPath top)
        [{ name := "eth0" }] ∧
      [({ name := "eth0" } : IetfInterface)].map IetfInterface.name = names ∧
      merged.foldl appendName names = merged :=
  deserialize_interfaces (m := ⟨{
      interfaces := ["eth0", "lo"]
      interfaces_info := [{ name := "eth0" }] }⟩) rfl

end StelleriYang

import Mathlib.Data.List.Find
import StelleriYang.InterfacesKeys
import StelleriYang.InterfacesReading
import StelleriYang.Lib.Interleaved

/-!
# Interfaces: what a cycle of encoding and decoding leaves

The round trip speaks of models that come back as they were. Here is what comes back of any model
at all, where a qualifier in a path is the name of a module, as it is in libyang: interfaces of one
name are merged leaf by leaf, the first value of a leaf being the one that is kept; an interface
whose name cannot be spelled, because it holds an apostrophe or is no text of the type `string`, is
lost; and of what is left, the name, the description (if it is a text of its type) and whether it is
enabled are all that was written.

An empty name is written like any other, and turned down by the decoder.

The texts of the models are taken to reach libyang whole, that is, to hold no NULs. Of a text that
does the part in front would be left, which may spell anything.

## Main definitions

* `ModuleNames` — qualifiers are names of modules
* `survivors` — the interfaces that come back
* `Cycle` — a cycle of encoding and decoding

## Main results

* `serialize_instances` — the tree of any model, instance by instance
* `deserialize_survivors` — what is read back of any model
* `cycles_stable` — a cycle changes nothing after the first
* `cycle_after_run` — and what it leaves after any calls on the model
-/

namespace StelleriYang

open DataTree (Tree Step Attempts InstanceOf Separate share)
open FirstOccurrence (appendAllNew appendAllNew_flatMap)
open KeyedList (Distinct)
open Interfaces
open LydNode (named findChild childrenNamed childValue named_iff)
open PathText (quote)

/-- A qualifier is the name of a module, and no module is called `ianaift`. -/
structure ModuleNames (S : SchemaTree) : Prop where
  self : ∀ p m, S.moduleOf p = some m → m = p
  ianaift : S.moduleOf "ianaift" = none

/-! ### What is written -/

/-- The description of an interface, if it is a text of its type. -/
def IetfInterface.acceptedDescription (i : IetfInterface) : Option String :=
  i.description.bind yangString

/-- The leaves of an interface that are written: neither its type nor its addresses are. -/
def plainLeaves (i : IetfInterface) : List (Option QName × String) :=
  (some (ifName "name"), i.name) ::
    ((i.acceptedDescription.toList.map fun d => (some (ifName "description"), d)) ++
      (if i.enabled then [] else [(some (ifName "enabled"), "false")]))

/-- A leaf, as an insertion into an instance. -/
def leafOp (o : Option QName × String) : List (Step (Option QName) String) × String :=
  ([Step.ofLabel o.1], o.2)

section Written

variable {S : SchemaTree}

theorem effect_type_eq_none (hS : InterfacesSchema S) (hM : ModuleNames S) (v : String) :
    S.effect interfacePlace ("type", "ianaift:" ++ v) = none := by
  obtain ⟨type, hk, hid⟩ := hS.type
  rw [effect_type hk, show "ianaift:" = "ianaift" ++ ":" by decide]
  refine Option.map_eq_none_iff.mpr (Option.eq_none_iff_forall_ne_some.mpr fun w hw => ?_)
  obtain ⟨m, hm, -⟩ := hid.prefixed "ianaift" v w (by decide) hw
  rw [hM.ianaift] at hm
  cases hm

theorem effect_family_eq_none (hS : InterfacesSchema S) (hM : ModuleNames S) {f : String}
    (hf : f ∈ families) (c : String × String) :
    S.effect interfacePlace (below (familyStep f) c) = none := by
  have hip : S.moduleOf "ip" ≠ some "ietf-ip" := fun h => absurd (hM.self _ _ h) (by decide)
  rw [effect_family hS hf, if_neg hip]

/-- **What the calls for an interface insert into its instance.** -/
theorem innerOps_plain (hS : InterfacesSchema S) (hM : ModuleNames S) (i : IetfInterface) :
    ([nodeStep (ifName "name")], i.name) :: innerOps S i = (plainLeaves i).map leafOp := by
  have hfamily : ∀ f ∈ families, ∀ o : Option IetfIp,
      (o.toList.flatMap fun ip => (ipInner ip).map (below (familyStep f))).filterMap
        (S.effect interfacePlace) = [] := by
    intro f hf o
    refine List.filterMap_eq_nil_iff.mpr fun c hc => ?_
    obtain ⟨ip, -, hc⟩ := List.mem_flatMap.mp hc
    obtain ⟨d, -, rfl⟩ := List.mem_map.mp hc
    exact effect_family_eq_none hS hM hf d
  have htype : (i.type.toList.map fun t => ("type", "ianaift:" ++ ianaIfTypeToString t)).filterMap
      (S.effect interfacePlace) = [] := by
    refine List.filterMap_eq_nil_iff.mpr fun c hc => ?_
    obtain ⟨t, -, rfl⟩ := List.mem_map.mp hc
    exact effect_type_eq_none hS hM _
  have hdesc : (i.description.toList.map fun d => ("description", d)).filterMap
      (S.effect interfacePlace) =
        (i.acceptedDescription.toList.map fun d =>
          (some (ifName "description"), d)).map leafOp := by
    rw [IetfInterface.acceptedDescription]
    cases i.description with
    | none => rfl
    | some d =>
      have heffect := effect_description hS d
      rw [Option.toList_some, List.map_singleton, Option.bind_some]
      cases htext : yangString d with
      | none => rw [List.filterMap_cons_none (by rw [heffect, htext]; rfl)]; rfl
      | some w => rw [List.filterMap_cons_some (by rw [heffect, htext]; rfl)]; rfl
  have hen : (if i.enabled then [] else [("enabled", "false")]).filterMap
      (S.effect interfacePlace) =
        (if i.enabled then [] else [(some (ifName "enabled"), "false")]).map leafOp := by
    cases i.enabled with
    | true => rfl
    | false => exact List.filterMap_cons_some (effect_enabled hS)
  rw [innerOps, interfaceInner, List.filterMap_append, List.filterMap_append,
    List.filterMap_append, List.filterMap_append, hdesc, hen, htype, hfamily "ipv4" (by decide),
    hfamily "ipv6" (by decide), List.append_nil, List.append_nil, List.append_nil, plainLeaves,
    List.map_cons, List.map_append]
  rfl

end Written

/-! ### The tree -/

/-- The interfaces whose paths lead somewhere. -/
def spellable (its : List IetfInterface) : List IetfInterface :=
  its.filter fun i => Spellable i.name

/-- The interfaces of one name. -/
def namesakes (name : String) (its : List IetfInterface) : List IetfInterface :=
  KeyedList.queue IetfInterface.name name its

/-- The step to the instance of an interface. -/
def instanceOf (name : String) : Step (Option QName) String :=
  instanceStep (ifName "interface") (ifName "name") name

/-- The instance of a name, with the leaves of all interfaces of that name. -/
def MergedTree (its : List IetfInterface) (name : String) (n : LydNode) : Prop :=
  InstanceOf (instanceOf name) (((namesakes name its).flatMap plainLeaves).map leafOp) n

section Tree

variable {S : SchemaTree} {lyd_new_path : NewPath LydNode}

/-- The leaves of an instance: the key it came with, and the leaves inserted into it. -/
theorem reaches_instance {name : String} {leaves : List (Option QName × String)} {n : LydNode}
    (h : InstanceOf (instanceOf name) (leaves.map leafOp) n) {c : LydNode} (hc : c ∈ n.children) :
    (c.label = some (ifName "name") ∧ c.value = some name) ∨
      ∃ o ∈ leaves, c.label = o.1 ∧ c.value = some o.2 := by
  obtain ⟨bs, ds, rfl, ha⟩ := h
  rcases ha.reaches (.here hc) with hr | ⟨op, hop, hadds⟩
  · obtain ⟨k, hk, hl, hv⟩ := Step.reaches_keyLeaves hr
    obtain rfl := List.mem_singleton.mp hk
    exact Or.inl ⟨(List.cons.inj hl).1, hv⟩
  · obtain ⟨o, ho, rfl⟩ := List.mem_map.mp hop
    obtain ⟨hl, hv⟩ := hadds.of_singleton rfl
    exact Or.inr ⟨o, ho, (List.cons.inj hl).1, hv⟩

/-- What carries the name of the key leaf in the leaves of an interface. -/
theorem value_of_name_mem {i : IetfInterface} {o : Option QName × String} (ho : o ∈ plainLeaves i)
    (hl : o.1 = some (ifName "name")) : o.2 = i.name := by
  simp only [plainLeaves, List.mem_cons, List.mem_append, List.mem_map] at ho
  rcases ho with rfl | ⟨d, -, rfl⟩ | ho
  · rfl
  · exact absurd (congrArg QName.name (Option.some.inj hl)) (by decide)
  · split at ho
    · cases ho
    · obtain rfl := List.mem_singleton.mp ho
      exact absurd (congrArg QName.name (Option.some.inj hl)) (by decide)

/-- The insertions for the interfaces, each with the name of the interface it is made for. -/
def instanceOps (its : List IetfInterface) :
    List (String × (List (Step (Option QName) String) × String)) :=
  its.flatMap fun i => ((plainLeaves i).map leafOp).map (Prod.mk i.name)

theorem mem_instanceOps {its : List IetfInterface}
    {o : String × (List (Step (Option QName) String) × String)} :
    o ∈ instanceOps its ↔ ∃ i ∈ its, ∃ l ∈ plainLeaves i, o = (i.name, leafOp l) := by
  simp only [instanceOps, List.mem_flatMap, List.map_map, List.mem_map, Function.comp_apply]
  constructor
  · rintro ⟨i, hi, l, hl, rfl⟩
    exact ⟨i, hi, l, hl, rfl⟩
  · rintro ⟨i, hi, l, hl, rfl⟩
    exact ⟨i, hi, l, hl, rfl⟩

/-- **What the calls for interfaces insert.** -/
theorem filterMap_calls_eq (hS : InterfacesSchema S) (hM : ModuleNames S)
    {its : List IetfInterface} (hspell : ∀ i ∈ its, Spellable i.name) :
    (its.flatMap interfaceCalls).filterMap (S.effect (.root (ifName "interfaces"))) =
      (instanceOps its).map fun o => DataTree.under (instanceOf o.1) o.2 := by
  rw [instanceOps, List.filterMap_flatMap, List.map_flatMap]
  refine List.flatMap_congr fun i hi => ?_
  rw [List.map_map, ← innerOps_plain hS hM]
  exact filterMap_interfaceCalls hS (hspell i hi)

theorem share_instanceOps (name : String) (its : List IetfInterface) :
    share name (instanceOps its) = ((namesakes name its).flatMap plainLeaves).map leafOp := by
  rw [instanceOps, DataTree.share_flatMap, List.map_flatMap]
  rfl

theorem keys_instanceOps (its : List IetfInterface) :
    appendAllNew [] ((instanceOps its).map Prod.fst) =
      appendAllNew [] (its.map IetfInterface.name) := by
  rw [instanceOps, List.map_flatMap]
  refine appendAllNew_flatMap (fun i _ => ⟨by simp [plainLeaves], fun y hy => ?_⟩) []
  obtain ⟨o, ho, rfl⟩ := List.mem_map.mp hy
  obtain ⟨o', -, rfl⟩ := List.mem_map.mp ho
  rfl

/-- **The name leaf of an instance tells it from the others.** -/
theorem separate_instanceOps (its : List IetfInterface) :
    Separate instanceOf (instanceOps its) := by
  intro name name' hne os hos n hn hm
  have hleaves : ∃ leaves : List (Option QName × String), os = leaves.map leafOp ∧
      ∀ o ∈ leaves, o.1 = some (ifName "name") → o.2 = name := by
    refine ⟨os.map fun op => ((op.1.head?.map Step.label).join, op.2), ?_, ?_⟩
    · rw [List.map_map]
      refine (List.map_id os).symm.trans (List.map_congr_left fun op hop => ?_)
      obtain ⟨i, -, l, -, heq⟩ := mem_instanceOps.mp (hos op hop)
      obtain ⟨-, rfl⟩ := Prod.mk.inj heq
      rfl
    · intro o ho hl
      obtain ⟨op, hop, rfl⟩ := List.mem_map.mp ho
      obtain ⟨i, -, l, hmem, heq⟩ := mem_instanceOps.mp (hos op hop)
      obtain ⟨rfl, rfl⟩ := Prod.mk.inj heq
      exact value_of_name_mem hmem hl
  obtain ⟨leaves, rfl, hname⟩ := hleaves
  obtain ⟨c, hc, hl, hv⟩ := hm.2.2 (some (ifName "name"), name')
    (by simp [instanceOf, instanceStep])
  rcases reaches_instance hn hc with ⟨-, hv'⟩ | ⟨o, ho, hl', hv'⟩
  · exact hne (Option.some.inj (hv'.symm.trans hv))
  · exact hne ((hname o ho (hl'.symm.trans hl)).symm.trans (Option.some.inj (hv'.symm.trans hv)))

/-- **The tree of any model**: an instance for each name that can be spelled, in which the leaves
of the interfaces of that name come together. -/
theorem serialize_instances (hS : InterfacesSchema S) (hM : ModuleNames S)
    (hlists : S.ListsBelow interfacePlace leafNames) (h : NewPath.Lawful S lyd_new_path)
    {m : IetfInterfaces} (hnul : m.NulFree) :
    ∃ t, m.serialize lyd_new_path = .ok (some t) ∧ t.label = some (ifName "interfaces") ∧
      ∃ ns, t.children.Perm ns ∧ List.Forall₂ (MergedTree (spellable m.ifs_))
        (appendAllNew [] ((spellable m.ifs_).map IetfInterface.name)) ns := by
  have hspell : ∀ i ∈ spellable m.ifs_, Spellable i.name := fun i hi =>
    of_decide_eq_true (List.mem_filter.mp hi).2
  have hwhole : ∀ c ∈ (spellable m.ifs_).flatMap interfaceCalls, WholeCall c := fun c hc => by
    obtain ⟨i, hi, hc⟩ := List.mem_flatMap.mp hc
    exact wholeCall_interfaceCalls (hnul i (List.mem_filter.mp hi).1) c hc
  have hroot : lyd_new_path none "/ietf-interfaces:interfaces" none =
      (.LY_SUCCESS, some (LydNode.inner (ifName "interfaces") [])) :=
    h.root (ifName "interfaces") (show PathText.IsIdent "ietf-interfaces" by decide) hS.interfaces
  have hcov : ∀ c ∈ (spellable m.ifs_).flatMap interfaceCalls, S.Covered rootPlace c := by
    intro c hc
    obtain ⟨i, hi, hc⟩ := List.mem_flatMap.mp hc
    exact covered_interface hS (hspell i hi).quote c hc
  obtain ⟨bs, cs, ha, hrun⟩ :=
    callAll_attempts h (t := LydNode.inner (ifName "interfaces") []) rfl hwhole hcov
  rw [filterMap_calls_eq hS hM hspell] at ha
  have hpaths : ∀ o ∈ instanceOps (spellable m.ifs_), o.2.1 ≠ [] := by
    intro o ho
    obtain ⟨i, -, l, -, rfl⟩ := mem_instanceOps.mp ho
    simp [leafOp]
  obtain ⟨ns, hperm, hall⟩ :=
    Attempts.interleaved (fun _ => rfl) hpaths (separate_instanceOps _) ha
  refine ⟨(LydNode.inner (ifName "interfaces") []).withChildren cs, ?_, rfl, ns, hperm, ?_⟩
  · rw [m.serialize_eq hroot, callAll_clean hS hlists h m.ifs_ hnul rfl]
    exact congrArg Except.ok hrun
  · rw [← keys_instanceOps]
    refine hall.imp fun name n hn => ?_
    rw [share_instanceOps] at hn
    exact hn

end Tree

/-! ### Reading it -/

/-- The interface that is read back of several of one name. -/
def survivor (name : String) (its : List IetfInterface) : IetfInterface :=
  { name
    description := its.findSome? IetfInterface.acceptedDescription
    enabled := its.all IetfInterface.enabled }

/-- The interfaces that are read back. -/
def survivors (m : IetfInterfaces) : List IetfInterface :=
  (appendAllNew [] ((spellable m.ifs_).map IetfInterface.name)).map fun name =>
    survivor name (namesakes name (spellable m.ifs_))

/-- The first value of a leaf. -/
def firstLeaf (leaf : String) (leaves : List (Option QName × String)) : Option String :=
  (leaves.find? fun o => o.1 = some (ifName leaf)).map Prod.snd

theorem firstLeaf_flatMap (leaf : String) (its : List IetfInterface) :
    firstLeaf leaf (its.flatMap plainLeaves) =
      its.findSome? fun i => firstLeaf leaf (plainLeaves i) := by
  rw [firstLeaf, List.find?_flatMap, List.map_findSome?]
  rfl

theorem firstLeaf_description (its : List IetfInterface) :
    firstLeaf "description" (its.flatMap plainLeaves) =
      its.findSome? IetfInterface.acceptedDescription := by
  rw [firstLeaf_flatMap]
  congr 1
  funext i
  cases hd : i.acceptedDescription <;> cases he : i.enabled <;>
    simp [firstLeaf, plainLeaves, hd, he, ifName]

theorem firstLeaf_enabled (its : List IetfInterface) :
    firstLeaf "enabled" (its.flatMap plainLeaves) =
      if its.all IetfInterface.enabled then none else some "false" := by
  have hone : ∀ i : IetfInterface, firstLeaf "enabled" (plainLeaves i) =
      if i.enabled then none else some "false" := by
    intro i
    cases hd : i.acceptedDescription <;> cases he : i.enabled <;>
      simp [firstLeaf, plainLeaves, hd, he, ifName]
  rw [firstLeaf_flatMap]
  simp only [hone]
  induction its with
  | nil => rfl
  | cons i its ih =>
    rw [List.findSome?_cons, List.all_cons, ih]
    cases i.enabled <;> rfl

section Reading

variable {its : List IetfInterface} {name : String} {n : LydNode}

theorem MergedTree.label (h : MergedTree its name n) : n.label = some (ifName "interface") := by
  obtain ⟨bs, ds, rfl, -⟩ := h
  rfl

/-- No other leaves are in an instance. -/
theorem MergedTree.labelsIn (h : MergedTree its name n) :
    LabelsIn n.children [ifName "name", ifName "description", ifName "enabled"] := by
  intro c hc
  rcases reaches_instance h hc with ⟨hl, -⟩ | ⟨o, ho, hl, -⟩
  · exact ⟨_, by simp, hl⟩
  · obtain ⟨i, -, ho⟩ := List.mem_flatMap.mp ho
    simp only [plainLeaves, List.mem_cons, List.mem_append, List.mem_map] at ho
    rcases ho with rfl | ⟨d, -, rfl⟩ | ho
    · exact ⟨_, by simp, hl⟩
    · exact ⟨_, by simp, hl⟩
    · split at ho
      · cases ho
      · obtain rfl := List.mem_singleton.mp ho
        exact ⟨_, by simp, hl⟩

theorem MergedTree.childrenNamed_eq_nil (h : MergedTree its name n) {leaf : String}
    (hleaf : leaf ∉ ["name", "description", "enabled"]) : childrenNamed n leaf = [] := by
  rw [childrenNamed, List.filter_eq_nil_iff]
  intro c hc hn
  obtain ⟨m, hm⟩ := named_iff.mp hn
  obtain ⟨q, hq, hl⟩ := h.labelsIn c hc
  obtain rfl : q = ⟨m, leaf⟩ := Option.some.inj (hl.symm.trans hm)
  refine hleaf (List.mem_map_of_mem (f := QName.name) hq)

theorem MergedTree.findChild_eq_none (h : MergedTree its name n) {leaf : String}
    (hleaf : leaf ∉ ["name", "description", "enabled"]) : findChild n leaf = none := by
  rw [LydNode.findChild_eq_head?, h.childrenNamed_eq_nil hleaf]
  rfl

theorem MergedTree.childValue_eq_none (h : MergedTree its name n) {leaf : String}
    (hleaf : leaf ∉ ["name", "description", "enabled"]) : childValue n leaf = none := by
  rw [childValue, h.findChild_eq_none hleaf]
  rfl

/-- **The first value is read**, that of the key before all others. -/
theorem MergedTree.childValue_eq (h : MergedTree its name n) (leaf : String) :
    childValue n leaf =
      firstLeaf leaf ((some (ifName "name"), name) ::
        (namesakes name its).flatMap plainLeaves) := by
  have hlabel : n.children.find? (named leaf) =
      n.children.find? fun c => c.label = some (ifName leaf) := by
    refine List.find?_congr fun c hc => ?_
    obtain ⟨q, hq, hl⟩ := h.labelsIn c hc
    have hmodule : q.module = "ietf-interfaces" :=
      (by decide : ∀ q ∈ [ifName "name", ifName "description", ifName "enabled"],
        q.module = "ietf-interfaces") q hq
    rw [Bool.eq_iff_iff, named_iff, decide_eq_true_iff, hl]
    constructor
    · rintro ⟨m, hm⟩
      cases hm
      rw [show m = "ietf-interfaces" from hmodule]
      rfl
    · intro hq
      exact ⟨_, hq⟩
  obtain ⟨bs, ds, rfl, ha⟩ := h
  have hfind := Attempts.find?_leaves (l := some (ifName leaf)) ha
  rw [childValue, findChild, hlabel]
  simp only [Tree.children_node, hfind]
  by_cases hleaf : leaf = "name"
  · subst hleaf
    rfl
  · have hkey : ¬ (some (ifName "name") = some (ifName leaf)) := fun heq =>
      hleaf (congrArg QName.name (Option.some.inj heq)).symm
    rw [firstLeaf, List.find?_cons_of_neg (by simpa using hkey)]
    simp only [instanceOf, instanceStep, Step.keyLeaves, List.map_cons, List.map_nil]
    rw [List.find?_cons_of_neg (by simpa using hkey), List.find?_nil, Option.none_or]
    cases ((namesakes name its).flatMap plainLeaves).find? fun o => o.1 = some (ifName leaf) <;> rfl

/-- **What is read of an instance.** -/
theorem MergedTree.readInterface_eq (h : MergedTree its name n) :
    readInterface n = if name = "" then .error .yangDataError
      else .ok (survivor name (namesakes name its)) := by
  have hname : childValue n "name" = some name := by
    rw [h.childValue_eq]
    rfl
  have hdesc : childValue n "description" =
      (namesakes name its).findSome? IetfInterface.acceptedDescription := by
    rw [h.childValue_eq, ← firstLeaf_description]
    rfl
  have hen : childValue n "enabled" =
      if (namesakes name its).all IetfInterface.enabled then none else some "false" := by
    rw [h.childValue_eq, ← firstLeaf_enabled]
    rfl
  rw [readInterface, hname]
  by_cases hempty : name = ""
  · simp only [Option.getD_some, if_pos hempty]
  · simp only [Option.getD_some, if_neg hempty, hdesc, hen,
      h.findChild_eq_none (show "ipv4" ∉ _ by decide),
      h.findChild_eq_none (show "ipv6" ∉ _ by decide),
      h.findChild_eq_none (show "statistics" ∉ _ by decide),
      h.childValue_eq_none (show "if-index" ∉ _ by decide),
      h.childValue_eq_none (show "type" ∉ _ by decide),
      h.childValue_eq_none (show "admin-status" ∉ _ by decide),
      h.childValue_eq_none (show "oper-status" ∉ _ by decide),
      h.childValue_eq_none (show "last-change" ∉ _ by decide),
      h.childValue_eq_none (show "phys-address" ∉ _ by decide),
      h.childrenNamed_eq_nil (show "higher-layer-if" ∉ _ by decide),
      h.childrenNamed_eq_nil (show "lower-layer-if" ∉ _ by decide)]
    have henabled : Option.all (fun v => !(v == "false" || v == "0"))
        (if (namesakes name its).all IetfInterface.enabled then none else some "false") =
          (namesakes name its).all IetfInterface.enabled := by
      cases (namesakes name its).all IetfInterface.enabled <;> rfl
    rw [henabled]
    rfl

end Reading

/-! ### One cycle -/

theorem names_survivors (m : IetfInterfaces) : (survivors m).map IetfInterface.name =
    appendAllNew [] ((spellable m.ifs_).map IetfInterface.name) := by
  rw [survivors, List.map_map]
  exact (List.map_congr_left fun _ _ => rfl).trans (List.map_id _)

section Cycle

variable {S : SchemaTree} {lyd_new_path : NewPath LydNode}

/-- **What is read of the tree of a model.** -/
theorem deserialize_instances (lyd_find_path : FindPath) {m : IetfInterfaces} {t : LydNode}
    (ht : t.label = some (ifName "interfaces")) {ns : List LydNode} (hperm : t.children.Perm ns)
    (hall : List.Forall₂ (MergedTree (spellable m.ifs_))
      (appendAllNew [] ((spellable m.ifs_).map IetfInterface.name)) ns) :
    if "" ∈ m.ifs_.map IetfInterface.name then
      IetfInterfaces.deserialize lyd_find_path [t] (some t) = .error .yangDataError
    else ∃ m', IetfInterfaces.deserialize lyd_find_path [t] (some t) = .ok m' ∧
      m'.ifs_.Perm (survivors m) := by
  obtain ⟨names, hnames⟩ : ∃ names,
      names = appendAllNew [] ((spellable m.ifs_).map IetfInterface.name) := ⟨_, rfl⟩
  rw [← hnames] at hall
  have hmem : "" ∈ m.ifs_.map IetfInterface.name ↔ "" ∈ names := by
    rw [hnames, FirstOccurrence.mem_appendAllNew]
    simp only [spellable, List.not_mem_nil, false_or, List.mem_map, List.mem_filter]
    constructor
    · rintro ⟨i, hi, hname⟩
      exact ⟨i, ⟨hi, by rw [hname]; decide⟩, hname⟩
    · rintro ⟨i, ⟨hi, -⟩, hname⟩
      exact ⟨i, hi, hname⟩
  split
  · rename_i hempty
    have hnamed : (childrenNamed t "interface").Perm ns := by
      have hfilter : ns.filter (named "interface") = ns :=
        List.filter_eq_self.mpr fun n hn => by
          obtain ⟨name, -, hR⟩ := Traverse.exists_of_forall₂_right hall n hn
          exact named_iff.mpr ⟨_, hR.label⟩
      exact hfilter ▸ hperm.filter (named "interface")
    have hfind : findInterfaces lyd_find_path [t] t = some t := by
      rw [findInterfaces, if_pos (named_iff.mpr ⟨_, ht⟩)]
    have herror : (childrenNamed t "interface").mapM readInterface = .error .yangDataError := by
      refine Traverse.mapM_eq_error (fun n hn => ?_) ?_
      · obtain ⟨name, -, hR⟩ := Traverse.exists_of_forall₂_right hall n (hnamed.subset hn)
        rw [hR.readInterface_eq]
        split
        · exact Or.inr rfl
        · exact Or.inl ⟨_, rfl⟩
      · obtain ⟨n, hn, hR⟩ := Traverse.exists_of_forall₂_left hall "" (hmem.mp hempty)
        exact ⟨n, hnamed.symm.subset hn, by rw [hR.readInterface_eq, if_pos rfl]⟩
    simp only [IetfInterfaces.deserialize, readInterfaces, Option.bind_some, hfind, herror]
    rfl
  · rename_i hempty
    obtain ⟨m', hdec, js, hjs, hP, -⟩ := deserialize_of_forall₂ lyd_find_path ht hperm hall
      (P := fun name j => j = survivor name (namesakes name (spellable m.ifs_)))
      fun name hname n hn => ⟨hn.label, _, by
        rw [hn.readInterface_eq, if_neg fun heq : name = "" => hempty (hmem.mpr (heq ▸ hname))],
        rfl⟩
    refine ⟨m', hdec, hjs.trans (List.Perm.of_eq ?_)⟩
    rw [survivors, ← hnames]
    rw [← List.forall₂_eq_eq_eq, List.forall₂_map_right_iff]
    exact hP.flip

/-- **What is read back of any model** whose texts reach libyang whole. Decoding fails if a name is
empty. Otherwise it gives one interface for each name that can be spelled, with the first
description that is a text of its type and disabled if any is, and without a type, addresses and
operational fields. The schema is any with the nodes the encoder writes to and no keyed list below
an interface that an apostrophe could lead into (`ListsBelow`), and libyang does what it
documents. -/
theorem deserialize_survivors (hS : InterfacesSchema S) (hM : ModuleNames S)
    (hlists : S.ListsBelow interfacePlace leafNames) (h : NewPath.Lawful S lyd_new_path)
    (lyd_find_path : FindPath) {m : IetfInterfaces} (hnul : m.NulFree) :
    ∃ t, m.serialize lyd_new_path = .ok (some t) ∧
      (if "" ∈ m.ifs_.map IetfInterface.name then
        IetfInterfaces.deserialize lyd_find_path [t] (some t) = .error .yangDataError
      else ∃ m', IetfInterfaces.deserialize lyd_find_path [t] (some t) = .ok m' ∧
        m'.ifs_.Perm (survivors m)) := by
  obtain ⟨t, hrun, ht, ns, hperm, hall⟩ := serialize_instances hS hM hlists h hnul
  exact ⟨t, hrun, deserialize_instances lyd_find_path ht hperm hall⟩

theorem Reference.moduleNames : ModuleNames Reference.schema where
  self _ _ h := Reference.moduleOf_eq h
  ianaift := by decide

/-- Two interfaces of one name, and one whose name holds an apostrophe. -/
def sharedName : IetfInterfaces :=
  ⟨[{ name := "eth0", description := some "up" },
    { name := "it's" },
    { name := "eth0", description := some "down", type := some .ethernetCsmacd, enabled := false }]⟩

theorem sharedName_nulFree : sharedName.NulFree := by decide

theorem deserialize_survivors_sharedName :
    ∃ t, sharedName.serialize (Reference.newPath Reference.schema) = .ok (some t) ∧
      (if "" ∈ sharedName.ifs_.map IetfInterface.name then
        IetfInterfaces.deserialize Reference.findPath [t] (some t) = .error .yangDataError
      else ∃ m', IetfInterfaces.deserialize Reference.findPath [t] (some t) = .ok m' ∧
        m'.ifs_.Perm (survivors sharedName)) :=
  deserialize_survivors Reference.interfacesSchema Reference.moduleNames Reference.interfaceLists
    (Reference.newPath_lawful _) Reference.findPath sharedName_nulFree

example : survivors sharedName =
    [{ name := "eth0", description := some "up", enabled := false }] := by decide

/-- A cycle of encoding and decoding. -/
def Cycle (lyd_new_path : NewPath LydNode) (lyd_find_path : FindPath) (m m' : IetfInterfaces) :
    Prop :=
  ∃ t, m.serialize lyd_new_path = .ok (some t) ∧
    IetfInterfaces.deserialize lyd_find_path [t] (some t) = .ok m'

/-- A cycle succeeds unless a name is empty, and leaves the survivors. -/
theorem cycle_iff (hS : InterfacesSchema S) (hM : ModuleNames S)
    (hlists : S.ListsBelow interfacePlace leafNames) (h : NewPath.Lawful S lyd_new_path)
    (lyd_find_path : FindPath) {m : IetfInterfaces} (hnul : m.NulFree) :
    ((∃ m', Cycle lyd_new_path lyd_find_path m m') ↔ "" ∉ m.ifs_.map IetfInterface.name) ∧
      ∀ m', Cycle lyd_new_path lyd_find_path m m' → m'.ifs_.Perm (survivors m) := by
  obtain ⟨t, hrun, ht, ns, hperm, hall⟩ := serialize_instances hS hM hlists h hnul
  have hread := deserialize_instances lyd_find_path ht hperm hall
  by_cases hempty : "" ∈ m.ifs_.map IetfInterface.name
  · rw [if_pos hempty] at hread
    have hnone : ∀ m', ¬ Cycle lyd_new_path lyd_find_path m m' := by
      rintro m' ⟨t', hrun', hdec⟩
      cases hrun.symm.trans hrun'
      cases hread.symm.trans hdec
    exact ⟨iff_of_false (fun ⟨m', hm'⟩ => hnone m' hm') fun hnot => hnot hempty,
      fun m' hm' => absurd hm' (hnone m')⟩
  · rw [if_neg hempty] at hread
    obtain ⟨m', hdec, hperm⟩ := hread
    refine ⟨iff_of_true ⟨m', t, hrun, hdec⟩ hempty, ?_⟩
    rintro m'' ⟨t', hrun', hdec'⟩
    cases hrun.symm.trans hrun'
    cases hdec.symm.trans hdec'
    exact hperm

/-! ### Further cycles -/

/-- An interface that has been through a cycle. -/
structure Survived (i : IetfInterface) : Prop where
  spellable : Spellable i.name
  plain : i = survivor i.name [i]

/-- A description that was accepted. -/
theorem yangText_of_findSome? {its : List IetfInterface} {d : String}
    (h : its.findSome? IetfInterface.acceptedDescription = some d) : YangText d := by
  obtain ⟨i, -, hd⟩ := List.exists_of_findSome?_eq_some h
  obtain ⟨v, -, hv⟩ := Option.bind_eq_some_iff.mp hd
  obtain ⟨htext, rfl⟩ := yangString_eq_some_iff.mp hv
  exact htext

theorem survived_of_mem {m : IetfInterfaces} {i : IetfInterface} (hi : i ∈ survivors m) :
    Survived i := by
  obtain ⟨name, hname, rfl⟩ := List.mem_map.mp hi
  refine ⟨?_, ?_⟩
  · rcases FirstOccurrence.mem_appendAllNew.mp hname with hnil | hname
    · cases hnil
    · obtain ⟨j, hj, rfl⟩ := List.mem_map.mp hname
      exact of_decide_eq_true (List.mem_filter.mp hj).2
  · rw [survivor, survivor, List.findSome?_singleton, IetfInterface.acceptedDescription]
    refine congrArg₂ (fun description enabled =>
      ({ name, description, enabled } : IetfInterface)) ?_ ?_
    · cases hd : (namesakes name (StelleriYang.spellable m.ifs_)).findSome?
        IetfInterface.acceptedDescription with
      | none => rfl
      | some d => rw [Option.bind_some, (yangText_of_findSome? hd).yangString_eq]
    · simp

/-- What has been through a cycle reaches libyang whole. -/
theorem Survived.nulFree {i : IetfInterface} (h : Survived i) : i.NulFree := by
  intro s hs
  rw [h.plain] at hs
  rcases List.mem_cons.mp hs with rfl | hs
  · exact h.spellable.text.nulFree
  · simp only [survivor, Option.toList_none, List.flatMap_nil, List.append_nil,
      Option.mem_toList] at hs
    exact (yangText_of_findSome? hs).nulFree

theorem distinct_survivors (m : IetfInterfaces) : Distinct IetfInterface.name (survivors m) := by
  rw [Distinct, names_survivors]
  exact FirstOccurrence.nodup_appendAllNew List.nodup_nil

/-- **Nothing more is lost.** -/
theorem survivors_eq_self {its : List IetfInterface} (h : ∀ i ∈ its, Survived i)
    (hdistinct : Distinct IetfInterface.name its) : survivors ⟨its⟩ = its := by
  have hspell : spellable its = its :=
    List.filter_eq_self.mpr fun i hi => decide_eq_true (h i hi).spellable
  rw [survivors, hspell, FirstOccurrence.appendAllNew_of_nodup hdistinct, List.map_map]
  refine (List.map_congr_left fun i hi => ?_).trans (List.map_id its)
  rw [Function.comp_apply, namesakes, hdistinct.queue_eq hi]
  exact (h i hi).plain.symm

/-- What is left of the survivors, in any order, are the survivors. -/
theorem survivors_of_perm {m : IetfInterfaces} {its : List IetfInterface}
    (h : its.Perm (survivors m)) : survivors ⟨its⟩ = its :=
  survivors_eq_self (fun _ hi => survived_of_mem (h.subset hi))
    ((h.map IetfInterface.name).nodup_iff.mpr (distinct_survivors m))

theorem nulFree_of_perm {m : IetfInterfaces} {its : List IetfInterface}
    (h : its.Perm (survivors m)) : (⟨its⟩ : IetfInterfaces).NulFree :=
  fun _ hi => (survived_of_mem (h.subset hi)).nulFree

theorem yangText_of_perm {m : IetfInterfaces} {its : List IetfInterface}
    (h : its.Perm (survivors m)) : ∀ i ∈ its, YangText i.name :=
  fun _ hi => (survived_of_mem (h.subset hi)).spellable.text

/-- No name becomes empty. -/
theorem empty_notMem_names {m : IetfInterfaces} {its : List IetfInterface}
    (h : its.Perm (survivors m)) (hm : "" ∉ m.ifs_.map IetfInterface.name) :
    "" ∉ its.map IetfInterface.name := by
  intro hempty
  have hmem := (h.map IetfInterface.name).subset hempty
  rw [names_survivors, FirstOccurrence.mem_appendAllNew] at hmem
  rcases hmem with hnil | hmem
  · cases hnil
  · obtain ⟨i, hi, hname⟩ := List.mem_map.mp hmem
    exact hm (List.mem_map.mpr ⟨i, (List.mem_filter.mp hi).1, hname⟩)

/-- **A cycle changes nothing after the first**, but for the order, and fails no more, for a first
model that is any at all but that its texts reach libyang whole. With them those of all others do.
The schema and libyang are as for the first cycle. -/
theorem cycles_stable (hS : InterfacesSchema S) (hM : ModuleNames S)
    (hlists : S.ListsBelow interfacePlace leafNames) (h : NewPath.Lawful S lyd_new_path)
    (lyd_find_path : FindPath) {m m₁ m₂ : IetfInterfaces} (hnul : m.NulFree)
    (hfirst : Cycle lyd_new_path lyd_find_path m m₁)
    (hmore : Relation.ReflTransGen (Cycle lyd_new_path lyd_find_path) m₁ m₂) :
    m₂.ifs_.Perm m₁.ifs_ ∧ ∃ m₃, Cycle lyd_new_path lyd_find_path m₂ m₃ := by
  obtain ⟨hok, hleft⟩ := cycle_iff hS hM hlists h lyd_find_path hnul
  -- every model on the way is the survivors, in some order
  have hall : m₂.ifs_.Perm (survivors m) := by
    induction hmore with
    | refl => exact hleft m₁ hfirst
    | @tail a b _ hab ih =>
      have hb := (cycle_iff hS hM hlists h lyd_find_path (nulFree_of_perm ih)).2 b hab
      exact (hb.trans (.of_eq (survivors_of_perm ih))).trans ih
  exact ⟨hall.trans (hleft m₁ hfirst).symm, (cycle_iff hS hM hlists h lyd_find_path
    (nulFree_of_perm hall)).1.mpr (empty_notMem_names hall (hok.mp ⟨m₁, hfirst⟩))⟩

/-- Two cycles from interfaces of one name. -/
theorem cycles_stable_sharedName :
    let newPath := Reference.newPath Reference.schema
    ∃ m₁ m₂ m₃, Cycle newPath Reference.findPath sharedName m₁ ∧
      Cycle newPath Reference.findPath m₁ m₂ ∧ Cycle newPath Reference.findPath m₂ m₃ ∧
        m₂.ifs_.Perm m₁.ifs_ := by
  intro newPath
  have hlawful : NewPath.Lawful Reference.schema newPath := Reference.newPath_lawful _
  obtain ⟨m₁, hfirst⟩ := (cycle_iff Reference.interfacesSchema Reference.moduleNames
    Reference.interfaceLists hlawful Reference.findPath sharedName_nulFree).1.mpr (by decide)
  obtain ⟨-, m₂, hsecond⟩ := cycles_stable Reference.interfacesSchema Reference.moduleNames
    Reference.interfaceLists hlawful Reference.findPath sharedName_nulFree hfirst .refl
  obtain ⟨hperm, m₃, hthird⟩ := cycles_stable Reference.interfacesSchema Reference.moduleNames
    Reference.interfaceLists hlawful Reference.findPath sharedName_nulFree hfirst (.single hsecond)
  exact ⟨m₁, m₂, m₃, hfirst, hsecond, hthird, hperm⟩

end Cycle

/-! ### After calls on the model -/

/-- What the calls on a model are calls on: for each name, a queue of interfaces. -/
abbrev InterfaceQueues := String → List IetfInterface

/-- Adding puts an interface at the end of the queue of its name, removing takes the one in
front. -/
def InterfaceQueues.after (s : InterfaceQueues) : InterfacesCall → InterfaceQueues
  | .addInterface i => Function.update s i.name (s i.name ++ [i])
  | .removeInterfaceByName name => Function.update s name (s name).tail

/-- The queues of a model. -/
def IetfInterfaces.queues (m : IetfInterfaces) : InterfaceQueues := fun name =>
  namesakes name m.ifs_

/-- **A call on a model is a call on its queues.** -/
theorem InterfacesCall.queues_after (m : IetfInterfaces) (c : InterfacesCall) :
    (c.after m).queues = m.queues.after c := by
  funext name
  cases c with
  | addInterface i =>
    have hone : (InterfacesCall.after m (.addInterface i)).queues name =
        if i.name = name then m.queues name ++ [i] else m.queues name :=
      KeyedList.queue_concat name m.ifs_ i
    rw [hone, InterfaceQueues.after, Function.update_apply]
    by_cases hname : i.name = name
    · rw [if_pos hname, if_pos hname.symm, hname]
    · rw [if_neg hname, if_neg fun heq => hname heq.symm]
  | removeInterfaceByName name' =>
    have hone : (InterfacesCall.after m (.removeInterfaceByName name')).queues name =
        if name' = name then (m.queues name).tail else m.queues name :=
      KeyedList.queue_removeFirst name name' m.ifs_
    rw [hone, InterfaceQueues.after, Function.update_apply]
    by_cases hname : name' = name
    · rw [if_pos hname, if_pos hname.symm, hname]
    · rw [if_neg hname, if_neg fun heq => hname heq.symm]

/-- The same for the calls of a run. -/
theorem queues_foldl (calls : List InterfacesCall) : ∀ m : IetfInterfaces,
    (calls.foldl InterfacesCall.after m).queues = calls.foldl InterfaceQueues.after m.queues := by
  induction calls with
  | nil => intro m; rfl
  | cons c calls ih => intro m; rw [List.foldl_cons, ih, c.queues_after, List.foldl_cons]

/-- What is read back of the interfaces of one name. -/
def readBack (name : String) (its : List IetfInterface) : List IetfInterface :=
  if its = [] ∨ ¬ Spellable name then [] else [survivor name its]

theorem namesakes_spellable (name : String) (its : List IetfInterface) :
    namesakes name (spellable its) = if Spellable name then namesakes name its else [] := by
  rw [namesakes, KeyedList.queue, spellable, List.filter_filter]
  split
  · rename_i hspell
    refine List.filter_congr fun i _ => ?_
    by_cases hname : i.name = name
    · simp [hname, hspell]
    · simp [hname]
  · rename_i hspell
    refine List.filter_eq_nil_iff.mpr fun i _ hi => ?_
    obtain ⟨hname, hclean⟩ : i.name = name ∧ Spellable i.name := by simpa using hi
    exact hspell (hname ▸ hclean)

/-- The survivors, name by name. -/
theorem namesakes_survivors (name : String) (m : IetfInterfaces) :
    namesakes name (survivors m) = readBack name (m.queues name) := by
  have hmem : name ∈ appendAllNew [] ((spellable m.ifs_).map IetfInterface.name) ↔
      namesakes name (spellable m.ifs_) ≠ [] := by
    rw [FirstOccurrence.mem_appendAllNew, namesakes, KeyedList.queue, ne_eq,
      List.filter_eq_nil_iff]
    simp
  have hspell := namesakes_spellable name m.ifs_
  rw [readBack, IetfInterfaces.queues]
  by_cases hin : name ∈ appendAllNew [] ((spellable m.ifs_).map IetfInterface.name)
  · have hne := hmem.mp hin
    rw [hspell] at hne
    have hname : Spellable name := by
      by_contra hnot
      exact hne (if_neg hnot)
    rw [if_pos hname] at hne hspell
    rw [if_neg (by simp [hne, hname])]
    have hsurvivor : survivor name (namesakes name m.ifs_) ∈ survivors m := by
      rw [survivors, ← hspell]
      exact List.mem_map_of_mem (f := fun name => survivor name (namesakes name _)) hin
    exact (distinct_survivors m).queue_eq hsurvivor
  · have hnil : namesakes name (spellable m.ifs_) = [] := by
      by_contra hne
      exact hin (hmem.mpr hne)
    rw [hspell] at hnil
    rw [if_pos]
    · refine List.filter_eq_nil_iff.mpr fun j hj hname => hin ?_
      rw [← names_survivors]
      exact List.mem_map.mpr ⟨j, hj, of_decide_eq_true hname⟩
    · by_cases hname : Spellable name
      · rw [if_pos hname] at hnil
        exact Or.inl hnil
      · exact Or.inr hname

/-- **After any calls on a new model** its interfaces are, name by name, those of queues the calls
run on, and a cycle fails exactly if something is left under the empty name, and otherwise gives for
each name what its queue comes to: nothing if it is empty or the name cannot be spelled, and else
one interface. The texts that are added hold no NULs. -/
theorem cycle_after_run {S : SchemaTree} {lyd_new_path : NewPath LydNode}
    (hS : InterfacesSchema S) (hM : ModuleNames S)
    (hlists : S.ListsBelow interfacePlace leafNames) (h : NewPath.Lawful S lyd_new_path)
    (lyd_find_path : FindPath) {calls : List InterfacesCall} (hnul : AllNulFree calls) :
    let m : IetfInterfaces := calls.foldl InterfacesCall.after {}
    let queues : InterfaceQueues := calls.foldl InterfaceQueues.after fun _ => []
    m.queues = queues ∧
      ((∃ m', Cycle lyd_new_path lyd_find_path m m') ↔ queues "" = []) ∧
      ∀ m', Cycle lyd_new_path lyd_find_path m m' →
        ∀ name, namesakes name m'.ifs_ = readBack name (queues name) := by
  intro m queues
  have hqueues : m.queues = queues := queues_foldl calls {}
  have hlast : calls.foldl InterfacesCall.after {} ∈ Runs.states InterfacesCall.after calls {} :=
    Runs.foldl_mem_states calls _
  have hm : m.NulFree := nulFree_of_mem_models hnul m hlast
  obtain ⟨hok, hleft⟩ := cycle_iff hS hM hlists h lyd_find_path hm
  refine ⟨hqueues, hok.trans ?_, fun m' hm' name => ?_⟩
  · rw [← hqueues, IetfInterfaces.queues, namesakes, KeyedList.queue, List.filter_eq_nil_iff]
    simp
  · have hperm : (namesakes name m'.ifs_).Perm (namesakes name (survivors m)) :=
      (hleft m' hm').filter _
    rw [namesakes_survivors, hqueues] at hperm
    rw [readBack] at hperm ⊢
    split at hperm
    · rename_i hnone
      rw [if_pos hnone, List.perm_nil.mp hperm]
    · rename_i hsome
      rw [if_neg hsome, List.perm_singleton.mp hperm]

/-- Three interfaces of one name, of which the first is removed again. -/
def replacedInterface : List InterfacesCall :=
  sharedName.ifs_.map .addInterface ++
    [.addInterface { name := "eth0" }, .removeInterfaceByName "eth0"]

theorem replacedInterface_allNulFree : AllNulFree replacedInterface := by
  intro i hi
  rcases List.mem_append.mp hi with hi | hi
  · obtain ⟨j, hj, heq⟩ := List.mem_map.mp hi
    cases heq
    exact sharedName_nulFree i hj
  · simp only [List.mem_cons, InterfacesCall.addInterface.injEq, reduceCtorEq, List.not_mem_nil,
      or_false] at hi
    subst hi
    decide

theorem cycle_after_run_replacedInterface :
    let newPath := Reference.newPath Reference.schema
    let m : IetfInterfaces := replacedInterface.foldl InterfacesCall.after {}
    let queues : InterfaceQueues := replacedInterface.foldl InterfaceQueues.after fun _ => []
    m.queues = queues ∧
      ((∃ m', Cycle newPath Reference.findPath m m') ↔ queues "" = []) ∧
      ∀ m', Cycle newPath Reference.findPath m m' →
        ∀ name, namesakes name m'.ifs_ = readBack name (queues name) :=
  cycle_after_run Reference.interfacesSchema Reference.moduleNames Reference.interfaceLists
    (Reference.newPath_lawful _) Reference.findPath replacedInterface_allNulFree

example : readBack "eth0" ((replacedInterface.foldl InterfaceQueues.after fun _ => []) "eth0") =
    [{ name := "eth0", description := some "down", enabled := false }] := by decide

end StelleriYang

import StelleriYang.Lib.KeyedList
import StelleriYang.Lib.Runs
import StelleriYang.Lib.Traverse
import StelleriYang.Reference

/-!
# The name as the key of the interface list

`addInterface` appends whatever it is given, `removeInterfaceByName` erases the first interface of
a name, and `serialize` spells the path of the instance that has the name. The last two rely on
there being one interface of a name, and nothing but the caller sees to it.

A name may hold an apostrophe, or a character that is none of the type `string`; then the paths that
are spelled with it lead nowhere. All texts are taken to reach libyang whole: of a name that is cut
at a NUL, the path of another name may be left.

## Main definitions

* `IetfInterfaces.removeInterfaceByName`
* `InterfacesCall` — a call on a model
* `KeyedByName` — names are unique, removal is complete, and no two interfaces are mixed up
* `AllNew` — every interface that is added has a name that is not there
* `AllNulFree` — no interface that is added has a text with a NUL

## Main results

* `address_eq_none_of_name` — the paths of a name with an apostrophe
* `callAll_clean` — `serialize` leaves out the interfaces whose names cannot be spelled
* `serialize_separate` — interfaces of different names have instances of their own
* `InterfacesCall.distinct_after_iff` — one call
* `keyedByName_iff` — every run
-/

namespace StelleriYang

open Interfaces
open KeyedList (Distinct removeFirst)
open PathText (quote)

/-! ### Calls on a model -/

/-- `removeInterfaceByName`: whether there was one, and the model without it. -/
def IetfInterfaces.removeInterfaceByName (m : IetfInterfaces) (name : String) :
    Bool × IetfInterfaces :=
  ((removeFirst IetfInterface.name name m.ifs_).1, ⟨(removeFirst IetfInterface.name name m.ifs_).2⟩)

theorem IetfInterfaces.removeInterfaceByName_found (m : IetfInterfaces) (name : String) :
    (m.removeInterfaceByName name).1 = true ↔ name ∈ m.ifs_.map IetfInterface.name :=
  KeyedList.removeFirst_fst name m.ifs_

/-- A call that changes a model. -/
inductive InterfacesCall where
  | addInterface (i : IetfInterface)
  | removeInterfaceByName (name : String)
  deriving DecidableEq, Repr

namespace InterfacesCall

/-- The model after a call. -/
def after (m : IetfInterfaces) : InterfacesCall → IetfInterfaces
  | addInterface i => m.addInterface i
  | removeInterfaceByName name => (m.removeInterfaceByName name).2

/-- An interface that is added has a name that is not there. -/
def New (m : IetfInterfaces) : InterfacesCall → Prop
  | addInterface i => i.name ∉ m.ifs_.map IetfInterface.name
  | removeInterfaceByName _ => True

instance (m : IetfInterfaces) : ∀ c : InterfacesCall, Decidable (c.New m)
  | addInterface i => inferInstanceAs (Decidable (i.name ∉ m.ifs_.map IetfInterface.name))
  | removeInterfaceByName _ => isTrue trivial

end InterfacesCall

/-- The models of a run, the first one included. -/
def models : List InterfacesCall → IetfInterfaces → List IetfInterfaces :=
  Runs.states InterfacesCall.after

/-- Every interface that is added in a run has a name that is not there. -/
def AllNew : List InterfacesCall → IetfInterfaces → Prop :=
  Runs.AllMeet InterfacesCall.after fun m c => c.New m

instance (calls : List InterfacesCall) (m : IetfInterfaces) : Decidable (AllNew calls m) :=
  Runs.decidableAllMeet calls m

/-- The texts of the interfaces that are added reach libyang whole. -/
def AllNulFree (calls : List InterfacesCall) : Prop :=
  ∀ i, InterfacesCall.addInterface i ∈ calls → i.NulFree

/-- **The name is a key**: no two interfaces share one, the removal of a name takes the interface of
that name and no other, and every instance `serialize` makes holds what the calls for one interface
inserted, and nothing else. -/
structure KeyedByName (S : SchemaTree) (lyd_new_path : NewPath LydNode) (m : IetfInterfaces) :
    Prop where
  unique : (m.ifs_.map IetfInterface.name).Nodup
  removed : ∀ name, (m.removeInterfaceByName name).2.ifs_ = m.ifs_.filter fun i => i.name ≠ name
  separate : ∀ t, m.serialize lyd_new_path = .ok (some t) →
    ∀ n ∈ t.children, ∃ i ∈ m.ifs_, InterfaceTree S i n

/-! ### Names with an apostrophe -/

/-- The names the paths of an interface end with, but for those of the leaves of an address. -/
def leafNames : List String := ["name", "description", "enabled", "type", "mtu"]

section Quote

variable {S : SchemaTree} {name : String}

/-- A path seen from the instance that has two more apostrophes, or ends with a name of
`leafNames`. -/
def Resists (path : String) : Prop :=
  2 ≤ path.toList.count quote ∨
    ∃ n ∈ leafNames, path = n ∨ ∃ front, path = front ++ "/" ++ n

/-- **A name with an apostrophe**: what is spelled with it, if it is a path at all, has a predicate
too many for the lists below an interface. -/
theorem address_eq_none_of_name (hS : InterfacesSchema S)
    (hlists : S.ListsBelow interfacePlace leafNames) (hname : quote ∈ name.toList) {path : String}
    (hpath : Resists path) :
    S.address rootPlace ((interfaceStep name).text ++ "/" ++ path) = none := by
  refine Option.eq_none_iff_forall_ne_some.mpr fun a ha => ?_
  obtain ⟨m, t, rest, b, hm, -, hparse, hb, hcount⟩ :=
    SchemaTree.address_instance (interfaceStep_named name) rfl (fun m hm kind hk => by
      obtain rfl : m = "ietf-interfaces" := (Option.some.inj hm).symm
      exact Option.some.inj (hk.symm.trans hS.interface)) ha
  obtain rfl : m = "ietf-interfaces" := (Option.some.inj hm).symm
  obtain ⟨hle, hlast⟩ := hlists.resolve hb
  have hone : 1 ≤ name.toList.count quote := List.count_pos_iff.mpr hname
  rcases hpath with hquotes | ⟨n, hn, hpath⟩
  · omega
  · have hident : PathText.IsIdent n := (by decide : ∀ n ∈ leafNames, PathText.IsIdent n) n hn
    obtain ⟨front, hfront⟩ : ∃ front, t :: rest = front ++ [⟨none, n, []⟩] := by
      rcases hpath with rfl | ⟨front, rfl⟩
      · exact PathText.parse_slash_name hident hparse
      · refine PathText.parse_slash_name (s := (interfaceStep name).text ++ "/" ++ front) hident ?_
        simpa only [String.append_assoc] using hparse
    have hrest : PathText.predCount rest ≠ 0 := by omega
    cases front with
    | nil =>
      obtain ⟨-, rfl⟩ := List.cons.inj hfront
      exact hrest rfl
    | cons t' front => exact hlast hrest front n (List.cons.inj hfront).2 hn

theorem resists_leaf : ∀ n ∈ leafNames, Resists n := fun n h => Or.inr ⟨n, h, Or.inl rfl⟩

theorem resists_ipInner (family : String) {ip : IetfIp} {c : String × String}
    (hc : c ∈ ipInner ip) : Resists (below (familyStep family) c).1 := by
  rcases List.mem_append.mp hc with hc | hc
  · left
    obtain ⟨a, -, hc⟩ := List.mem_flatMap.mp hc
    obtain ⟨d, -, rfl⟩ := List.mem_map.mp hc
    have haddress := PathText.Step.count_quote_text (addressStep_named (splitAddress a).1)
    simp only [addressStep, List.length_singleton] at haddress
    simp only [below, String.toList_append, List.count_append, addressStep]
    omega
  · obtain ⟨mtu, -, rfl⟩ := List.mem_map.mp hc
    exact Or.inr ⟨"mtu", by decide, Or.inr ⟨(familyStep family).text, rfl⟩⟩

theorem resists_interfaceInner {it : IetfInterface} {c : String × String}
    (hc : c ∈ ("name", it.name) :: interfaceInner it) : Resists c.1 := by
  simp only [interfaceInner, List.mem_cons, List.mem_append, List.mem_map, List.mem_flatMap] at hc
  rcases hc with rfl | (((⟨d, -, rfl⟩ | hc) | ⟨t, -, rfl⟩) | ⟨ip, -, d, hd, rfl⟩) |
    ⟨ip, -, d, hd, rfl⟩
  · exact resists_leaf "name" (by decide)
  · exact resists_leaf "description" (by decide)
  · split at hc
    · cases hc
    · obtain rfl := List.mem_singleton.mp hc
      exact resists_leaf "enabled" (by decide)
  · exact resists_leaf "type" (by decide)
  · exact resists_ipInner "ipv4" hd
  · exact resists_ipInner "ipv6" hd

/-- **A name that cannot be spelled**: its paths lead nowhere. -/
theorem address_eq_none_of_not_spellable (hS : InterfacesSchema S)
    (hlists : S.ListsBelow interfacePlace leafNames) (hname : ¬ Spellable name) {path : String}
    (hpath : Resists path) :
    S.address rootPlace ((interfaceStep name).text ++ "/" ++ path) = none := by
  by_cases hquote : quote ∈ name.toList
  · exact address_eq_none_of_name hS hlists hquote hpath
  · -- the literal is no value of the key
    have htext : ¬ YangText name := fun htext => hname ⟨hquote, htext⟩
    rw [SchemaTree.address_step (interfaceStep_named name) (interfaceStep_plain hquote),
      enter_interface hS, yangString_eq_none htext]
    rfl

variable {lyd_new_path : NewPath LydNode} {q : QName}

/-- Calls whose paths lead nowhere. -/
theorem callAll_of_address_eq_none (h : NewPath.Lawful S lyd_new_path) {t : LydNode}
    (ht : t.label = some q) : ∀ {calls : List (String × String)}, (∀ c ∈ calls, WholeCall c) →
    (∀ c ∈ calls, S.address (.root q) c.1 = none) →
      callAll lyd_new_path (some t) calls = some t := by
  intro calls
  induction calls with
  | nil => intro _ _; rfl
  | cons c calls ih =>
    intro hwhole hcalls
    have hput : put lyd_new_path (some t) c.1 c.2 = some t := by
      rw [(hwhole c (by simp)).put_eq]
      exact h.unchanged t c.1 _ (h.unresolved t q c.1 c.2 ht (hcalls c (by simp)))
    rw [callAll, List.foldl_cons, hput]
    exact ih (fun d hd => hwhole d (by simp [hd])) fun d hd => hcalls d (by simp [hd])

/-- The calls for an interface whose name cannot be spelled change nothing. -/
theorem callAll_interfaceCalls_of_not_spellable (hS : InterfacesSchema S)
    (hlists : S.ListsBelow interfacePlace leafNames) (h : NewPath.Lawful S lyd_new_path)
    {it : IetfInterface} (hnul : it.NulFree) (hname : ¬ Spellable it.name) {t : LydNode}
    (ht : t.label = some (ifName "interfaces")) :
    callAll lyd_new_path (some t) (interfaceCalls it) = some t := by
  refine callAll_of_address_eq_none h ht (wholeCall_interfaceCalls hnul) fun c hc => ?_
  rw [interfaceCalls_eq] at hc
  obtain ⟨d, hd, rfl⟩ := List.mem_map.mp hc
  exact address_eq_none_of_not_spellable hS hlists hname (resists_interfaceInner hd)

/-- So `serialize` leaves them out. The induction is on the interfaces still to come, from any tree
they are written into. -/
theorem callAll_clean (hS : InterfacesSchema S) (hlists : S.ListsBelow interfacePlace leafNames)
    (h : NewPath.Lawful S lyd_new_path) (its : List IetfInterface)
    (hnul : ∀ it ∈ its, it.NulFree) : ∀ {t : LydNode}, t.label = some (ifName "interfaces") →
    callAll lyd_new_path (some t) (its.flatMap interfaceCalls) =
      callAll lyd_new_path (some t)
        ((its.filter fun i => Spellable i.name).flatMap interfaceCalls) := by
  induction its with
  | nil => intro t _; rfl
  | cons it its ih =>
    intro t ht
    have hit : it.NulFree := hnul it (by simp)
    replace ih := fun {t} => ih (fun i hi => hnul i (by simp [hi])) (t := t)
    by_cases hname : Spellable it.name
    · obtain ⟨bs, cs, -, hrun⟩ := callAll_attempts h ht (wholeCall_interfaceCalls hit)
        (covered_interface hS hname.quote)
      rw [List.filter_cons_of_pos (by simpa using hname), List.flatMap_cons, List.flatMap_cons,
        callAll_append, callAll_append, hrun, ih (by simpa using ht)]
    · rw [List.filter_cons_of_neg (by simpa using hname), List.flatMap_cons, callAll_append,
        callAll_interfaceCalls_of_not_spellable hS hlists h hit hname ht, ih ht]

end Quote

/-! ### Different names -/

section Names

variable {S : SchemaTree} {lyd_new_path : NewPath LydNode}

/-- **Interfaces of different names have instances of their own.** -/
theorem serialize_separate (hS : InterfacesSchema S)
    (hlists : S.ListsBelow interfacePlace leafNames) (h : NewPath.Lawful S lyd_new_path)
    {m : IetfInterfaces} (hnul : m.NulFree) (hdistinct : Distinct IetfInterface.name m.ifs_)
    {t : LydNode}
    (ht : m.serialize lyd_new_path = .ok (some t)) :
    ∀ n ∈ t.children, ∃ i ∈ m.ifs_, InterfaceTree S i n := by
  obtain ⟨clean, hclean⟩ : ∃ clean, clean = m.ifs_.filter fun i => Spellable i.name := ⟨_, rfl⟩
  have hroot : lyd_new_path none "/ietf-interfaces:interfaces" none =
      (.LY_SUCCESS, some (LydNode.inner (ifName "interfaces") [])) :=
    h.root (ifName "interfaces") (show PathText.IsIdent "ietf-interfaces" by decide) hS.interfaces
  have hsame : m.serialize lyd_new_path = (⟨clean⟩ : IetfInterfaces).serialize lyd_new_path := by
    rw [IetfInterfaces.serialize_eq _ hroot, IetfInterfaces.serialize_eq _ hroot,
      callAll_clean hS hlists h m.ifs_ hnul rfl, hclean]
  have hsub : clean.Sublist m.ifs_ := hclean ▸ List.filter_sublist
  have hspell : ∀ i ∈ clean, Spellable i.name := by
    intro i hi
    rw [hclean] at hi
    exact of_decide_eq_true (List.mem_filter.mp hi).2
  obtain ⟨t', ht', -, ns, hperm, hall⟩ := serialize_tree hS h (m := ⟨clean⟩)
    (fun i hi => hnul i (hsub.subset hi)) hspell
    (hdistinct.sublist (hsub.map IetfInterface.name))
  rw [hsame, ht'] at ht
  cases ht
  intro n hn
  obtain ⟨i, hi, htree⟩ := Traverse.exists_of_forall₂_right hall n (hperm.subset hn)
  exact ⟨i, hsub.subset hi, htree⟩

theorem keyedByName_iff_distinct (hS : InterfacesSchema S)
    (hlists : S.ListsBelow interfacePlace leafNames) (h : NewPath.Lawful S lyd_new_path)
    {m : IetfInterfaces} (hnul : m.NulFree) :
    KeyedByName S lyd_new_path m ↔ Distinct IetfInterface.name m.ifs_ := by
  constructor
  · intro hm
    exact hm.unique
  · intro hm
    exact ⟨hm, KeyedList.distinct_iff.mp hm, fun t ht =>
      serialize_separate hS hlists h hnul hm ht⟩

/-- **What one call does to the names**: only an interface that is not new makes two of one name. -/
theorem InterfacesCall.distinct_after_iff {m : IetfInterfaces}
    (hm : Distinct IetfInterface.name m.ifs_) (c : InterfacesCall) :
    Distinct IetfInterface.name (c.after m).ifs_ ↔ c.New m := by
  cases c with
  | addInterface i =>
    show Distinct IetfInterface.name (m.ifs_ ++ [i]) ↔ _
    rw [KeyedList.distinct_concat, and_iff_right hm]
    rfl
  | removeInterfaceByName name => exact iff_of_true (hm.removeFirst name) trivial

/-- No call brings in a text with a NUL that was not handed to it. -/
theorem InterfacesCall.nulFree_after {m : IetfInterfaces} (hm : m.NulFree) {c : InterfacesCall}
    (hc : ∀ i, c = .addInterface i → i.NulFree) : (c.after m).NulFree := by
  cases c with
  | addInterface i =>
    intro j hj
    rcases List.mem_append.mp hj with hj | hj
    · exact hm j hj
    · obtain rfl := List.mem_singleton.mp hj
      exact hc j rfl
  | removeInterfaceByName name =>
    exact fun j hj => hm j ((KeyedList.removeFirst_sublist name m.ifs_).subset hj)

theorem nulFree_of_mem_models {calls : List InterfacesCall} (hnul : AllNulFree calls) :
    ∀ m ∈ models calls {}, m.NulFree :=
  Runs.forall_states
    (fun _ hc _ hm => InterfacesCall.nulFree_after hm fun i heq => hnul i (heq ▸ hc))
    (fun i hi => by cases hi)

/-- **The name is a key in every model of a run exactly if every interface that is added has a name
that is not there.** The texts that are added hold no NULs: libyang gets C strings, so of a name
that does, the path of another may be left. -/
theorem keyedByName_iff (hS : InterfacesSchema S)
    (hlists : S.ListsBelow interfacePlace leafNames) (h : NewPath.Lawful S lyd_new_path)
    {calls : List InterfacesCall} (hnul : AllNulFree calls) :
    (∀ m ∈ models calls {}, KeyedByName S lyd_new_path m) ↔ AllNew calls {} := by
  have hkey : (∀ m ∈ models calls {}, KeyedByName S lyd_new_path m) ↔
      ∀ m ∈ models calls {}, Distinct IetfInterface.name m.ifs_ :=
    forall₂_congr fun m hm => keyedByName_iff_distinct hS hlists h (nulFree_of_mem_models hnul m hm)
  rw [hkey]
  have hempty : Distinct IetfInterface.name ({} : IetfInterfaces).ifs_ := List.nodup_nil
  exact Runs.forall_states_iff (P := fun m : IetfInterfaces => Distinct IetfInterface.name m.ifs_)
    (fun c _ _ hm => InterfacesCall.distinct_after_iff hm c) hempty

end Names

/-! ### The default modules -/

/-- The only lists with keys below an interface are those of the addresses. -/
theorem Reference.keyed_below_interface {q : QName} {tl : List QName} {ks : List String}
    (h : Reference.schema.kind (interfacePlace.path ++ q :: tl) = some (.list ks)) (hks : ks ≠ []) :
    ks = ["ip"] ∧ ∃ f ∈ families, interfacePlace.path ++ q :: tl = (addressPlace f).path := by
  have hnodes : ∀ e ∈ Reference.nodes, Reference.keyed e.2 = true →
      interfacePlace.path.isPrefixOf e.1 = true → interfacePlace.path.length < e.1.length →
      ∃ f ∈ families, e.1 = (addressPlace f).path := by decide
  have hkeyed : Reference.keyed (.list ks) = true := by
    cases ks with
    | nil => exact absurd rfl hks
    | cons k ks => rfl
  obtain ⟨f, hf, hpath⟩ := hnodes _ (Reference.mem_nodes h) hkeyed
    (by simp [List.isPrefixOf_iff_prefix]) (by simp)
  refine ⟨?_, f, hf, hpath⟩
  rw [show interfacePlace.path ++ q :: tl = _ from hpath] at h
  exact Kind.list.inj (Option.some.inj (h.symm.trans (Reference.interfacesSchema.address f hf)))

theorem Reference.interfaceLists : Reference.schema.ListsBelow interfacePlace leafNames where
  oneKey q tl ks h := by
    by_cases hks : ks = []
    · rw [hks]
      exact Nat.zero_le 1
    · rw [(Reference.keyed_below_interface h hks).1]
      exact Nat.le_refl 1
  flat q tl ks h hks r tl' ks' h' := by
    obtain ⟨-, f, hf, hpath⟩ := Reference.keyed_below_interface h hks
    rw [hpath] at h'
    exact Reference.interfacesSchema.addressKeyless f hf r tl' ks' h'
  unnamed q tl ks h hks tl' r h' := by
    have hnodes : ∀ f ∈ families, ∀ e ∈ Reference.nodes,
        (addressPlace f).path.isPrefixOf e.1 = true → ∀ r ∈ e.1.getLast?, r.name ∉ leafNames := by
      decide
    obtain ⟨-, f, hf, hpath⟩ := Reference.keyed_below_interface h hks
    obtain ⟨kind, hk⟩ := Option.isSome_iff_exists.mp h'
    rw [hpath] at hk
    exact hnodes f hf _ (Reference.mem_nodes hk) (by simp [List.isPrefixOf_iff_prefix]) r (by simp)

/-- An interface that is described, and one of the same name that is disabled. -/
def describedInterface : IetfInterface := { name := "eth0", description := some "uplink" }
def disabledInterface : IetfInterface := { name := "eth0", enabled := false }

/-- The tree with one instance, which has a name and these leaves. -/
def eth0Tree (leaves : List LydNode) : LydNode :=
  LydNode.inner (ifName "interfaces")
    [LydNode.inner (ifName "interface") (LydNode.leaf (ifName "name") "eth0" :: leaves)]

/-- The one instance that is made for the two: neither is both described and disabled. -/
theorem serialize_sameName :
    (⟨[describedInterface, disabledInterface]⟩ : IetfInterfaces).serialize
        (Reference.newPath Reference.schema) =
      .ok (some (eth0Tree
        [LydNode.leaf (ifName "description") "uplink", LydNode.leaf (ifName "enabled") "false"])) := by
  have hcalls : [describedInterface, disabledInterface].flatMap interfaceCalls =
      [(interfacePath "eth0" "name", "eth0"), (interfacePath "eth0" "description", "uplink"),
        (interfacePath "eth0" "name", "eth0"), (interfacePath "eth0" "enabled", "false")] := by
    rfl
  -- one call after the other; the third finds its node there
  have hname : put (Reference.newPath Reference.schema)
      (some (LydNode.inner (ifName "interfaces") [])) (interfacePath "eth0" "name") "eth0" =
        some (eth0Tree []) := by
    rfl
  have hdescription : put (Reference.newPath Reference.schema) (some (eth0Tree []))
      (interfacePath "eth0" "description") "uplink" =
        some (eth0Tree [LydNode.leaf (ifName "description") "uplink"]) := by
    rfl
  have hagain : put (Reference.newPath Reference.schema)
      (some (eth0Tree [LydNode.leaf (ifName "description") "uplink"]))
      (interfacePath "eth0" "name") "eth0" =
        some (eth0Tree [LydNode.leaf (ifName "description") "uplink"]) := by
    rfl
  have henabled : put (Reference.newPath Reference.schema)
      (some (eth0Tree [LydNode.leaf (ifName "description") "uplink"]))
      (interfacePath "eth0" "enabled") "false" =
        some (eth0Tree [LydNode.leaf (ifName "description") "uplink",
          LydNode.leaf (ifName "enabled") "false"]) := by
    rfl
  have hroot : Reference.newPath Reference.schema none "/ietf-interfaces:interfaces" none =
      (.LY_SUCCESS, some (LydNode.inner (ifName "interfaces") [])) := by
    rfl
  rw [IetfInterfaces.serialize_eq _ hroot, hcalls]
  simp only [callAll, List.foldl_cons, List.foldl_nil, hname, hdescription, hagain, henabled]

/-- After the two were added, one is left when the name is removed. -/
theorem keyedByName_sameName :
    let calls := [InterfacesCall.addInterface describedInterface, .addInterface disabledInterface]
    let m : IetfInterfaces := ⟨[describedInterface, disabledInterface]⟩
    NewPath.Lawful Reference.schema (Reference.newPath Reference.schema) ∧ m ∈ models calls {} ∧
      (m.removeInterfaceByName "eth0").2.ifs_ = [disabledInterface] ∧
      m.serialize (Reference.newPath Reference.schema) =
        .ok (some (eth0Tree [LydNode.leaf (ifName "description") "uplink",
          LydNode.leaf (ifName "enabled") "false"])) ∧
      ¬ ∀ m ∈ models calls {},
        KeyedByName Reference.schema (Reference.newPath Reference.schema) m := by
  intro calls m
  have hm : m ∈ models calls {} := List.getLast_mem (l := models calls {}) (by decide)
  refine ⟨Reference.newPath_lawful _, hm, by decide, serialize_sameName, fun h => ?_⟩
  exact absurd (h m hm).unique (by decide)

/-- A name that is used again after it was removed. -/
theorem keyedByName_nameReused :
    let calls := [InterfacesCall.addInterface describedInterface, .removeInterfaceByName "eth0",
      .addInterface disabledInterface]
    AllNew calls {} ∧ ∀ m ∈ models calls {},
      KeyedByName Reference.schema (Reference.newPath Reference.schema) m := by
  intro calls
  have hnew : AllNew calls {} := by decide
  have hnul : AllNulFree calls := by
    intro i hi
    simp only [calls, List.mem_cons, InterfacesCall.addInterface.injEq, reduceCtorEq,
      List.not_mem_nil, or_false, false_or] at hi
    rcases hi with rfl | rfl
    · decide
    · decide
  exact ⟨hnew, (keyedByName_iff Reference.interfacesSchema Reference.interfaceLists
    (Reference.newPath_lawful _) hnul).mpr hnew⟩

end StelleriYang

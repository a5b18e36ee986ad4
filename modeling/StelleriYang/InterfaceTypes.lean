import StelleriYang.InterfacesEncoding
import StelleriYang.InterfacesEntries

/-!
# The type of an interface

The decoder drops the module of an identity and looks its name up in the table of `iana-if-type`;
the encoder writes the name of the entry with the prefix of this module in front, and `unknown` for
what is not in the table. So an identity is kept only if it is one of the table.

## Main definitions

* `asks` — the calls of `serialize`, watched
* `identityOf` — the identity a value names
* `KeepsType` — what is written names the identity that was read

## Main results

* `asks_eq` — the calls of `serialize` are those of its interfaces
* `keepsType_iff`
-/

namespace StelleriYang

open LydNode (childrenNamed childValue)

/-! ### The calls of the encoder -/

/-- What `serialize` asks libyang to write. -/
def asks (m : IetfInterfaces) : List (String × String) :=
  match m.serialize watch with
  | .ok calls => calls.getD []
  | .error _ => []

theorem asks_eq (m : IetfInterfaces) : asks m = (m.ifs_.flatMap interfaceCalls).map cCall := by
  rw [asks, IetfInterfaces.serialize_eq m rfl, callAll_watch]
  rfl

/-! ### Identities -/

/-- The identity a value names: `ianaift` is the prefix of `iana-if-type`. -/
def identityOf (v : String) : Option (String × String) :=
  (Text.splitFirst ':' v).map fun (module, identity) =>
    (if module = "ianaift" then "iana-if-type" else module, identity)

/-- What is written for the type of an interface names the identity of `v`. -/
def KeepsType (v : String) (i : IetfInterface) : Prop :=
  ∀ w, (Text.cStr (interfacePath i.name "type"), w) ∈ asks ⟨[i]⟩ → identityOf w = identityOf v

theorem identityOf_append {module : String} (hm : ':' ∉ module.toList) (identity : String) :
    identityOf (module ++ ":" ++ identity) =
      some (if module = "ianaift" then "iana-if-type" else module, identity) := by
  have hsplit : Text.splitFirst ':' (module ++ ":" ++ identity) = some (module, identity) :=
    Text.splitFirst_eq_some_iff.mpr ⟨by simp, hm⟩
  rw [identityOf, hsplit]
  rfl

theorem stripNsPrefix_append {module : String} (hm : ':' ∉ module.toList) (hne : module ≠ "")
    (identity : String) : stripNsPrefix (module ++ ":" ++ identity) = identity := by
  have hsplit : Text.splitFirst ':' (module ++ ":" ++ identity) = some (module, identity) :=
    Text.splitFirst_eq_some_iff.mpr ⟨by simp, hm⟩
  rw [stripNsPrefix, hsplit]
  exact if_neg hne

/-- The table and its reverse: a name that is not there becomes `unknown`. -/
theorem ianaIfTypeToString_fromString_eq_iff {s : String} :
    ianaIfTypeToString (ianaIfTypeFromString s) = s ↔
      ianaIfTypeFromString s ≠ .unknown ∨ s = "unknown" := by
  by_cases h : ianaIfTypeFromString s = .unknown
  · rw [h, or_iff_right (not_not_intro rfl)]
    exact ⟨fun heq => heq.symm, fun heq => heq.symm⟩
  · exact iff_of_true (ianaIfTypeToString_fromString h) (.inl h)

/-! ### What is written -/

theorem below_injective (s : PathText.Step) : Function.Injective (below s) := by
  rintro ⟨path, v⟩ ⟨path', v'⟩ h
  obtain ⟨hpath, rfl⟩ := Prod.mk.inj h
  have hlist := congrArg String.toList hpath
  simp only [String.toList_append, List.append_cancel_left_eq] at hlist
  rw [String.toList_inj.mp hlist]

/-- The calls for an address family do not lead to the type. -/
theorem type_notMem_below (family w : String) (cs : List (String × String)) :
    ("type", w) ∉ cs.map (below (familyStep family)) := by
  intro h
  obtain ⟨⟨path, v⟩, -, heq⟩ := List.mem_map.mp h
  have hslash : '/' ∈ ((familyStep family).text ++ "/" ++ path).toList := by
    simp [String.toList_append]
  rw [(Prod.mk.inj heq).1] at hslash
  exact absurd hslash (by decide)

/-- A call below a step without NULs reaches libyang below that step. -/
theorem cCall_below {s : PathText.Step} (hs : Text.NulFree s.text) (c : String × String) :
    cCall (below s c) = below s (cCall c) := by
  have hslash : Text.NulFree (s.text ++ "/") := hs.append (by decide)
  rw [cCall, below, hslash.cStr_append]
  rfl

/-- The calls for a leaf of an interface, which is not its type. -/
theorem type_notMem_leaf (leaf : String) (hleaf : leaf ∉ ["type"]) (hnul : Text.NulFree leaf)
    (w : String) (vs : List String) :
    ("type", w) ∉ (vs.map fun v => (leaf, v)).map cCall := by
  intro h
  obtain ⟨c, hc, heq⟩ := List.mem_map.mp h
  obtain ⟨v, -, rfl⟩ := List.mem_map.mp hc
  have hpath : Text.cStr leaf = "type" := congrArg Prod.fst heq
  rw [hnul.cStr_eq] at hpath
  exact hleaf (List.mem_singleton.mpr hpath)

/-- **The type that is written.** -/
theorem type_mem_asks {i : IetfInterface} (hname : Text.NulFree i.name) {w : String} :
    (Text.cStr (interfacePath i.name "type"), w) ∈ asks ⟨[i]⟩ ↔
      ∃ t, i.type = some t ∧ w = "ianaift:" ++ ianaIfTypeToString t := by
  have hstep : Text.NulFree (interfaceStep i.name).text := by
    rw [text_interfaceStep]
    exact ((by decide : Text.NulFree "interface[name='").append hname).append (by decide)
  have hpath : (Text.cStr (interfacePath i.name "type"), w) =
      below (interfaceStep i.name) ("type", w) := by
    rw [(nulFree_interfacePath hname (by decide)).cStr_eq, interfacePath_eq]
    rfl
  have hcalls : (interfaceCalls i).map cCall =
      ((("name", i.name) :: interfaceInner i).map cCall).map (below (interfaceStep i.name)) := by
    rw [interfaceCalls_eq, List.map_map, List.map_map]
    exact List.map_congr_left fun c _ => cCall_below hstep c
  rw [asks_eq, List.flatMap_singleton, hcalls, hpath,
    List.mem_map_of_injective (below_injective _), interfaceInner]
  have hfamily : ∀ f ∈ Interfaces.families, ∀ ip : Option IetfIp, ("type", w) ∉
      (ip.toList.flatMap fun ip => (ipInner ip).map (below (familyStep f))).map cCall := by
    intro f hf ip h
    have hplain : ∀ f ∈ Interfaces.families, Text.NulFree (familyStep f).text := by decide
    obtain ⟨c, hc, heq⟩ := List.mem_map.mp h
    obtain ⟨ip, -, hc⟩ := List.mem_flatMap.mp hc
    obtain ⟨d, -, rfl⟩ := List.mem_map.mp hc
    rw [cCall_below (hplain f hf)] at heq
    exact type_notMem_below f w [cCall d] (List.mem_singleton.mpr heq.symm)
  have hfirst : ("type", w) ≠ cCall ("name", i.name) := fun h =>
    type_notMem_leaf "name" (by decide) (by decide) w [i.name]
      (List.mem_singleton.mpr h)
  have hdescription := type_notMem_leaf "description" (by decide) (by decide) w
    i.description.toList
  have henabled : ("type", w) ∉ (if i.enabled then [] else [("enabled", "false")]).map cCall := by
    intro h
    split at h
    · cases h
    · exact type_notMem_leaf "enabled" (by decide) (by decide) w ["false"] h
  rw [List.map_cons, List.map_append, List.map_append, List.map_append, List.map_append,
    List.mem_cons, List.mem_append, List.mem_append, List.mem_append, List.mem_append,
    or_iff_right hfirst, or_iff_left (hfamily "ipv6" (by decide) _),
    or_iff_left (hfamily "ipv4" (by decide) _), or_iff_right (not_or.mpr ⟨hdescription, henabled⟩),
    List.mem_map]
  have hvalue : ∀ t, cCall ("type", "ianaift:" ++ ianaIfTypeToString t) =
      ("type", "ianaift:" ++ ianaIfTypeToString t) := fun t =>
    WholeCall.cCall_eq ⟨(by decide : Text.NulFree "type"),
      (by decide : Text.NulFree "ianaift:").append (nulFree_ianaIfTypeToString t)⟩
  constructor
  · rintro ⟨c, hc, h⟩
    obtain ⟨t, ht, rfl⟩ := List.mem_map.mp hc
    rw [hvalue] at h
    exact ⟨t, Option.mem_toList.mp ht, (Prod.mk.inj h).2.symm⟩
  · rintro ⟨t, ht, rfl⟩
    exact ⟨_, List.mem_map_of_mem (Option.mem_toList.mpr ht), hvalue t⟩

/-- **The type of an interface is kept exactly if it is an identity of `iana-if-type` that the table
has**, or has the name that stands for what the table does not have. The name of the interface was
read from a C string, so it holds no NUL. -/
theorem keepsType_iff {lyd_find_path : FindPath} {top : List LydNode} {tree ifs : LydNode}
    {m : IetfInterfaces} (hifs : findInterfaces lyd_find_path top tree = some ifs)
    (hok : IetfInterfaces.deserializeLoop lyd_find_path top (some tree) = .ok m)
    {ch : LydNode} {i : IetfInterface} (hi : (ch, i) ∈ (childrenNamed ifs "interface").zip m.ifs_)
    (hname : Text.NulFree i.name)
    {module identity : String} (hm : module ≠ "") (hm' : ':' ∉ module.toList)
    (hv : childValue ch "type" = some (module ++ ":" ++ identity)) :
    KeepsType (module ++ ":" ++ identity) i ↔
      (module = "iana-if-type" ∨ module = "ianaift") ∧
        (ianaIfTypeFromString identity ≠ .unknown ∨ identity = "unknown") := by
  obtain ⟨-, ipv4, ipv6, if_index, -, -, rfl⟩ :=
    readInterface_eq_ok (readInterface_of_mem_zip hifs hok hi)
  have htype : (interfaceFields ch ipv4 ipv6 if_index).type =
      some (ianaIfTypeFromString identity) := by
    rw [interfaceFields, hv, Option.map_some, stripNsPrefix_append hm' hm]
  have hwritten : identityOf ("ianaift" ++ ":" ++
      ianaIfTypeToString (ianaIfTypeFromString identity)) =
        some ("iana-if-type", ianaIfTypeToString (ianaIfTypeFromString identity)) :=
    identityOf_append (by decide) _
  have hkeeps : KeepsType (module ++ ":" ++ identity) (interfaceFields ch ipv4 ipv6 if_index) ↔
      identityOf ("ianaift" ++ ":" ++ ianaIfTypeToString (ianaIfTypeFromString identity)) =
        identityOf (module ++ ":" ++ identity) := by
    constructor
    · intro h
      exact h _ ((type_mem_asks hname).mpr ⟨_, htype, rfl⟩)
    · intro h w hw
      obtain ⟨t, ht, rfl⟩ := (type_mem_asks hname).mp hw
      cases htype.symm.trans ht
      exact h
  rw [hkeeps, hwritten, identityOf_append hm', Option.some.injEq, Prod.mk.injEq,
    ianaIfTypeToString_fromString_eq_iff]
  refine and_congr_left fun _ => ?_
  split
  · rename_i h
    simp [h]
  · rename_i h
    simp [h, eq_comm]

/-- An interface of a type of `iana-if-type`, one of a type of another module that has a name of the
table, and one of a type that is newer than the table. -/
def typedInterfaces : LydNode :=
  let entry (name module identity : String) := LydNode.inner (Interfaces.ifName "interface")
    [LydNode.leaf (Interfaces.ifName "name") name,
      LydNode.leaf (Interfaces.ifName "type") (module ++ ":" ++ identity)]
  LydNode.inner (Interfaces.ifName "interfaces")
    [entry "eth0" "iana-if-type" "ethernetCsmacd", entry "acc0" "vendor-types" "ethernetCsmacd",
      entry "q0" "iana-if-type" "quantumLink"]

theorem deserialize_typedInterfaces :
    IetfInterfaces.deserializeLoop Reference.findPath [typedInterfaces] (some typedInterfaces) =
      .ok ⟨[{ name := "eth0", type := some .ethernetCsmacd },
        { name := "acc0", type := some .ethernetCsmacd },
        { name := "q0", type := some .unknown }]⟩ := rfl

/-- The second one becomes a type of `iana-if-type`, and the third one another of its names. -/
theorem not_keepsType_typedInterfaces :
    ((childrenNamed typedInterfaces "interface").map fun ch => childValue ch "type") =
      [some "iana-if-type:ethernetCsmacd", some "vendor-types:ethernetCsmacd",
        some "iana-if-type:quantumLink"] ∧
    ∃ i i' i'', IetfInterfaces.deserializeLoop Reference.findPath [typedInterfaces]
        (some typedInterfaces) = .ok ⟨[i, i', i'']⟩ ∧
      ¬ KeepsType "vendor-types:ethernetCsmacd" i' ∧
      ¬ KeepsType "iana-if-type:quantumLink" i'' := by
  refine ⟨rfl, _, _, _, deserialize_typedInterfaces, fun h => ?_, fun h => ?_⟩
  · exact absurd (h "ianaift:ethernetCsmacd" (by decide)) (by decide)
  · exact absurd (h "ianaift:unknown" (by decide)) (by decide)

theorem keepsType_iff_typedInterfaces :
    KeepsType ("iana-if-type" ++ ":" ++ "ethernetCsmacd")
        { name := "eth0", type := some .ethernetCsmacd } ↔
      ("iana-if-type" = "iana-if-type" ∨ "iana-if-type" = "ianaift") ∧
        (ianaIfTypeFromString "ethernetCsmacd" ≠ .unknown ∨ "ethernetCsmacd" = "unknown") :=
  keepsType_iff rfl deserialize_typedInterfaces List.mem_cons_self (by decide) (by decide)
    (by decide) rfl

end StelleriYang

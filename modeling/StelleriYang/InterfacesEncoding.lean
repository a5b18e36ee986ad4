import StelleriYang.IetfInterfaces

/-!
# The tree `IetfInterfaces::serialize` builds

Which paths the encoder spells, what each call is asked to insert, and what is in the tree at the
end. The last part holds for every model with proper names whose texts reach libyang whole: a call
that fails (and is not noticed) inserts nothing, and the others do not depend on it.

## Main definitions

* `InterfacesSchema` — what the code relies on about `ietf-interfaces` and `ietf-ip`
* `interfaceInner` — the calls for an interface, seen from its instance
* `innerOps` — what they are asked to insert there

## Main results

* `interfaceCalls_eq` — every call for an interface leads through its instance
* `serialize_tree` — there is one instance for each interface of the model, and it holds what the
  calls for that interface inserted, and nothing else
-/

namespace StelleriYang

open DataTree (Tree Step Attempts Adds Reaches under occurs)
open PathText (quote)

/-! ### The schema -/

namespace Interfaces

/-- A name of `ietf-interfaces`. -/
def ifName (name : String) : QName := ⟨"ietf-interfaces", name⟩

/-- A name of `ietf-ip`. -/
def ipName (name : String) : QName := ⟨"ietf-ip", name⟩

def rootPlace : Place := .root (ifName "interfaces")
def interfacePlace : Place := rootPlace.child (ifName "interface")
def familyPlace (family : String) : Place := interfacePlace.child (ipName family)
def addressPlace (family : String) : Place := (familyPlace family).child (ipName "address")

/-- The address families. -/
def families : List String := ["ipv4", "ipv6"]

end Interfaces

open Interfaces

/-- The part of `ietf-interfaces` and `ietf-ip` that the encoder writes to. -/
structure InterfacesSchema (S : SchemaTree) : Prop where
  interfaces : S.kindAt rootPlace = some .container
  interface : S.kindAt interfacePlace = some (.list ["name"])
  /-- of type `string` -/
  name : S.kindAt (interfacePlace.child (ifName "name")) = some (.leaf yangString)
  /-- of type `string` -/
  description : S.kindAt (interfacePlace.child (ifName "description")) = some (.leaf yangString)
  enabled : ∃ type, S.kindAt (interfacePlace.child (ifName "enabled")) = some (.leaf type) ∧
    type "false" = some "false"
  type : ∃ type, S.kindAt (interfacePlace.child (ifName "type")) = some (.leaf type) ∧
    IdentityRef S.moduleOf type
  family : ∀ f ∈ families, S.kindAt (familyPlace f) = some .container
  /-- no other module has a node of that name there -/
  onlyIp : ∀ f ∈ families, ∀ m, (S.kindAt (interfacePlace.child ⟨m, f⟩)).isSome → m = "ietf-ip"
  address : ∀ f ∈ families, S.kindAt (addressPlace f) = some (.list ["ip"])
  addressKeyless : ∀ f ∈ families, S.KeylessBelow (addressPlace f)
  /-- an address without a prefix length -/
  ip : ∀ f ∈ families, ∃ type, S.kindAt ((addressPlace f).child (ipName "ip")) = some (.leaf type) ∧
    Canonical type ∧ ∀ v w, type v = some w → '/' ∉ w.toList
  prefixLength : ∀ f ∈ families, ∃ type,
    S.kindAt ((addressPlace f).child (ipName "prefix-length")) = some (.leaf type) ∧
      Canonical type
  mtu : ∀ f ∈ families, ∃ type,
    S.kindAt ((familyPlace f).child (ipName "mtu")) = some (.leaf type) ∧ Decimal type

/-! ### Paths -/

def interfaceStep (name : String) : PathText.Step := ⟨none, "interface", [("name", name)]⟩
def familyStep (family : String) : PathText.Step := ⟨some "ip", family, []⟩
def addressStep (ip_only : String) : PathText.Step := ⟨some "ip", "address", [("ip", ip_only)]⟩

theorem interfaceStep_named (name : String) : (interfaceStep name).Named :=
  ⟨by simp [interfaceStep], show PathText.IsIdent "interface" by decide, by
    simpa [interfaceStep] using show PathText.IsIdent "name" by decide⟩

theorem familyStep_named {f : String} (hf : f ∈ families) : (familyStep f).Named := by
  refine ⟨by simpa [familyStep] using show PathText.IsIdent "ip" by decide, ?_, by
    simp [familyStep]⟩
  rcases List.mem_cons.mp hf with rfl | hf
  · decide
  · obtain rfl := List.mem_singleton.mp hf
    decide

theorem addressStep_named (ip_only : String) : (addressStep ip_only).Named :=
  ⟨by simpa [addressStep] using show PathText.IsIdent "ip" by decide,
    show PathText.IsIdent "address" by decide, by
    simpa [addressStep] using show PathText.IsIdent "ip" by decide⟩

theorem interfaceStep_plain {name : String} (h : quote ∉ name.toList) :
    (interfaceStep name).Plain := by
  simpa [interfaceStep, PathText.Step.Plain] using h

theorem familyStep_plain (f : String) : (familyStep f).Plain := by
  simp [familyStep, PathText.Step.Plain]

theorem addressStep_plain {ip_only : String} (h : quote ∉ ip_only.toList) :
    (addressStep ip_only).Plain := by
  simpa [addressStep, PathText.Step.Plain] using h

theorem text_interfaceStep (name : String) :
    (interfaceStep name).text = "interface[name='" ++ name ++ "']" := by
  have h : "interface[name='" = "interface" ++ ("[" ++ ("name" ++ "='")) := by decide
  rw [h]
  simp only [interfaceStep, PathText.Step.text, PathText.predsText, PathText.predText,
    PathText.qualifierText, -String.reduceAppend, String.append_assoc, String.empty_append,
    String.append_empty]

theorem text_addressStep (ip_only : String) :
    (addressStep ip_only).text = "ip:address[ip='" ++ ip_only ++ "']" := by
  have h : "ip:address[ip='" = "ip" ++ (":" ++ ("address" ++ ("[" ++ ("ip" ++ "='")))) := by decide
  rw [h]
  simp only [addressStep, PathText.Step.text, PathText.predsText, PathText.predText,
    PathText.qualifierText, -String.reduceAppend, String.append_assoc, String.append_empty]

theorem interfacePath_eq (name leaf : String) :
    interfacePath name leaf = (interfaceStep name).text ++ "/" ++ leaf := by
  have h : "']/" = "']" ++ "/" := by decide
  delta interfacePath
  rw [text_interfaceStep, h]
  simp only [String.append_assoc]

theorem addressBase_eq (name family ip_only leaf : String) :
    addressBase name family ip_only ++ ("/" ++ leaf) = (interfaceStep name).text ++ "/" ++
      ((familyStep family).text ++ "/" ++ ((addressStep ip_only).text ++ "/" ++ leaf)) := by
  have h₁ : "']/ip:" = "']" ++ ("/" ++ ("ip" ++ ":")) := by decide
  have h₂ : "/ip:address[ip='" = "/" ++ "ip:address[ip='" := by decide
  delta addressBase
  rw [text_interfaceStep, text_addressStep, h₁, h₂]
  simp only [familyStep, PathText.Step.text, PathText.predsText, PathText.qualifierText,
    String.append_assoc, String.append_empty, -String.reduceAppend]

theorem mtuPath_eq (name family : String) :
    mtuPath name family =
      (interfaceStep name).text ++ "/" ++ ((familyStep family).text ++ "/" ++ "mtu") := by
  have h₁ : "']/ip:" = "']" ++ ("/" ++ ("ip" ++ ":")) := by decide
  have h₂ : "/mtu" = "/" ++ "mtu" := by decide
  delta mtuPath
  rw [text_interfaceStep, h₁, h₂]
  simp only [familyStep, PathText.Step.text, PathText.predsText, PathText.qualifierText,
    String.append_assoc, String.append_empty, -String.reduceAppend]

/-- The calls for an address, seen from its instance. -/
def addressInner (addr : String) : List (String × String) :=
  ("ip:ip", (splitAddress addr).1) ::
    if (splitAddress addr).2 = "" then [] else [("ip:prefix-length", (splitAddress addr).2)]

/-- The calls for an address family, seen from its container. -/
def ipInner (ip : IetfIp) : List (String × String) :=
  ip.address.flatMap (fun a => (addressInner a).map (below (addressStep (splitAddress a).1))) ++
    ip.mtu.toList.map fun mtu => ("mtu", mtu.toNat.repr)

/-- The calls for an interface but the one for its name, seen from its instance. -/
def interfaceInner (it : IetfInterface) : List (String × String) :=
  (it.description.toList.map fun d => ("description", d)) ++
    (if it.enabled then [] else [("enabled", "false")]) ++
    (it.type.toList.map fun t => ("type", "ianaift:" ++ ianaIfTypeToString t)) ++
    it.ipv4.toList.flatMap (fun ip => (ipInner ip).map (below (familyStep "ipv4"))) ++
    it.ipv6.toList.flatMap (fun ip => (ipInner ip).map (below (familyStep "ipv6")))

theorem addressCalls_eq (name family addr : String) :
    addressCalls name family addr = ((addressInner addr).map
      (below (addressStep (splitAddress addr).1))).map fun c =>
        below (interfaceStep name) (below (familyStep family) c) := by
  have h₁ : "/ip:ip" = "/" ++ "ip:ip" := by decide
  have h₂ : "/ip:prefix-length" = "/" ++ "ip:prefix-length" := by decide
  simp only [addressCalls, addressInner]
  rw [h₁, h₂, addressBase_eq, addressBase_eq]
  split <;> rfl

theorem ipCalls_eq (name family : String) (ip : IetfIp) :
    ipCalls name family ip =
      ((ipInner ip).map (below (familyStep family))).map (below (interfaceStep name)) := by
  rw [ipCalls, ipInner, List.map_append, List.map_append, List.map_map, List.map_flatMap]
  congr 1
  · exact List.flatMap_congr fun a _ => addressCalls_eq name family a
  · cases ip.mtu with
    | none => rfl
    | some mtu => simp [below, mtuPath_eq]

/-- Every call for an interface leads through its instance. -/
theorem interfaceCalls_eq (it : IetfInterface) :
    interfaceCalls it =
      (("name", it.name) :: interfaceInner it).map (below (interfaceStep it.name)) := by
  have hleaf : ∀ leaf v : String,
      (interfacePath it.name leaf, v) = below (interfaceStep it.name) (leaf, v) :=
    fun leaf v => by rw [interfacePath_eq]; rfl
  have hip : ∀ family (ip : Option IetfIp), ip.toList.flatMap (ipCalls it.name family) =
      (ip.toList.flatMap fun ip => (ipInner ip).map (below (familyStep family))).map
        (below (interfaceStep it.name)) := by
    intro family ip
    cases ip with
    | none => rfl
    | some ip => simpa using ipCalls_eq it.name family ip
  simp only [interfaceCalls, interfaceInner, List.map_cons, List.map_append, hip, hleaf]
  cases it.enabled <;> simp [Function.comp_def]

/-! ### What the calls are asked to insert -/

theorem forall_families {P : String → Prop} : (∀ f ∈ families, P f) ↔ P "ipv4" ∧ P "ipv6" := by
  simp [families]

section Effects

variable {S : SchemaTree}

/-- The step to the instance of an interface, if its name is a text of the type. -/
theorem enter_interface (hS : InterfacesSchema S) (name : String) :
    S.enter rootPlace (interfaceStep name) = (yangString name).map fun w =>
      (instanceStep (ifName "interface") (ifName "name") w, interfacePlace) := by
  have hname : S.typeAt (interfacePlace.child ⟨"ietf-interfaces", "name"⟩) = some yangString := by
    simp [SchemaTree.typeAt, show S.kindAt (interfacePlace.child ⟨"ietf-interfaces", "name"⟩) = _
      from hS.name, Kind.type?]
  have hkeys : S.keyLeaves interfacePlace [("name", name)] (.list ["name"]) = _ :=
    SchemaTree.keyLeaves_one hname
  rw [SchemaTree.enter_eq (m := "ietf-interfaces") rfl hS.interface]
  refine (congrArg _ hkeys).trans ?_
  cases yangString name <;> rfl

theorem enter_interface_of_yangText (hS : InterfacesSchema S) {name : String}
    (h : YangText name) : S.enter rootPlace (interfaceStep name) =
      some (instanceStep (ifName "interface") (ifName "name") name, interfacePlace) := by
  rw [enter_interface hS, h.yangString_eq]
  rfl

/-- The prefix `ip` has to stand for `ietf-ip`. -/
theorem enter_family (hS : InterfacesSchema S) {f : String} (hf : f ∈ families) :
    S.enter interfacePlace (familyStep f) =
      if S.moduleOf "ip" = some "ietf-ip" then some (nodeStep (ipName f), familyPlace f)
      else none := by
  by_cases h : S.moduleOf "ip" = some "ietf-ip"
  · rw [if_pos h, SchemaTree.enter_eq (p := interfacePlace) (s := familyStep f) h (hS.family f hf)]
    rfl
  · rw [if_neg h]
    cases he : S.enter interfacePlace (familyStep f) with
    | none => rfl
    | some r =>
      obtain ⟨m, kind, keys, hm, hk, -, -⟩ := SchemaTree.enter_eq_some_iff.mp he
      have hsome : (S.kindAt (interfacePlace.child ⟨m, (familyStep f).name⟩)).isSome := by
        rw [hk]
        rfl
      obtain rfl := hS.onlyIp f hf m hsome
      exact absurd hm h

theorem effect_family (hS : InterfacesSchema S) {f : String} (hf : f ∈ families)
    (c : String × String) : S.effect interfacePlace (below (familyStep f) c) =
      if S.moduleOf "ip" = some "ietf-ip" then
        (S.effect (familyPlace f) c).map (under (nodeStep (ipName f)))
      else none := by
  rw [below, SchemaTree.effect_step (familyStep_named hf) (familyStep_plain f), enter_family hS hf]
  split <;> rfl

theorem effect_name (hS : InterfacesSchema S) {v : String} (h : YangText v) :
    S.effect interfacePlace ("name", v) = some ([nodeStep (ifName "name")], v) := by
  rw [SchemaTree.effect_name_eq (p := interfacePlace) (by decide) hS.name rfl, h.yangString_eq]
  rfl

theorem effect_description (hS : InterfacesSchema S) (v : String) :
    S.effect interfacePlace ("description", v) =
      (yangString v).map fun w => ([nodeStep (ifName "description")], w) :=
  SchemaTree.effect_name_eq (p := interfacePlace) (by decide) hS.description rfl v

theorem effect_enabled (hS : InterfacesSchema S) :
    S.effect interfacePlace ("enabled", "false") =
      some ([nodeStep (ifName "enabled")], "false") := by
  obtain ⟨type, hk, hfalse⟩ := hS.enabled
  rw [SchemaTree.effect_name_eq (p := interfacePlace) (by decide) hk rfl, hfalse]
  rfl

theorem effect_type {type : String → Option String}
    (hk : S.kindAt (interfacePlace.child (ifName "type")) = some (.leaf type)) (v : String) :
    S.effect interfacePlace ("type", v) =
      (type v).map fun w => ([nodeStep (ifName "type")], w) :=
  SchemaTree.effect_name_eq (p := interfacePlace) (by decide) hk rfl v

theorem effect_mtu {f : String} {type : String → Option String}
    (hk : S.kindAt ((familyPlace f).child (ipName "mtu")) = some (.leaf type)) (v : String) :
    S.effect (familyPlace f) ("mtu", v) = (type v).map fun w => ([nodeStep (ipName "mtu")], w) :=
  SchemaTree.effect_name_eq (p := familyPlace f) (by decide) hk rfl v

/-- The step to the instance of an address. -/
theorem enter_address (hS : InterfacesSchema S) (hip : S.moduleOf "ip" = some "ietf-ip")
    {f : String} (hf : f ∈ families) {type : String → Option String}
    (hk : S.kindAt ((addressPlace f).child (ipName "ip")) = some (.leaf type)) (a : String) :
    S.enter (familyPlace f) (addressStep a) =
      (type a).map fun w => (instanceStep (ipName "address") (ipName "ip") w, addressPlace f) := by
  have htype : S.typeAt ((addressPlace f).child ⟨"ietf-ip", "ip"⟩) = some type := by
    simp [SchemaTree.typeAt, show S.kindAt ((addressPlace f).child ⟨"ietf-ip", "ip"⟩) = _ from hk,
      Kind.type?]
  have hkeys : S.keyLeaves (addressPlace f) [("ip", a)] (.list ["ip"]) = _ :=
    SchemaTree.keyLeaves_one htype
  rw [SchemaTree.enter_eq (p := familyPlace f) (s := addressStep a) hip (hS.address f hf)]
  refine (congrArg _ hkeys).trans ?_
  cases type a <;> rfl

/-- A call for a leaf of an address. -/
theorem effect_addressLeaf (hip : S.moduleOf "ip" = some "ietf-ip") {f n : String}
    (hn : PathText.IsIdent n) {type : String → Option String}
    (hk : S.kindAt ((addressPlace f).child (ipName n)) = some (.leaf type)) (v : String) :
    S.effect (addressPlace f) ("ip:" ++ n, v) =
      (type v).map fun w => ([nodeStep (ipName n)], w) := by
  have h := SchemaTree.effect_leaf_eq (q := some "ip") (n := n) (p := addressPlace f)
    ⟨by simpa using show PathText.IsIdent "ip" by decide, hn, by simp⟩ hip hk rfl v
  have htext : (⟨some "ip", n, []⟩ : PathText.Step).text = "ip:" ++ n := by
    simp [PathText.Step.text, PathText.qualifierText, PathText.predsText]
  rw [htext] at h
  exact h

/-! The paths of all calls lead to leaves, if anywhere. -/

theorem covered_address (hS : InterfacesSchema S) (hip : S.moduleOf "ip" = some "ietf-ip")
    {f : String} (hf : f ∈ families) (addr : String) :
    ∀ c ∈ addressInner addr, S.Covered (addressPlace f) c := by
  have hleaf : ∀ n v, PathText.IsIdent n → ∀ type,
      S.kindAt ((addressPlace f).child (ipName n)) = some (.leaf type) →
      S.Covered (addressPlace f) ("ip:" ++ n, v) := by
    intro n v hn type hk
    have h := SchemaTree.covered_leaf_of_type (q := some "ip") (n := n) (p := addressPlace f)
      (v := v) ⟨by simpa using show PathText.IsIdent "ip" by decide, hn, by simp⟩ hip hk rfl
    have htext : (⟨some "ip", n, []⟩ : PathText.Step).text = "ip:" ++ n := by
      simp [PathText.Step.text, PathText.qualifierText, PathText.predsText]
    rwa [htext] at h
  obtain ⟨type₁, hk₁, -⟩ := hS.ip f hf
  obtain ⟨type₂, hk₂, -⟩ := hS.prefixLength f hf
  intro c hc
  rcases List.mem_cons.mp hc with rfl | hc
  · exact hleaf "ip" _ (by decide) type₁ hk₁
  · split at hc
    · cases hc
    · obtain rfl := List.mem_singleton.mp hc
      exact hleaf "prefix-length" _ (by decide) type₂ hk₂

theorem covered_family (hS : InterfacesSchema S) (hip : S.moduleOf "ip" = some "ietf-ip")
    {f : String} (hf : f ∈ families) (ip : IetfIp) :
    ∀ c ∈ ipInner ip, S.Covered (familyPlace f) c := by
  intro c hc
  rcases List.mem_append.mp hc with hc | hc
  · obtain ⟨a, -, hc⟩ := List.mem_flatMap.mp hc
    obtain ⟨d, hd, rfl⟩ := List.mem_map.mp hc
    obtain ⟨type, hk, -⟩ := hS.ip f hf
    by_cases hq : quote ∈ (splitAddress a).1.toList
    · -- what is spelled then is no path of the schema
      refine SchemaTree.covered_of_address_eq_none (SchemaTree.address_eq_none_of_quote
        (addressStep_named _) rfl hq (fun m hm kind hkind => ?_) d.1)
      obtain rfl : m = "ietf-ip" := Option.some.inj (hm.symm.trans hip)
      have hlist := hS.address f hf
      exact ⟨Option.some.inj (hkind.symm.trans hlist), hS.addressKeyless f hf⟩
    · refine SchemaTree.covered_step (addressStep_named _) (addressStep_plain hq) fun r hr => ?_
      rw [enter_address hS hip hf hk] at hr
      obtain ⟨w, -, rfl⟩ := Option.map_eq_some_iff.mp hr
      exact covered_address hS hip hf a d hd
  · obtain ⟨mtu, -, rfl⟩ := List.mem_map.mp hc
    obtain ⟨type, hk, -⟩ := hS.mtu f hf
    exact SchemaTree.covered_name (p := familyPlace f) (by decide) hk rfl

theorem covered_interface (hS : InterfacesSchema S) {it : IetfInterface}
    (hn : quote ∉ it.name.toList) : ∀ c ∈ interfaceCalls it, S.Covered rootPlace c := by
  have hip : ∀ f ∈ families, ∀ (o : Option IetfIp), ∀ c ∈ o.toList.flatMap
      (fun ip => (ipInner ip).map (below (familyStep f))), S.Covered interfacePlace c := by
    intro f hf o c hc
    obtain ⟨ip, -, hc⟩ := List.mem_flatMap.mp hc
    obtain ⟨d, hd, rfl⟩ := List.mem_map.mp hc
    refine SchemaTree.covered_step (familyStep_named hf) (familyStep_plain f) fun r hr => ?_
    rw [enter_family hS hf] at hr
    split at hr
    · rename_i hmod
      cases hr
      exact covered_family hS hmod hf ip d hd
    · cases hr
  obtain ⟨type₁, hk₁, -⟩ := hS.enabled
  obtain ⟨type₂, hk₂, -⟩ := hS.type
  have hinner : ∀ c ∈ ("name", it.name) :: interfaceInner it, S.Covered interfacePlace c := by
    intro c hc
    simp only [interfaceInner, List.mem_cons, List.mem_append, List.mem_map] at hc
    rcases hc with rfl | (((⟨d, -, rfl⟩ | hc) | ⟨t, -, rfl⟩) | hc) | hc
    · exact SchemaTree.covered_name (p := interfacePlace) (by decide) hS.name rfl
    · exact SchemaTree.covered_name (p := interfacePlace) (by decide) hS.description rfl
    · split at hc
      · cases hc
      · obtain rfl := List.mem_singleton.mp hc
        exact SchemaTree.covered_name (p := interfacePlace) (by decide) hk₁ rfl
    · exact SchemaTree.covered_name (p := interfacePlace) (by decide) hk₂ rfl
    · exact hip "ipv4" (by decide) _ c hc
    · exact hip "ipv6" (by decide) _ c hc
  intro c hc
  rw [interfaceCalls_eq] at hc
  obtain ⟨d, hd, rfl⟩ := List.mem_map.mp hc
  refine SchemaTree.covered_step (interfaceStep_named _) (interfaceStep_plain hn) fun r hr => ?_
  rw [enter_interface hS] at hr
  obtain ⟨w, -, rfl⟩ := Option.map_eq_some_iff.mp hr
  exact hinner d hd

/-! ### The tree -/

/-- What the calls for an interface but the one for its name insert into its instance. -/
def innerOps (S : SchemaTree) (it : IetfInterface) :
    List (List (Step (Option QName) String) × String) :=
  (interfaceInner it).filterMap (S.effect interfacePlace)

/-- What the calls for an address family insert into its container. -/
def ipOps (S : SchemaTree) (f : String) (ip : IetfIp) :
    List (List (Step (Option QName) String) × String) :=
  (ipInner ip).filterMap (S.effect (familyPlace f))

/-- The configuration of an address family. -/
def IetfInterface.family (it : IetfInterface) (f : String) : Option IetfIp :=
  if f = "ipv6" then it.ipv6 else it.ipv4

/-- All that can be inserted into the container of an address family. -/
theorem cases_ipOps (hS : InterfacesSchema S) (hip : S.moduleOf "ip" = some "ietf-ip")
    {f : String} (hf : f ∈ families) {typeIp typeLen typeMtu : String → Option String}
    (hkIp : S.kindAt ((addressPlace f).child (ipName "ip")) = some (.leaf typeIp))
    (hkLen : S.kindAt ((addressPlace f).child (ipName "prefix-length")) = some (.leaf typeLen))
    (hkMtu : S.kindAt ((familyPlace f).child (ipName "mtu")) = some (.leaf typeMtu))
    {ip : IetfIp} {op} (hop : op ∈ ipOps S f ip) :
    (∃ a ∈ ip.address, ∃ w, typeIp (splitAddress a).1 = some w ∧
      (op = ([instanceStep (ipName "address") (ipName "ip") w, nodeStep (ipName "ip")], w) ∨
        ∃ v, typeLen (splitAddress a).2 = some v ∧
          op = ([instanceStep (ipName "address") (ipName "ip") w,
            nodeStep (ipName "prefix-length")], v))) ∨
      ∃ k : UInt32, ip.mtu = some k ∧ ∃ w, typeMtu k.toNat.repr = some w ∧
        op = ([nodeStep (ipName "mtu")], w) := by
  obtain ⟨c, hc, heff⟩ := List.mem_filterMap.mp hop
  rcases List.mem_append.mp hc with hc | hc
  · left
    obtain ⟨a, ha, hc⟩ := List.mem_flatMap.mp hc
    obtain ⟨d, hd, rfl⟩ := List.mem_map.mp hc
    by_cases hq : quote ∈ (splitAddress a).1.toList
    · have hnone : S.address (familyPlace f)
          ((addressStep (splitAddress a).1).text ++ "/" ++ d.1) = none := by
        refine SchemaTree.address_eq_none_of_quote (addressStep_named _) rfl hq
          (fun m hm kind hkind => ?_) d.1
        obtain rfl : m = "ietf-ip" := Option.some.inj (hm.symm.trans hip)
        exact ⟨Option.some.inj (hkind.symm.trans (hS.address f hf)), hS.addressKeyless f hf⟩
      simp [below, SchemaTree.effect, hnone] at heff
    · rw [below, SchemaTree.effect_step (addressStep_named _) (addressStep_plain hq),
        enter_address hS hip hf hkIp] at heff
      obtain ⟨r, hr, heff⟩ := Option.bind_eq_some_iff.mp heff
      obtain ⟨w, hw, rfl⟩ := Option.map_eq_some_iff.mp hr
      obtain ⟨op', hop', rfl⟩ := Option.map_eq_some_iff.mp heff
      refine ⟨a, ha, w, hw, ?_⟩
      rcases List.mem_cons.mp hd with rfl | hd
      · left
        have h := effect_addressLeaf hip (n := "ip") (by decide) hkIp (splitAddress a).1
        rw [hw] at h
        cases hop'.symm.trans h
        rfl
      · right
        split at hd
        · cases hd
        · obtain rfl := List.mem_singleton.mp hd
          have h := effect_addressLeaf hip (n := "prefix-length") (by decide) hkLen
            (splitAddress a).2
          obtain ⟨v, hv, heq⟩ := Option.map_eq_some_iff.mp (h.symm.trans hop')
          exact ⟨v, hv, by rw [← heq]; rfl⟩
  · right
    obtain ⟨k, hk, rfl⟩ := List.mem_map.mp hc
    rw [effect_mtu hkMtu] at heff
    obtain ⟨w, hw, rfl⟩ := Option.map_eq_some_iff.mp heff
    exact ⟨k, Option.mem_toList.mp hk, w, hw, rfl⟩

/-- All that can be inserted into the instance of an interface. -/
theorem cases_innerOps (hS : InterfacesSchema S) {typeType : String → Option String}
    (hkType : S.kindAt (interfacePlace.child (ifName "type")) = some (.leaf typeType))
    {it : IetfInterface} {op} (hop : op ∈ innerOps S it) :
    (∃ d, it.description = some d ∧ op = ([nodeStep (ifName "description")], d)) ∨
      (it.enabled = false ∧ op = ([nodeStep (ifName "enabled")], "false")) ∨
      (∃ t w, it.type = some t ∧ typeType ("ianaift:" ++ ianaIfTypeToString t) = some w ∧
        op = ([nodeStep (ifName "type")], w)) ∨
      ∃ f ∈ families, ∃ ip, it.family f = some ip ∧ S.moduleOf "ip" = some "ietf-ip" ∧
        ∃ op' ∈ ipOps S f ip, op = under (nodeStep (ipName f)) op' := by
  obtain ⟨c, hc, heff⟩ := List.mem_filterMap.mp hop
  have hip : ∀ f ∈ families, c ∈ (it.family f).toList.flatMap
      (fun ip => (ipInner ip).map (below (familyStep f))) →
      ∃ ip, it.family f = some ip ∧ S.moduleOf "ip" = some "ietf-ip" ∧
        ∃ op' ∈ ipOps S f ip, op = under (nodeStep (ipName f)) op' := by
    intro f hf hc
    obtain ⟨ip, hfam, hc⟩ := List.mem_flatMap.mp hc
    obtain ⟨d, hd, rfl⟩ := List.mem_map.mp hc
    rw [effect_family hS hf] at heff
    split at heff
    · rename_i hmod
      obtain ⟨op', hop', rfl⟩ := Option.map_eq_some_iff.mp heff
      exact ⟨ip, Option.mem_toList.mp hfam, hmod, op', List.mem_filterMap.mpr ⟨d, hd, hop'⟩, rfl⟩
    · cases heff
  simp only [interfaceInner, List.mem_append, List.mem_map, Option.mem_toList] at hc
  rcases hc with (((⟨d, hd, rfl⟩ | hc) | ⟨t, ht, rfl⟩) | hc) | hc
  · rw [effect_description hS] at heff
    obtain ⟨w, hw, rfl⟩ := Option.map_eq_some_iff.mp heff
    obtain ⟨-, rfl⟩ := yangString_eq_some_iff.mp hw
    exact Or.inl ⟨d, hd, rfl⟩
  · cases hen : it.enabled with
    | true => simp [hen] at hc
    | false =>
      obtain rfl : c = ("enabled", "false") := by simpa [hen] using hc
      rw [effect_enabled hS] at heff
      exact Or.inr (Or.inl ⟨rfl, (Option.some.inj heff).symm⟩)
  · rw [effect_type hkType] at heff
    obtain ⟨w, hw, rfl⟩ := Option.map_eq_some_iff.mp heff
    exact Or.inr (Or.inr (Or.inl ⟨t, w, ht, hw, rfl⟩))
  · exact Or.inr (Or.inr (Or.inr ⟨"ipv4", by decide, hip "ipv4" (by decide) hc⟩))
  · exact Or.inr (Or.inr (Or.inr ⟨"ipv6", by decide, hip "ipv6" (by decide) hc⟩))

/-- The names that are inserted directly into the instance. -/
def innerNames : List String := ["description", "enabled", "type", "ipv4", "ipv6"]

theorem innerOps_adds (hS : InterfacesSchema S) {it : IetfInterface} {op}
    (hop : op ∈ innerOps S it) {l : Option QName} {ls : List (Option QName)} {x : Option String}
    (h : Adds op.2 op.1 (l :: ls) x) : ∃ q, l = some q ∧ q.name ∈ innerNames := by
  obtain ⟨type, hk, -⟩ := hS.type
  rcases cases_innerOps hS hk hop with ⟨d, -, rfl⟩ | ⟨-, rfl⟩ | ⟨t, w, -, -, rfl⟩ |
    ⟨f, hf, ip, -, -, op', -, rfl⟩
  · exact ⟨_, h.head, by decide⟩
  · exact ⟨_, h.head, by decide⟩
  · exact ⟨_, h.head, by decide⟩
  · refine ⟨_, h.head, ?_⟩
    rcases List.mem_cons.mp hf with rfl | hf
    · decide
    · obtain rfl := List.mem_singleton.mp hf
      decide

/-- `n` is the instance of `it`, with what its calls inserted. -/
def InterfaceTree (S : SchemaTree) (it : IetfInterface) (n : LydNode) : Prop :=
  ∃ bs ds, n = .node (some (ifName "interface")) none ds ∧
    Attempts (innerOps S it) bs [LydNode.leaf (ifName "name") it.name] ds

/-- What carries the name of the key leaf is the key leaf. -/
theorem InterfaceTree.name_eq (hS : InterfacesSchema S) {it : IetfInterface}
    {ds : List LydNode} {bs}
    (h : Attempts (innerOps S it) bs [LydNode.leaf (ifName "name") it.name] ds) {c : LydNode}
    (hc : c ∈ ds) (hname : LydNode.named "name" c = true) : c.value = some it.name := by
  rcases h.reaches (.here hc) with hr | ⟨op, hop, ha⟩
  · rw [DataTree.reaches_cons] at hr
    rcases hr with ⟨-, hv⟩ | ⟨ls, -, hr⟩ | hr
    · exact hv
    · exact absurd hr DataTree.not_reaches_nil
    · exact absurd hr DataTree.not_reaches_nil
  · obtain ⟨q, hl, hn⟩ := innerOps_adds hS hop ha
    obtain ⟨m, hm⟩ := LydNode.named_iff.mp hname
    obtain rfl : q = ⟨m, "name"⟩ := Option.some.inj (hl.symm.trans hm)
    exact absurd hn (by decide : "name" ∉ innerNames)

theorem filterMap_interfaceCalls (hS : InterfacesSchema S) {it : IetfInterface}
    (hn : Spellable it.name) :
    (interfaceCalls it).filterMap (S.effect rootPlace) =
      (([nodeStep (ifName "name")], it.name) :: innerOps S it).map
        (under (instanceStep (ifName "interface") (ifName "name") it.name)) := by
  rw [interfaceCalls_eq, SchemaTree.filterMap_below (interfaceStep_named _)
    (interfaceStep_plain hn.quote) (enter_interface_of_yangText hS hn.text),
    List.filterMap_cons_some (effect_name hS hn.text), innerOps]

/-- **What `serialize` returns**: a tree with one instance for each interface, which holds what the
calls for the interface inserted into it. -/
theorem serialize_tree (hS : InterfacesSchema S) {lyd_new_path : NewPath LydNode}
    (h : NewPath.Lawful S lyd_new_path) {m : IetfInterfaces} (hnul : m.NulFree)
    (hspell : ∀ i ∈ m.ifs_, Spellable i.name)
    (hdistinct : (m.ifs_.map IetfInterface.name).Nodup) :
    ∃ t, m.serialize lyd_new_path = .ok (some t) ∧ t.label = some (ifName "interfaces") ∧
      ∃ ns, t.children.Perm ns ∧ List.Forall₂ (InterfaceTree S) m.ifs_ ns := by
  have hroot : lyd_new_path none "/ietf-interfaces:interfaces" none =
      (.LY_SUCCESS, some (LydNode.inner (ifName "interfaces") [])) :=
    h.root (ifName "interfaces") (show PathText.IsIdent "ietf-interfaces" by decide) hS.interfaces
  have hcov : ∀ c ∈ m.ifs_.flatMap interfaceCalls, S.Covered rootPlace c := by
    intro c hc
    obtain ⟨it, hit, hc⟩ := List.mem_flatMap.mp hc
    exact covered_interface hS (hspell it hit).quote c hc
  obtain ⟨bs, cs, ha, hrun⟩ :=
    callAll_attempts h (t := LydNode.inner (ifName "interfaces") []) rfl hnul.wholeCall hcov
  have hops : (m.ifs_.flatMap interfaceCalls).filterMap (S.effect (.root (ifName "interfaces"))) =
      m.ifs_.flatMap fun it => (([nodeStep (ifName "name")], it.name) :: innerOps S it).map
        (under (instanceStep (ifName "interface") (ifName "name") it.name)) := by
    rw [List.filterMap_flatMap]
    exact List.flatMap_congr fun it hit => filterMap_interfaceCalls hS (hspell it hit)
  rw [hops] at ha
  -- the name leaf of an instance tells it from the instances of the other interfaces
  have hsep : m.ifs_.Pairwise fun it it' => ∀ bs ds,
      Attempts (innerOps S it) bs
        (instanceStep (ifName "interface") (ifName "name") it.name).keyLeaves ds →
      ¬ (instanceStep (ifName "interface") (ifName "name") it'.name).Matches
        (.node (some (ifName "interface")) none ds) := by
    rw [List.Nodup, List.pairwise_map] at hdistinct
    refine hdistinct.imp fun {it it'} hne bs ds hds hm => ?_
    obtain ⟨c, hc, hl, hv⟩ := hm.2.2 (some (ifName "name"), it'.name) (by simp [instanceStep])
    have hname := InterfaceTree.name_eq hS hds hc (LydNode.named_iff.mpr ⟨_, hl⟩)
    exact hne (Option.some.inj (hname.symm.trans hv))
  obtain ⟨ns, hperm, hall, -⟩ := Attempts.groups
    (s := fun it : IetfInterface => instanceStep (ifName "interface") (ifName "name") it.name)
    (f := fun it => ([nodeStep (ifName "name")], it.name)) (r := innerOps S)
    (fun it _ => ⟨rfl, by simp, occurs_instanceStep _ _ _⟩) hsep (by simp [LydNode.inner]) ha
  refine ⟨_, by rw [m.serialize_eq hroot, hrun], rfl, ns, ?_, ?_⟩
  · simpa [LydNode.inner] using hperm
  · refine hall.imp ?_
    rintro it n ⟨bs, ds, hn, hds⟩
    exact ⟨bs, ds, hn, hds⟩

end Effects

end StelleriYang

import StelleriYang.Reference

/-!
# The keys of decoded control-plane protocols

In a data tree a control-plane protocol is identified by its name and by its type, an identity with
the name of its module in front. The decoder keeps what stands behind the first colon of the type.
So two instances can become one: they are told apart exactly as long as no name of an identity
occurs with two modules for the same instance name.

## Main definitions

* `protocolKey` — the key of an entry of the data tree
* `OneModule` — an identity name and an instance name determine the module

## Main results

* `deserialize_eq_ok` — what a decoding that succeeds has found
* `protocolKeys_nodup_iff`
-/

namespace StelleriYang

open LydNode (childValue)
open Routing (rtName)

/-- What a decoding that succeeds has read. -/
theorem deserialize_eq_ok {lyd_find_path : FindPath} {top : List LydNode} {tree rt : LydNode}
    {m : IetfRouting} (hrt : findRouting lyd_find_path top tree = some rt)
    (hok : IetfRouting.deserialize lyd_find_path top (some tree) = .ok m) :
    (entries rt "control-plane-protocols" "control-plane-protocol").mapM
      readControlPlaneProtocol = .ok m.routing_.control_plane_protocols := by
  obtain ⟨ifs_model, -, hok⟩ := Traverse.bind_eq_ok_iff.mp hok
  rw [hrt] at hok
  obtain ⟨cpps, hcpps, hok⟩ := Traverse.bind_eq_ok_iff.mp hok
  obtain ⟨ribs, -, hok⟩ := Traverse.bind_eq_ok_iff.mp hok
  cases hok
  exact hcpps

/-- The values of the two key leaves. -/
def protocolKey (entry : LydNode) : Option String × Option String :=
  (childValue entry "type", childValue entry "name")

/-- What the decoder makes of a key. -/
def readKey (key : Option String × Option String) : String × String :=
  ((key.1.map stripIdentityPrefix).getD "", key.2.getD "")

theorem readControlPlaneProtocol_key {entry : LydNode} {p : ControlPlaneProtocol}
    (h : readControlPlaneProtocol entry = .ok p) :
    (p.type, p.name) = readKey (protocolKey entry) := by
  obtain ⟨static_routes, -, h⟩ := Traverse.bind_eq_ok_iff.mp h
  cases h
  rfl

theorem map_readKey {es : List LydNode} {ps : List ControlPlaneProtocol}
    (h : es.mapM readControlPlaneProtocol = .ok ps) :
    (ps.map fun p => (p.type, p.name)) = (es.map protocolKey).map readKey := by
  rw [Traverse.mapM_eq_ok_iff] at h
  induction h with
  | nil => rfl
  | cons he _ ih => rw [List.map_cons, List.map_cons, List.map_cons, ih,
      readControlPlaneProtocol_key he]

/-- The key of an instance: a name, and a type that is an identity of a module. -/
def Qualified (key : Option String × Option String) (module identity name : String) : Prop :=
  ':' ∉ module.toList ∧ key = (some (module ++ ":" ++ identity), some name)

theorem Qualified.readKey_eq {key : Option String × Option String} {module identity name : String}
    (h : Qualified key module identity name) : readKey key = (identity, name) := by
  obtain ⟨hm, rfl⟩ := h
  have hsplit : Text.splitFirst ':' (module ++ ":" ++ identity) = some (module, identity) :=
    Text.splitFirst_eq_some_iff.mpr ⟨by simp, hm⟩
  simp only [readKey, Option.map_some, Option.getD_some, stripIdentityPrefix, hsplit]

/-- No two instances have the same name and identities of the same name from different modules. -/
def OneModule (keys : List (Option String × Option String)) : Prop :=
  ∀ m m' identity name : String, (∃ k ∈ keys, Qualified k m identity name) →
    (∃ k ∈ keys, Qualified k m' identity name) → m = m'

/-- **Decoded control-plane protocols are told apart by type and name exactly when no two of them
differ only in the module of their type.**

The tree is any that is accepted, below whichever entry node. As in a validated document, the type
of every instance is an identity with its module in front, and no two instances have the same
keys. -/
theorem protocolKeys_nodup_iff {lyd_find_path : FindPath} {top : List LydNode} {tree rt : LydNode}
    {m : IetfRouting} (hrt : findRouting lyd_find_path top tree = some rt)
    (hok : IetfRouting.deserialize lyd_find_path top (some tree) = .ok m)
    {keys : List (Option String × Option String)}
    (hkeys : (entries rt "control-plane-protocols" "control-plane-protocol").map protocolKey = keys)
    (hqualified : ∀ k ∈ keys, ∃ module identity name, Qualified k module identity name)
    (hdistinct : keys.Nodup) :
    (m.routing_.control_plane_protocols.map fun p => (p.type, p.name)).Nodup ↔ OneModule keys := by
  rw [map_readKey (deserialize_eq_ok hrt hok), hkeys, List.nodup_map_iff_inj_on hdistinct]
  constructor
  · rintro hinj m m' identity name ⟨k, hk, hq⟩ ⟨k', hk', hq'⟩
    obtain rfl := hinj k hk k' hk' (hq.readKey_eq.trans hq'.readKey_eq.symm)
    have heq := congrArg (Option.map String.toList) (congrArg Prod.fst (hq.2.symm.trans hq'.2))
    exact String.toList_inj.mp (by simpa using heq)
  · intro hone k hk k' hk' heq
    obtain ⟨mod, identity, name, hq⟩ := hqualified k hk
    obtain ⟨mod', identity', name', hq'⟩ := hqualified k' hk'
    rw [hq.readKey_eq, hq'.readKey_eq, Prod.mk.injEq] at heq
    obtain ⟨rfl, rfl⟩ := heq
    rw [hq.2, hq'.2, hone mod mod' identity name ⟨k, hk, hq⟩ ⟨k', hk', hq'⟩]

/-- A router with a static protocol of `ietf-routing` and one of another module, both called `r`. -/
def twoStatics : LydNode :=
  let entry (type : String) : LydNode := LydNode.inner (rtName "control-plane-protocol")
    [LydNode.leaf (rtName "type") type, LydNode.leaf (rtName "name") "r"]
  LydNode.inner (rtName "routing")
    [LydNode.inner (rtName "control-plane-protocols")
      [entry "ietf-routing:static", entry "vendor-routing:static"]]

def twoStaticsKeys : List (Option String × Option String) :=
  [(some ("ietf-routing" ++ ":" ++ "static"), some "r"),
    (some ("vendor-routing" ++ ":" ++ "static"), some "r")]

theorem deserialize_twoStatics : IetfRouting.deserialize Reference.findPath [twoStatics]
    (some twoStatics) = .ok ⟨{ control_plane_protocols :=
      [{ type := "static", name := "r" }, { type := "static", name := "r" }] }⟩ := rfl

theorem twoStatics_qualified :
    ∀ k ∈ twoStaticsKeys, ∃ module identity name, Qualified k module identity name := by
  intro k hk
  simp only [twoStaticsKeys, List.mem_cons, List.not_mem_nil, or_false] at hk
  rcases hk with rfl | rfl
  · exact ⟨"ietf-routing", "static", "r", by decide, rfl⟩
  · exact ⟨"vendor-routing", "static", "r", by decide, rfl⟩

theorem protocolKeys_nodup_iff_twoStatics :
    ([("static", "r"), ("static", "r")] : List (String × String)).Nodup ↔
      OneModule twoStaticsKeys :=
  protocolKeys_nodup_iff rfl deserialize_twoStatics rfl twoStatics_qualified (by decide)

/-- Their keys are distinct, and what is read is not. -/
theorem twoStatics_merged : twoStaticsKeys.Nodup ∧
    ∃ m, IetfRouting.deserialize Reference.findPath [twoStatics] (some twoStatics) = .ok m ∧
      ¬ (m.routing_.control_plane_protocols.map fun p => (p.type, p.name)).Nodup :=
  ⟨by decide, _, deserialize_twoStatics, by decide⟩

end StelleriYang

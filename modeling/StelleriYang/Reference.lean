import StelleriYang.InterfacesEncoding
import StelleriYang.RoutingEncoding
import StelleriYang.Yang

/-!
# A libyang to run

A function for each of the two libyang calls that does what the documentation says, over a schema
with the nodes the encoders write to, in the modules of `kDefaultModules`. Statements that hold for
every lawful libyang are tried on this one.

The schema has one node more than the context that `Yang::getDefaultContext` sets up: `router-id`
stands under the feature of that name, which the default context leaves disabled, so there a model
with a router id is turned down. Here the feature is enabled.

## Main definitions

* `Reference.newPath`, `Reference.findPath`
* `Reference.schema` — the modules of `kDefaultModules`, with the feature `router-id`

## Main results

* `Reference.newPath_lawful`, `Reference.findPath_lawful`
* `Reference.interfacesSchema`, `Reference.routingSchema`
-/

namespace StelleriYang

namespace Reference

open DataTree (Tree Step occurs graft)
open Interfaces (ifName ipName interfacePlace familyPlace addressPlace families)
open Routing (rtName interfacesPlace protocolsPlace protocolPlace ribsPlace ribPlace routesPlace
  routePlace)

/-! ### Calls -/

/-- The name in `/module:name`. -/
def topName (path : String) : Option QName :=
  match path.toList with
  | '/' :: rest => (Text.splitFirst ':' (String.ofList rest)).map fun r => ⟨r.1, r.2⟩
  | _ => none

def newPath (S : SchemaTree) : NewPath LydNode
  | none, path, _ =>
    match topName path with
    | none => (.LY_EVALID, none)
    | some q =>
      match S.kind [q] with
      | some .container => (.LY_SUCCESS, some (LydNode.inner q []))
      | _ => (.LY_EINVAL, none)
  | some t, path, value =>
    match t.label, value with
    | some q, some v =>
      match S.effect (.root q) (path, v) with
      | none => (.LY_EVALID, some t)
      | some op =>
        if occurs op.1 t.children then (.LY_EEXIST, some t)
        else (.LY_SUCCESS, some (t.withChildren (graft op.2 op.1 t.children)))
    | _, _ => (.LY_EINVAL, some t)

def findPath : FindPath := fun top path =>
  match topName path with
  | none => (.LY_EVALID, none)
  | some q =>
    match top.find? fun c => c.label == some q with
    | some n => (.LY_SUCCESS, some n)
    | none => (.LY_ENOTFOUND, none)

theorem topName_eq {q : QName} (hq : PathText.IsIdent q.module) :
    topName ("/" ++ q.module ++ ":" ++ q.name) = some q := by
  have hcolon : ':' ∉ q.module.toList := fun h =>
    absurd (hq.2 ':' h) (by decide)
  have hsplit : Text.splitFirst ':' (String.ofList (q.module.toList ++ ':' :: q.name.toList)) =
      some (q.module, q.name) := Text.splitFirst_eq_some_iff.mpr ⟨by simp, hcolon⟩
  have hl : ("/" ++ q.module ++ ":" ++ q.name).toList =
      '/' :: (q.module.toList ++ ':' :: q.name.toList) := by simp
  rw [topName, hl]
  simp only [hsplit, Option.map_some]

theorem newPath_eq {S : SchemaTree} {t : LydNode} {q : QName} (ht : t.label = some q)
    (path value : String) : newPath S (some t) path (some value) =
      match S.effect (.root q) (path, value) with
      | none => (.LY_EVALID, some t)
      | some op =>
        if occurs op.1 t.children then (.LY_EEXIST, some t)
        else (.LY_SUCCESS, some (t.withChildren (graft op.2 op.1 t.children))) := by
  simp only [newPath, ht]

theorem newPath_of_effect_eq_none {S : SchemaTree} {t : LydNode} {q : QName}
    (ht : t.label = some q) {path value : String} (h : S.effect (.root q) (path, value) = none) :
    (newPath S (some t) path (some value)).1 ≠ .LY_SUCCESS := by
  rw [newPath_eq ht, h]
  simp

theorem newPath_lawful (S : SchemaTree) : NewPath.Lawful S (newPath S) where
  root q hq hk := by
    rw [newPath, topName_eq hq]
    simp only [hk]
  unchanged t path value h := by
    cases ht : t.label with
    | none => simp [newPath, ht]
    | some q =>
      cases value with
      | none => simp [newPath, ht]
      | some v =>
        rw [newPath_eq ht] at h ⊢
        cases he : S.effect (.root q) (path, v) with
        | none => rfl
        | some op =>
          rw [he] at h
          cases ho : occurs op.1 t.children with
          | true => simp [ho]
          | false => simp [ho] at h
  unresolved t q path value ht ha := newPath_of_effect_eq_none ht (by simp [SchemaTree.effect, ha])
  invalid t q path value steps target type ht ha htype hv :=
    newPath_of_effect_eq_none ht (by simp [SchemaTree.effect, ha, htype, hv])
  exists_ t q path value op ht he ho := by
    rw [newPath_eq ht, he]
    simp only [ho, if_true]
  created t q path value op ht he ho := by
    have hp : op.1 ≠ [] := fun h => by simp [h] at ho
    refine ⟨_, DataTree.grows_graft op.2 hp ho, ?_⟩
    rw [newPath_eq ht, he]
    simp [ho]

theorem findPath_lawful : FindPath.Lawful findPath where
  found top q n hq h := by
    rw [findPath, topName_eq hq]
    simp only [h]
  missing top q hq h := by
    rw [findPath, topName_eq hq]
    simp [h]

/-! ### Types -/

/-- A text of some characters. -/
def textOf (p : Char → Bool) (v : String) : Option String :=
  if v ≠ "" ∧ v.toList.all p = true then some v else none

/-- The characters of an IP address. -/
def addressChar (c : Char) : Bool := c.isAlphanum || c == '.' || c == ':'

def boolean (v : String) : Option String := if v = "true" ∨ v = "false" then some v else none

/-- An unsigned number. -/
def number (max : ℕ) (v : String) : Option String :=
  if v ≠ "" ∧ v.toList.all Char.isDigit = true ∧ Nat.ofDigitChars 10 v.toList 0 ≤ max then
    some (Nat.ofDigitChars 10 v.toList 0).repr
  else none

/-- The modules a qualifier can stand for. -/
def modules : List String := kDefaultModules.map Prod.fst

def moduleOf (q : String) : Option String := if q ∈ modules then some q else none

theorem moduleOf_eq {p m : String} (h : moduleOf p = some m) : m = p := by
  rw [moduleOf] at h
  split at h
  · exact (Option.some.inj h).symm
  · cases h

/-- An identity is looked up in the module its prefix stands for, or in the one of the leaf. -/
def identityref (module : String) (isIdentity : String → String → Bool) (v : String) :
    Option String :=
  match Text.splitFirst ':' v with
  | some (p, n) => (moduleOf p).bind fun m => if isIdentity m n then some (m ++ ":" ++ n) else none
  | none => if isIdentity module v then some (module ++ ":" ++ v) else none

/-- The identities derived from `interface-type`. -/
def isInterfaceType (module name : String) : Bool :=
  module == "iana-if-type" && decide (ianaIfTypeFromString name ≠ .unknown)

/-- The identities derived from `address-family`. -/
def isAddressFamily (module name : String) : Bool :=
  module == "ietf-routing" && (name == "ipv4" || name == "ipv6")

/-- The identities derived from `control-plane-protocol`. -/
def isControlPlaneProtocol (module name : String) : Bool :=
  module == "ietf-routing" && (name == "direct" || name == "static")

theorem textOf_canonical (p : Char → Bool) : Canonical (textOf p) := by
  intro v w h
  rw [textOf] at h
  split at h
  · cases h
    rename_i hv
    rw [textOf, if_pos hv]
  · cases h

theorem nulFree_of_textOf {p : Char → Bool} (hp : p Text.nul = false) {v w : String}
    (h : textOf p v = some w) : Text.NulFree w := by
  rw [textOf] at h
  split at h
  · rename_i hv
    cases h
    exact fun hnul => Bool.false_ne_true (hp.symm.trans (List.all_eq_true.mp hv.2 _ hnul))
  · cases h

theorem number_repr {max n : ℕ} (h : n ≤ max) : number max n.repr = some n.repr := by
  have hn : n.repr ≠ "" := fun h => by
    have hl := congrArg String.toList h
    rw [Nat.toList_repr] at hl
    exact Nat.toDigits_ne_nil hl
  have hd : n.repr.toList.all Char.isDigit = true := by
    rw [Nat.toList_repr, List.all_eq_true]
    exact fun c hc => Nat.isDigit_of_mem_toDigits (by omega) (by omega) hc
  have hv : Nat.ofDigitChars 10 n.repr.toList 0 = n := by
    rw [Nat.toList_repr, Nat.ofDigitChars_ten_toDigits]
  rw [number, hv, if_pos ⟨hn, hd, h⟩]

theorem number_eq_some {max : ℕ} {v w : String} (h : number max v = some w) :
    ∃ n ≤ max, w = n.repr := by
  rw [number] at h
  split at h
  · rename_i hv
    exact ⟨_, hv.2.2, (Option.some.inj h).symm⟩
  · cases h

theorem number_canonical (max : ℕ) : Canonical (number max) := by
  intro v w h
  obtain ⟨n, hn, rfl⟩ := number_eq_some h
  exact number_repr hn

theorem number_decimal (max : ℕ) : Decimal (number max) := by
  intro n w h
  have hv : Nat.ofDigitChars 10 n.repr.toList 0 = n := by
    rw [Nat.toList_repr, Nat.ofDigitChars_ten_toDigits]
  rw [number, hv] at h
  split at h
  · exact (Option.some.inj h).symm
  · cases h

theorem isIdent_modules : ∀ m ∈ modules, PathText.IsIdent m := by decide

theorem identityref_identityRef {module : String} (hm : PathText.IsIdent module)
    (isIdentity : String → String → Bool) :
    IdentityRef moduleOf (identityref module isIdentity) where
  prefixed p v w hp h := by
    have hsplit : Text.splitFirst ':' (p ++ ":" ++ v) = some (p, v) :=
      Text.splitFirst_eq_some_iff.mpr ⟨by simp, hp⟩
    rw [identityref, hsplit] at h
    simp only [moduleOf] at h ⊢
    split at h
    · rename_i hmem
      rw [if_pos hmem]
      simp only [Option.bind_some] at h
      split at h
      · exact ⟨p, rfl, isIdent_modules p hmem, (Option.some.inj h).symm⟩
      · cases h
    · cases h
  bare v w hv h := by
    rw [identityref, Text.splitFirst_eq_none_iff.mpr hv] at h
    simp only at h
    split at h
    · exact ⟨module, hm, (Option.some.inj h).symm⟩
    · cases h

/-! ### The default modules -/

/-- What `ietf-ip` adds to an interface, for one address family. -/
def familyNodes (f : String) : List (List QName × Kind) := [
  ((familyPlace f).path, .container),
  (((familyPlace f).child (ipName "mtu")).path, .leaf (number 65535)),
  ((addressPlace f).path, .list ["ip"]),
  (((addressPlace f).child (ipName "ip")).path, .leaf (textOf addressChar)),
  (((addressPlace f).child (ipName "prefix-length")).path, .leaf (number 128))]

/-- The nodes the encoders write to. -/
def nodes : List (List QName × Kind) := [
  (Interfaces.rootPlace.path, .container),
  (interfacePlace.path, .list ["name"]),
  ((interfacePlace.child (ifName "name")).path, .leaf yangString),
  ((interfacePlace.child (ifName "description")).path, .leaf yangString),
  ((interfacePlace.child (ifName "enabled")).path, .leaf boolean),
  ((interfacePlace.child (ifName "type")).path,
    .leaf (identityref "ietf-interfaces" isInterfaceType)),
  (Routing.rootPlace.path, .container),
  ((Routing.rootPlace.child (rtName "router-id")).path,
    .leaf (textOf fun c => c.isDigit || c == '.')),
  (interfacesPlace.path, .container),
  ((interfacesPlace.child (rtName "interface")).path, .stateLeafList yangString),
  (protocolsPlace.path, .container),
  (protocolPlace.path, .list ["type", "name"]),
  ((protocolPlace.child (rtName "type")).path,
    .leaf (identityref "ietf-routing" isControlPlaneProtocol)),
  ((protocolPlace.child (rtName "name")).path, .leaf yangString),
  ((protocolPlace.child (rtName "description")).path, .leaf yangString),
  (ribsPlace.path, .container),
  (ribPlace.path, .list ["name"]),
  ((ribPlace.child (rtName "name")).path, .leaf yangString),
  ((ribPlace.child (rtName "description")).path, .leaf yangString),
  ((ribPlace.child (rtName "address-family")).path,
    .leaf (identityref "ietf-routing" isAddressFamily)),
  (routesPlace.path, .container),
  (routePlace.path, .list []),
  ((routePlace.child (rtName "route-preference")).path, .leaf (number (2 ^ 32 - 1)))] ++
  families.flatMap familyNodes

/-- The schema of a context with the modules of `kDefaultModules` in which the feature `router-id`
is enabled. -/
def schema : SchemaTree := ⟨moduleOf, fun path => nodes.lookup path⟩

theorem mem_nodes {path : List QName} {kind : Kind} (h : schema.kind path = some kind) :
    (path, kind) ∈ nodes := by
  have hlookup : ∀ l : List (List QName × Kind), l.lookup path = some kind → (path, kind) ∈ l := by
    intro l
    induction l with
    | nil => intro h; cases h
    | cons e l ih =>
      intro h
      obtain ⟨p, k⟩ := e
      rw [List.lookup_cons] at h
      split at h
      · rename_i heq
        obtain rfl := Option.some.inj h
        rw [eq_of_beq heq]
        exact List.mem_cons_self
      · exact List.mem_cons_of_mem _ (ih h)
  exact hlookup nodes h

/-- The list has keys. -/
def keyed : Kind → Bool
  | .list (_ :: _) => true
  | _ => false

theorem keylessBelow {p : Place}
    (h : ∀ e ∈ nodes, keyed e.2 = true → p.path.isPrefixOf e.1 = true →
      e.1.length ≤ p.path.length) : schema.KeylessBelow p := by
  intro q tl ks hk
  cases ks with
  | nil => rfl
  | cons k ks =>
    have hlen := h _ (mem_nodes hk) rfl (by simp [List.isPrefixOf_iff_prefix])
    simp only [List.length_append, List.length_cons] at hlen
    omega

theorem interfacesSchema : InterfacesSchema schema where
  interfaces := rfl
  interface := rfl
  name := rfl
  description := rfl
  enabled := ⟨boolean, rfl, by decide⟩
  type := ⟨_, rfl, identityref_identityRef (by decide) _⟩
  family f hf := by
    rcases List.mem_cons.mp hf with rfl | hf
    · rfl
    · obtain rfl := List.mem_singleton.mp hf
      rfl
  onlyIp f hf m h := by
    have hnodes : ∀ e ∈ nodes, ∀ q ∈ e.1, q.name ∈ families → q.module = "ietf-ip" := by decide
    obtain ⟨kind, hk⟩ := Option.isSome_iff_exists.mp h
    exact hnodes _ (mem_nodes hk) ⟨m, f⟩ (by simp) hf
  address f hf := by
    rcases List.mem_cons.mp hf with rfl | hf
    · rfl
    · obtain rfl := List.mem_singleton.mp hf
      rfl
  addressKeyless f hf := by
    rcases List.mem_cons.mp hf with rfl | hf
    · exact keylessBelow (by decide)
    · obtain rfl := List.mem_singleton.mp hf
      exact keylessBelow (by decide)
  ip f hf := by
    refine ⟨textOf addressChar, ?_, textOf_canonical _, fun v w h hslash => ?_⟩
    · rcases List.mem_cons.mp hf with rfl | hf
      · rfl
      · obtain rfl := List.mem_singleton.mp hf
        rfl
    · rw [textOf] at h
      split at h
      · rename_i hv
        cases h
        exact absurd (List.all_eq_true.mp hv.2 _ hslash) (by decide)
      · cases h
  prefixLength f hf := by
    refine ⟨number 128, ?_, number_canonical _⟩
    rcases List.mem_cons.mp hf with rfl | hf
    · rfl
    · obtain rfl := List.mem_singleton.mp hf
      rfl
  mtu f hf := by
    refine ⟨number 65535, ?_, number_decimal _⟩
    rcases List.mem_cons.mp hf with rfl | hf
    · rfl
    · obtain rfl := List.mem_singleton.mp hf
      rfl

theorem routingSchema : RoutingSchema schema where
  routing := rfl
  routerId := ⟨_, rfl⟩
  interfaces := rfl
  interface := rfl
  protocols := rfl
  protocol := rfl
  protocolType := ⟨_, rfl⟩
  protocolName := rfl
  ribs := rfl
  rib := rfl
  ribName := rfl
  ribDescription := rfl
  addressFamily := ⟨_, rfl, identityref_identityRef (by decide) _⟩
  ribKeyless := keylessBelow (by decide)
  routes := rfl
  route := rfl
  routePreference := ⟨_, rfl, fun k => number_repr (by have := k.toNat_lt; omega)⟩

end Reference

end StelleriYang

import StelleriYang.InterfaceTypes
import StelleriYang.RoutingEncoding

/-!
# Keys in paths

Both encoders splice keys into the text of paths, between apostrophes and without escaping them, and
hand libyang the text up to its first NUL. What libyang gets spells the intended steps exactly when
no key holds an apostrophe or a NUL.

## Main definitions

* `Entry` — what the encoders make paths for, with its keys
* `Entry.leaves` — the texts that are composed, and the steps they are meant to spell
* `Entry.paths` — what libyang gets of the texts
* `routingAsks` — the calls of `IetfRouting::serialize`, watched
* `IetfInterfaces.entries`, `IetfRouting.entries` — the entries of a model

## Main results

* `mem_asks_paths`, `mem_routingAsks_paths`, `entries_asked`, `routingEntries_asked` — the encoders
  use paths of their entries, for each of them, and no other path with a key
* `Entry.parses_iff` — a path is read as intended exactly when no key holds an apostrophe or a NUL
* `Entry.keys_eq` — then entries with different keys have different paths
-/

namespace StelleriYang

open Interfaces (families)
open PathText (quote)

/-- An interface, an address of one of its families, a rib, or a control-plane protocol. -/
inductive Entry where
  | interface (name : String)
  | address (name : String) (family : {f : String // f ∈ families}) (ip_only : String)
  | rib (name : String)
  | controlPlaneProtocol (type name : String)

namespace Entry

/-- The keys in the paths of an entry. -/
def keys : Entry → List String
  | interface name => [name]
  | address name _ ip_only => [name, ip_only]
  | rib name => [name]
  | controlPlaneProtocol type name => [type, name]

/-- The leaf `ip:name`. -/
def ipLeaf (name : String) : PathText.Step := ⟨some "ip", name, []⟩

/-- The texts of the paths of an entry, each with the steps it is meant to spell. -/
def leaves : Entry → List (String × List PathText.Step)
  | interface name => [
    (interfacePath name "name", [interfaceStep name, bareStep "name"]),
    (interfacePath name "description", [interfaceStep name, bareStep "description"]),
    (interfacePath name "enabled", [interfaceStep name, bareStep "enabled"]),
    (interfacePath name "type", [interfaceStep name, bareStep "type"]),
    (mtuPath name "ipv4", [interfaceStep name, familyStep "ipv4", bareStep "mtu"]),
    (mtuPath name "ipv6", [interfaceStep name, familyStep "ipv6", bareStep "mtu"])]
  | address name family ip_only => [
    (addressBase name family ip_only ++ "/ip:ip",
      [interfaceStep name, familyStep family, addressStep ip_only, ipLeaf "ip"]),
    (addressBase name family ip_only ++ "/ip:prefix-length",
      [interfaceStep name, familyStep family, addressStep ip_only, ipLeaf "prefix-length"])]
  | rib name => [
    (ribPath name ++ "/name", [bareStep "ribs", ribStep name, bareStep "name"]),
    (ribPath name ++ "/address-family", [bareStep "ribs", ribStep name, bareStep "address-family"]),
    (ribPath name ++ "/description", [bareStep "ribs", ribStep name, bareStep "description"]),
    (ribPath name ++ "/routes/route/route-preference",
      [bareStep "ribs", ribStep name, bareStep "routes", bareStep "route",
        bareStep "route-preference"])]
  | controlPlaneProtocol type name => [
    (controlPlaneProtocolPath type name ++ "/type",
      [bareStep "control-plane-protocols", protocolStep type name, bareStep "type"]),
    (controlPlaneProtocolPath type name ++ "/name",
      [bareStep "control-plane-protocols", protocolStep type name, bareStep "name"]),
    (controlPlaneProtocolPath type name ++ "/description",
      [bareStep "control-plane-protocols", protocolStep type name, bareStep "description"]),
    (controlPlaneProtocolPath type name ++ "/static-routes/route/route-preference",
      [bareStep "control-plane-protocols", protocolStep type name, bareStep "static-routes",
        bareStep "route", bareStep "route-preference"])]

/-- The text of a path is that of its steps, with these literals. -/
structure Spelled (keys : List String) (p : String × List PathText.Step) : Prop where
  text : p.1 = PathText.text p.2
  nonempty : p.2 ≠ []
  named : ∀ s ∈ p.2, s.Named
  literals : PathText.literals p.2 = keys

theorem Spelled.step {keys : List String} {t : String} {steps : List PathText.Step}
    (h : Spelled keys (t, steps)) {s : PathText.Step} (hs : s.Named) :
    Spelled (s.preds.map Prod.snd ++ keys) (s.text ++ "/" ++ t, s :: steps) where
  text := by rw [PathText.text_cons s h.nonempty, ← h.text]
  nonempty := by simp
  named u hu := by
    rcases List.mem_cons.mp hu with rfl | hu
    · exact hs
    · exact h.named u hu
  literals := by
    rw [← h.literals]
    simp [PathText.literals]

theorem spelled_bare {name : String} (h : PathText.IsIdent name) :
    Spelled [] (name, [bareStep name]) where
  text := (text_bareStep name).symm
  nonempty := by simp
  named := by simpa using bareStep_named h
  literals := rfl

theorem spelled_ipLeaf {name : String} (h : PathText.IsIdent name) :
    Spelled [] ("ip:" ++ name, [ipLeaf name]) where
  text := by
    rw [show "ip:" = "ip" ++ ":" by decide]
    simp [PathText.text, PathText.Step.text, PathText.qualifierText, PathText.predsText, ipLeaf]
  nonempty := by simp
  named := by simpa using (⟨by simpa [ipLeaf] using show PathText.IsIdent "ip" by decide, h,
    by simp [ipLeaf]⟩ : (ipLeaf name).Named)
  literals := rfl

/-! The prefixes of the paths, in front of a leaf. -/

theorem spelled_interface (name : String) {leaf : String} {steps : List PathText.Step}
    (h : Spelled [] (leaf, steps)) :
    Spelled [name] (interfacePath name leaf, interfaceStep name :: steps) := by
  rw [interfacePath_eq]
  exact h.step (interfaceStep_named name)

theorem spelled_mtu (name : String) {f : String} (hf : f ∈ families) :
    Spelled [name] (mtuPath name f, [interfaceStep name, familyStep f, bareStep "mtu"]) := by
  rw [mtuPath_eq]
  exact ((spelled_bare (by decide)).step (familyStep_named hf)).step (interfaceStep_named name)

theorem spelled_address (name ip_only : String) {f : String} (hf : f ∈ families)
    {suffix leaf : String} {steps : List PathText.Step} (h : Spelled [] (leaf, steps))
    (hs : suffix = "/" ++ leaf) :
    Spelled [name, ip_only] (addressBase name f ip_only ++ suffix,
      interfaceStep name :: familyStep f :: addressStep ip_only :: steps) := by
  rw [hs, addressBase_eq]
  exact ((h.step (addressStep_named ip_only)).step (familyStep_named hf)).step
    (interfaceStep_named name)

theorem spelled_rib (name : String) {suffix leaf : String} {steps : List PathText.Step}
    (h : Spelled [] (leaf, steps)) (hs : suffix = "/" ++ leaf) :
    Spelled [name] (ribPath name ++ suffix, bareStep "ribs" :: ribStep name :: steps) := by
  rw [hs, ribPath_eq]
  exact (h.step (ribStep_named name)).step (bareStep_named (by decide))

theorem spelled_controlPlaneProtocol (type name : String) {suffix leaf : String}
    {steps : List PathText.Step} (h : Spelled [] (leaf, steps)) (hs : suffix = "/" ++ leaf) :
    Spelled [type, name] (controlPlaneProtocolPath type name ++ suffix,
      bareStep "control-plane-protocols" :: protocolStep type name :: steps) := by
  rw [hs, controlPlaneProtocolPath_eq]
  exact (h.step (protocolStep_named type name)).step (bareStep_named (by decide))

/-- The preference of a route, below the container of the routes. -/
theorem spelled_route {container : String} (h : PathText.IsIdent container) :
    Spelled [] (container ++ "/" ++ ("route" ++ "/" ++ "route-preference"),
      [bareStep container, bareStep "route", bareStep "route-preference"]) := by
  have hstep := ((spelled_bare (show PathText.IsIdent "route-preference" by decide)).step
    (bareStep_named (show PathText.IsIdent "route" by decide))).step (bareStep_named h)
  rwa [text_bareStep, text_bareStep] at hstep

theorem spelled (e : Entry) : ∀ p ∈ e.leaves, Spelled e.keys p := by
  have hname := spelled_bare (show PathText.IsIdent "name" by decide)
  have htype := spelled_bare (show PathText.IsIdent "type" by decide)
  have hdescription := spelled_bare (show PathText.IsIdent "description" by decide)
  intro p hp
  cases e with
  | interface name =>
    simp only [leaves, List.mem_cons, List.not_mem_nil, or_false] at hp
    rcases hp with rfl | rfl | rfl | rfl | rfl | rfl
    · exact spelled_interface name hname
    · exact spelled_interface name hdescription
    · exact spelled_interface name (spelled_bare (by decide))
    · exact spelled_interface name htype
    · exact spelled_mtu name (by decide)
    · exact spelled_mtu name (by decide)
  | address name family ip_only =>
    obtain ⟨f, hf⟩ := family
    simp only [leaves, List.mem_cons, List.not_mem_nil, or_false] at hp
    rcases hp with rfl | rfl
    · exact spelled_address name ip_only hf
        (spelled_ipLeaf (show PathText.IsIdent "ip" by decide)) (by decide)
    · exact spelled_address name ip_only hf
        (spelled_ipLeaf (show PathText.IsIdent "prefix-length" by decide)) (by decide)
  | rib name =>
    simp only [leaves, List.mem_cons, List.not_mem_nil, or_false] at hp
    rcases hp with rfl | rfl | rfl | rfl
    · exact spelled_rib name hname (by decide)
    · exact spelled_rib name
        (spelled_bare (show PathText.IsIdent "address-family" by decide)) (by decide)
    · exact spelled_rib name hdescription (by decide)
    · exact spelled_rib name
        (spelled_route (show PathText.IsIdent "routes" by decide)) (by decide)
  | controlPlaneProtocol type name =>
    simp only [leaves, List.mem_cons, List.not_mem_nil, or_false] at hp
    rcases hp with rfl | rfl | rfl | rfl
    · exact spelled_controlPlaneProtocol type name htype (by decide)
    · exact spelled_controlPlaneProtocol type name hname (by decide)
    · exact spelled_controlPlaneProtocol type name hdescription (by decide)
    · exact spelled_controlPlaneProtocol type name
        (spelled_route (show PathText.IsIdent "static-routes" by decide)) (by decide)

theorem leaves_ne_nil (e : Entry) : e.leaves ≠ [] := by
  cases e <;> simp [leaves]

/-- Every path of the entry is read as the steps it is meant to spell. -/
def Parses (e : Entry) : Prop := ∀ p ∈ e.leaves, PathText.parse (Text.cStr p.1) = some p.2

/-- No key holds an apostrophe or a NUL. -/
def Clean (e : Entry) : Prop := ∀ v ∈ e.keys, quote ∉ v.toList ∧ Text.NulFree v

instance (e : Entry) : Decidable e.Clean :=
  inferInstanceAs (Decidable (∀ v ∈ e.keys, quote ∉ v.toList ∧ Text.NulFree v))

/-- Libyang gets the whole text if no key holds a NUL. -/
theorem Spelled.cStr_eq {keys : List String} {p : String × List PathText.Step}
    (h : Spelled keys p) (hkeys : ∀ v ∈ keys, Text.NulFree v) :
    Text.cStr p.1 = PathText.text p.2 := by
  have hnul : Text.NulFree p.1 := fun hmem => by
    rw [h.text] at hmem
    obtain ⟨v, hv, hc⟩ :=
      PathText.mem_text (by decide : PathText.Inert Text.nul) h.named hmem
    rw [h.literals] at hv
    exact hkeys v hv hc
  rw [hnul.cStr_eq, h.text]

/-- Each path by itself is read as intended exactly when the keys are clean. -/
theorem parse_iff {e : Entry} {p : String × List PathText.Step} (hp : p ∈ e.leaves) :
    PathText.parse (Text.cStr p.1) = some p.2 ↔ e.Clean := by
  have h := e.spelled p hp
  constructor
  · intro hparse
    -- the literals stand in what libyang gets, and that ends in front of the first NUL
    have hkeys : ∀ v ∈ e.keys, Text.NulFree v := fun v hv hmem => by
      rw [← h.literals] at hv
      exact Text.nulFree_cStr p.1 (PathText.mem_of_parse hparse hv hmem)
    rw [h.cStr_eq hkeys, PathText.parse_text_iff h.nonempty h.named, h.literals] at hparse
    exact fun v hv => ⟨hparse v hv, hkeys v hv⟩
  · intro hclean
    rw [h.cStr_eq fun v hv => (hclean v hv).2, PathText.parse_text_iff h.nonempty h.named,
      h.literals]
    exact fun v hv => (hclean v hv).1

theorem parses_iff (e : Entry) : e.Parses ↔ e.Clean := by
  constructor
  · intro h
    obtain ⟨p, ps, hp⟩ := List.exists_cons_of_ne_nil e.leaves_ne_nil
    have hmem : p ∈ e.leaves := by simp [hp]
    exact (parse_iff hmem).mp (h p hmem)
  · exact fun h p hp => (parse_iff hp).mpr h

/-- What libyang gets of the texts of an entry. -/
def paths (e : Entry) : List String := e.leaves.map fun p => Text.cStr p.1

/-- Clean entries with different keys have different paths. -/
theorem keys_eq {e e' : Entry} (he : e.Clean) (he' : e'.Clean) {path : String}
    (hp : path ∈ e.paths) (hp' : path ∈ e'.paths) : e.keys = e'.keys := by
  obtain ⟨p, hmem, rfl⟩ := List.mem_map.mp hp
  obtain ⟨p', hmem', heq⟩ := List.mem_map.mp hp'
  have h := e.spelled p hmem
  have h' := e'.spelled p' hmem'
  rw [h'.cStr_eq fun v hv => (he' v hv).2, h.cStr_eq fun v hv => (he v hv).2] at heq
  have hsteps : p'.2 = p.2 := PathText.text_injective h'.nonempty h.nonempty h'.named h.named
    (fun v hv => (he' v (h'.literals ▸ hv)).1) (fun v hv => (he v (h.literals ▸ hv)).1) heq
  rw [← h.literals, ← hsteps, h'.literals]

end Entry

/-! ### The paths of the encoders -/

open Entry (paths)

/-- The entry of an address. -/
def addressEntry (name : String) (family : {f : String // f ∈ families}) (addr : String) : Entry :=
  .address name family (splitAddress addr).1

/-- An interface and its addresses. -/
def interfaceEntries (it : IetfInterface) : List Entry :=
  .interface it.name ::
    ((it.ipv4.toList.flatMap IetfIp.address).map (addressEntry it.name ⟨"ipv4", by decide⟩) ++
      (it.ipv6.toList.flatMap IetfIp.address).map (addressEntry it.name ⟨"ipv6", by decide⟩))

/-- The entries of a model of interfaces. -/
def IetfInterfaces.entries (m : IetfInterfaces) : List Entry := m.ifs_.flatMap interfaceEntries

/-- The entries of a routing model. -/
def IetfRouting.entries (m : IetfRouting) : List Entry :=
  m.routing_.control_plane_protocols.map (fun cpp => .controlPlaneProtocol cpp.type cpp.name) ++
    m.routing_.ribs.map fun rib => .rib rib.name

/-- What `IetfRouting::serialize` asks libyang to write. -/
def routingAsks (m : IetfRouting) : List (String × String) :=
  match m.serialize watch with
  | .ok calls => calls.getD []
  | .error _ => []

theorem routingAsks_eq (m : IetfRouting) :
    routingAsks m = (routingCalls m.routing_).map cCall := by
  have hroot : check_ly_err (watch none "/ietf-routing:routing" none) = .ok (some []) := rfl
  rw [routingAsks, IetfRouting.serialize_eq, hroot, Except.bind, checkAll_watch]
  rfl

/-- A text that is composed for an entry is one of its paths when libyang gets it. -/
theorem cCall_mem_paths {e : Entry} {c : String × String} (h : c.1 ∈ e.leaves.map Prod.fst) :
    (cCall c).1 ∈ e.paths := by
  obtain ⟨p, hp, heq⟩ := List.mem_map.mp h
  exact List.mem_map.mpr ⟨p, hp, by rw [heq, cCall]⟩

theorem addressCalls_paths (name a : String) (family : {f : String // f ∈ families}) :
    ∀ c ∈ addressCalls name family a, (cCall c).1 ∈ (addressEntry name family a).paths := by
  intro c hc
  refine cCall_mem_paths ?_
  rcases hs : splitAddress a with ⟨ip_only, len⟩
  rw [addressCalls, hs] at hc
  rw [addressEntry, hs]
  rcases List.mem_cons.mp hc with rfl | hc
  · simp [Entry.leaves]
  · split at hc
    · cases hc
    · obtain rfl := List.mem_singleton.mp hc
      simp [Entry.leaves]

/-- The paths of the calls for an interface are those of the interface and of its addresses. -/
theorem interfaceCalls_paths (it : IetfInterface) :
    ∀ c ∈ interfaceCalls it, ∃ e ∈ interfaceEntries it, (cCall c).1 ∈ e.paths := by
  have hself : ∀ {c : String × String}, c.1 ∈ (Entry.interface it.name).leaves.map Prod.fst →
      ∃ e ∈ interfaceEntries it, (cCall c).1 ∈ e.paths :=
    fun h => ⟨_, List.mem_cons_self, cCall_mem_paths h⟩
  have hfamily : ∀ (f : {f : String // f ∈ families}) (ip : IetfIp),
      (mtuPath it.name f ∈ (Entry.interface it.name).leaves.map Prod.fst) →
      (∀ a ∈ ip.address, addressEntry it.name f a ∈ interfaceEntries it) →
      ∀ c ∈ ipCalls it.name f ip, ∃ e ∈ interfaceEntries it, (cCall c).1 ∈ e.paths := by
    intro f ip hmtu hentries c hc
    rcases List.mem_append.mp hc with hc | hc
    · obtain ⟨a, ha, hc⟩ := List.mem_flatMap.mp hc
      exact ⟨_, hentries a ha, addressCalls_paths it.name a f c hc⟩
    · obtain ⟨k, -, rfl⟩ := List.mem_map.mp hc
      exact hself hmtu
  intro c hc
  simp only [interfaceCalls, List.mem_cons, List.mem_append, List.mem_map, List.mem_flatMap,
    Option.mem_toList] at hc
  rcases hc with rfl | ((((⟨d, -, rfl⟩ | hc) | ⟨t, -, rfl⟩) | ⟨ip, hip, hc⟩) | ⟨ip, hip, hc⟩)
  · exact hself (by simp [Entry.leaves])
  · exact hself (by simp [Entry.leaves])
  · split at hc
    · cases hc
    · obtain rfl := List.mem_singleton.mp hc
      exact hself (by simp [Entry.leaves])
  · exact hself (by simp [Entry.leaves])
  · refine hfamily ⟨"ipv4", by decide⟩ ip (by simp [Entry.leaves]) (fun a ha => ?_) c hc
    exact List.mem_cons_of_mem _ (List.mem_append_left _ (List.mem_map_of_mem
      (List.mem_flatMap.mpr ⟨ip, Option.mem_toList.mpr hip, ha⟩)))
  · refine hfamily ⟨"ipv6", by decide⟩ ip (by simp [Entry.leaves]) (fun a ha => ?_) c hc
    exact List.mem_cons_of_mem _ (List.mem_append_right _ (List.mem_map_of_mem
      (List.mem_flatMap.mpr ⟨ip, Option.mem_toList.mpr hip, ha⟩)))

theorem ribCalls_paths (rib : Rib) :
    ∀ c ∈ ribCalls rib, (cCall c).1 ∈ (Entry.rib rib.name).paths := by
  intro c hc
  refine cCall_mem_paths ?_
  simp only [ribCalls, descriptionCalls, routeCalls, List.mem_cons, List.mem_append,
    List.mem_map] at hc
  rcases hc with rfl | rfl | ⟨d, -, rfl⟩ | ⟨k, -, rfl⟩ <;> simp [Entry.leaves]

theorem controlPlaneProtocolCalls_paths (cpp : ControlPlaneProtocol) :
    ∀ c ∈ controlPlaneProtocolCalls cpp,
      (cCall c).1 ∈ (Entry.controlPlaneProtocol cpp.type cpp.name).paths := by
  intro c hc
  refine cCall_mem_paths ?_
  simp only [controlPlaneProtocolCalls, descriptionCalls, routeCalls, List.mem_cons,
    List.mem_append, List.mem_map] at hc
  rcases hc with rfl | rfl | ⟨d, -, rfl⟩ | ⟨k, -, rfl⟩ <;> simp [Entry.leaves]

/-- **The paths of `IetfInterfaces::serialize`** are paths of its entries. -/
theorem mem_asks_paths (m : IetfInterfaces) :
    ∀ c ∈ asks m, ∃ e ∈ m.entries, c.1 ∈ e.paths := by
  intro c hc
  rw [asks_eq] at hc
  obtain ⟨d, hd, rfl⟩ := List.mem_map.mp hc
  obtain ⟨it, hit, hd⟩ := List.mem_flatMap.mp hd
  obtain ⟨e, he, hpath⟩ := interfaceCalls_paths it d hd
  exact ⟨e, List.mem_flatMap.mpr ⟨it, hit, he⟩, hpath⟩

/-- **The paths of `IetfRouting::serialize`** hold no key, or are paths of its entries. -/
theorem mem_routingAsks_paths (m : IetfRouting) :
    ∀ c ∈ routingAsks m, c.1 ∈ ["router-id", "interfaces/interface"] ∨
      ∃ e ∈ m.entries, c.1 ∈ e.paths := by
  intro c hc
  rw [routingAsks_eq] at hc
  obtain ⟨d, hd, rfl⟩ := List.mem_map.mp hc
  simp only [routingCalls, List.mem_append, List.mem_map, List.mem_flatMap] at hd
  rcases hd with ((⟨id, -, rfl⟩ | ⟨ifname, -, rfl⟩) | ⟨cpp, hcpp, hd⟩) | ⟨rib, hrib, hd⟩
  · exact .inl (show Text.cStr "router-id" ∈ _ by decide)
  · exact .inl (show Text.cStr "interfaces/interface" ∈ _ by decide)
  · exact .inr ⟨_, List.mem_append_left _ (List.mem_map_of_mem hcpp),
      controlPlaneProtocolCalls_paths cpp d hd⟩
  · exact .inr ⟨_, List.mem_append_right _ (List.mem_map_of_mem hrib), ribCalls_paths rib d hd⟩

/-! Each entry has at least the path of its first key. -/

theorem interfaceEntries_asked (it : IetfInterface) :
    ∀ e ∈ interfaceEntries it, ∃ c ∈ interfaceCalls it, (cCall c).1 ∈ e.paths := by
  have haddress : ∀ (f : {f : String // f ∈ families}) {ip : Option IetfIp},
      (∀ ip' ∈ ip, ∀ c ∈ ipCalls it.name f ip', c ∈ interfaceCalls it) →
      ∀ e ∈ (ip.toList.flatMap IetfIp.address).map (addressEntry it.name f),
        ∃ c ∈ interfaceCalls it, (cCall c).1 ∈ e.paths := by
    intro f ip hcalls e he
    obtain ⟨a, ha, rfl⟩ := List.mem_map.mp he
    obtain ⟨ip', hip, ha⟩ := List.mem_flatMap.mp ha
    have hfirst : (addressBase it.name f (splitAddress a).1 ++ "/ip:ip", (splitAddress a).1) ∈
        addressCalls it.name f a := List.mem_cons_self
    exact ⟨_, hcalls ip' (Option.mem_toList.mp hip) _
      (List.mem_append_left _ (List.mem_flatMap.mpr ⟨a, ha, hfirst⟩)),
      addressCalls_paths it.name a f _ hfirst⟩
  intro e he
  rw [interfaceEntries, List.mem_cons, List.mem_append] at he
  rcases he with rfl | he | he
  · exact ⟨(interfacePath it.name "name", it.name), List.mem_cons_self,
      cCall_mem_paths (by simp [Entry.leaves])⟩
  · refine haddress ⟨"ipv4", by decide⟩ (fun ip hip c hc => ?_) e he
    simp only [interfaceCalls, List.mem_cons, List.mem_append, List.mem_flatMap, Option.mem_toList]
    exact .inr (.inl (.inr ⟨ip, hip, hc⟩))
  · refine haddress ⟨"ipv6", by decide⟩ (fun ip hip c hc => ?_) e he
    simp only [interfaceCalls, List.mem_cons, List.mem_append, List.mem_flatMap, Option.mem_toList]
    exact .inr (.inr ⟨ip, hip, hc⟩)

/-- **Every entry of a model of interfaces is written.** -/
theorem entries_asked (m : IetfInterfaces) :
    ∀ e ∈ m.entries, ∃ c ∈ asks m, c.1 ∈ e.paths := by
  intro e he
  obtain ⟨it, hit, he⟩ := List.mem_flatMap.mp he
  obtain ⟨c, hc, hpath⟩ := interfaceEntries_asked it e he
  rw [asks_eq]
  exact ⟨_, List.mem_map_of_mem (List.mem_flatMap.mpr ⟨it, hit, hc⟩), hpath⟩

/-- **Every entry of a routing model is written.** -/
theorem routingEntries_asked (m : IetfRouting) :
    ∀ e ∈ m.entries, ∃ c ∈ routingAsks m, c.1 ∈ e.paths := by
  intro e he
  rw [routingAsks_eq]
  rcases List.mem_append.mp he with he | he
  · obtain ⟨cpp, hcpp, rfl⟩ := List.mem_map.mp he
    have hfirst : (controlPlaneProtocolPath cpp.type cpp.name ++ "/type", cpp.type) ∈
        controlPlaneProtocolCalls cpp := List.mem_cons_self
    refine ⟨_, List.mem_map_of_mem ?_, controlPlaneProtocolCalls_paths cpp _ hfirst⟩
    exact List.mem_append_left _
      (List.mem_append_right _ (List.mem_flatMap.mpr ⟨cpp, hcpp, hfirst⟩))
  · obtain ⟨rib, hrib, rfl⟩ := List.mem_map.mp he
    have hfirst : (ribPath rib.name ++ "/name", rib.name) ∈ ribCalls rib := List.mem_cons_self
    exact ⟨_, List.mem_map_of_mem
      (List.mem_append_right _ (List.mem_flatMap.mpr ⟨rib, hrib, hfirst⟩)),
      ribCalls_paths rib _ hfirst⟩

/-- **Keys alter the paths exactly when they hold an apostrophe or a NUL.** What an encoder asks
libyang to write stands at a path of an entry of its model, or at one of the two paths without a
key, and every entry is written; the paths of an entry are read as intended just if its keys are
clean; and clean entries share a path only if they have the same keys. -/
theorem keys_settled_iff (m : IetfInterfaces) (r : IetfRouting) (e e' : Entry) :
    ((∀ c ∈ asks m, ∃ e ∈ m.entries, c.1 ∈ e.paths) ∧
        ∀ e ∈ m.entries, ∃ c ∈ asks m, c.1 ∈ e.paths) ∧
      ((∀ c ∈ routingAsks r, c.1 ∈ ["router-id", "interfaces/interface"] ∨
          ∃ e ∈ r.entries, c.1 ∈ e.paths) ∧
        ∀ e ∈ r.entries, ∃ c ∈ routingAsks r, c.1 ∈ e.paths) ∧
      (e.Parses ↔ e.Clean) ∧
      (e.Clean → e'.Clean → ∀ p ∈ e.paths, p ∈ e'.paths → e.keys = e'.keys) :=
  ⟨⟨mem_asks_paths m, entries_asked m⟩, ⟨mem_routingAsks_paths r, routingEntries_asked r⟩,
    e.parses_iff, fun he he' _ hp hp' => Entry.keys_eq he he' hp hp'⟩

/-- The type of one control-plane protocol swallows the beginning of the name of another, a rib is
called `a'b`, and two ribs have names that differ behind a NUL. -/
theorem keys_not_settled :
    (¬ (Entry.rib "a'b").Parses) ∧ (¬ (Entry.rib (String.ofList ['a', Text.nul, 'b'])).Parses) ∧
      (∃ p ∈ (Entry.controlPlaneProtocol "a" "b'][name='c").paths,
        p ∈ (Entry.controlPlaneProtocol "a'][name='b" "c").paths ∧
          (Entry.controlPlaneProtocol "a" "b'][name='c").keys ≠
            (Entry.controlPlaneProtocol "a'][name='b" "c").keys) ∧
      ∃ p ∈ (Entry.rib (String.ofList ['a', Text.nul, 'b'])).paths,
        p ∈ (Entry.rib (String.ofList ['a', Text.nul, 'c'])).paths ∧
          (Entry.rib (String.ofList ['a', Text.nul, 'b'])).keys ≠
            (Entry.rib (String.ofList ['a', Text.nul, 'c'])).keys := by
  refine ⟨fun h => ?_, fun h => ?_, ⟨Text.cStr (controlPlaneProtocolPath "a" "b'][name='c" ++
    "/type"), ?_, ?_, ?_⟩, ⟨"ribs/rib[name='a", ?_, ?_, ?_⟩⟩
  · exact absurd ((Entry.parses_iff _).mp h) (by decide)
  · exact absurd ((Entry.parses_iff _).mp h) (by decide)
  · simp [Entry.paths, Entry.leaves]
  · have heq : controlPlaneProtocolPath "a" "b'][name='c" =
        controlPlaneProtocolPath "a'][name='b" "c" := by decide
    simp [Entry.paths, Entry.leaves, heq]
  · decide
  · decide
  · decide
  · decide

end StelleriYang

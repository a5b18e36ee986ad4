import StelleriYang.Lib.Checks
import StelleriYang.Reference

/-!
# What the decoders throw

A decoder throws `YangDataError` for what is missing, and lets through what `std::stoul` and
`std::stoi` throw. Here is the list of all checks it makes on a document, in the order in which it
makes them; the first that fails decides the exception. A decoder that returns has read every
numeral: the leading numeral of the text, and of an unsigned one the value modulo `2 ^ 32`.

## Main definitions

* `uint32Check`, `int32Check` — how a text fails to be read as a number
* `ReadUInt32`, `ReadInt32` — what a text is read as
* `interfacesChecks`, `routingChecks` — the checks below a node
* `IetfInterfaces.checks`, `IetfRouting.checks` — the checks on a document

## Main results

* `interfaces_outcome`, `routing_outcome`
-/

namespace StelleriYang

open Checks (Check First Passes Throws failIf throws_ok throws_of_iff throws_ite throws_elim
  throws_mapM)
open LydNode (findChild childrenNamed childValue)
open Text (HasNumeral signed)

/-! ### Numerals -/

/-- How reading a leaf as a numeral fails: there is none at the beginning of its text, or there is
one that is out of range. A leaf that is not there is not read. -/
def numeralCheck (outOfRange : Bool → ℕ → Prop) (v : Option String) : Check Thrown := fun e =>
  ∃ s, v = some s ∧ ((e = .invalidArgument ∧ ∀ minus n, ¬ HasNumeral s minus n) ∨
    (e = .outOfRange ∧ ∃ minus n, HasNumeral s minus n ∧ outOfRange minus n))

/-- `std::stoul`: the digits are a number of 64 bits. -/
def uint32Check : Option String → Check Thrown := numeralCheck fun _ n => 2 ^ 64 ≤ n

/-- `std::stoi`: the number is an `int`. -/
def int32Check : Option String → Check Thrown :=
  numeralCheck fun minus n => signed minus n < - 2 ^ 31 ∨ 2 ^ 31 ≤ signed minus n

/-- What `static_cast<uint32_t>(std::stoul(v))` makes of a leaf. -/
def ReadUInt32 (v : Option String) (o : Option UInt32) : Prop :=
  match v with
  | none => o = none
  | some s => ∃ minus n k, HasNumeral s minus n ∧ n < 2 ^ 64 ∧
      (UInt32.toNat k : ℤ) = signed minus n % 2 ^ 32 ∧ o = some k

/-- What `std::stoi(v)` makes of a leaf. -/
def ReadInt32 (v : Option String) (o : Option Int32) : Prop :=
  match v with
  | none => o = none
  | some s => ∃ minus n k, HasNumeral s minus n ∧ Int32.toInt k = signed minus n ∧ o = some k

theorem throws_readNumeral {α : Type} {r : Except Text.NumeralError α} {A B : Prop}
    (h : ∀ e, r = .error e ↔ (e = .invalidArgument ∧ A) ∨ (e = .outOfRange ∧ B)) :
    Throws (readNumeral r) [fun e => (e = .invalidArgument ∧ A) ∨ (e = .outOfRange ∧ B)] := by
  have hinvalid := h .invalidArgument
  have hrange := h .outOfRange
  refine throws_of_iff fun e => ?_
  cases r with
  | ok a => simp_all [readNumeral]
  | error e' =>
    cases e' with
    | invalidArgument =>
      simp only [true_and, reduceCtorEq, false_and, or_false, false_or, true_iff,
        Except.error.injEq, false_iff] at hinvalid hrange
      simp only [readNumeral, Except.error.injEq, hinvalid, hrange, and_true, and_false, or_false]
      exact eq_comm
    | outOfRange =>
      simp only [true_and, reduceCtorEq, false_and, or_false, false_or, true_iff,
        Except.error.injEq, false_iff] at hinvalid hrange
      simp only [readNumeral, Except.error.injEq, hinvalid, hrange, and_true, and_false, false_or]
      exact eq_comm

/-- A numeral that is there. -/
theorem throws_present {α β : Type} {read : String → Except Text.NumeralError α}
    {outOfRange : Bool → ℕ → Prop}
    (hread : ∀ s e, read s = .error e ↔ (e = .invalidArgument ∧ ∀ minus n, ¬ HasNumeral s minus n) ∨
      (e = .outOfRange ∧ ∃ minus n, HasNumeral s minus n ∧ outOfRange minus n))
    (store : α → β) (s : String) :
    Throws ((readNumeral (read s)).map store) [numeralCheck outOfRange (some s)] := by
  have h := (throws_readNumeral (hread s)).map store
  have hcheck : numeralCheck outOfRange (some s) = fun e =>
      (e = .invalidArgument ∧ ∀ minus n, ¬ HasNumeral s minus n) ∨
        (e = .outOfRange ∧ ∃ minus n, HasNumeral s minus n ∧ outOfRange minus n) := by
    funext e
    simp [numeralCheck]
  rwa [hcheck]

/-- A leaf that is not there passes. -/
theorem throws_absent {α : Type} (a : α) (outOfRange : Bool → ℕ → Prop) :
    Throws (.ok a : Except Thrown α) [numeralCheck outOfRange none] :=
  throws_of_iff fun e => ⟨fun h => (by cases h), fun ⟨s, hs, _⟩ => (by cases hs)⟩

theorem throws_readUInt32 (v : Option String) : Throws (readUInt32 v) [uint32Check v] := by
  cases v with
  | none => exact throws_absent none _
  | some s => exact throws_present (fun _ _ => Text.stoul_eq_error_iff) _ s

theorem throws_readInt32 (v : Option String) : Throws (readInt32 v) [int32Check v] := by
  cases v with
  | none => exact throws_absent none _
  | some s => exact throws_present (fun _ _ => Text.stoi_eq_error_iff) _ s

theorem map_readNumeral_eq_ok {α β : Type} {r : Except Text.NumeralError α} {store : α → β} {b : β}
    (h : (readNumeral r).map store = .ok b) : ∃ a, r = .ok a ∧ b = store a := by
  cases r with
  | ok a => exact ⟨a, rfl, (Except.ok.inj h).symm⟩
  | error e => cases e <;> cases h

theorem readUInt32_of_ok {v : Option String} {o : Option UInt32} (h : readUInt32 v = .ok o) :
    ReadUInt32 v o := by
  cases v with
  | none => exact (Except.ok.inj h).symm
  | some s =>
    obtain ⟨u, hu, rfl⟩ := map_readNumeral_eq_ok h
    obtain ⟨minus, n, hs, hn, hvalue⟩ := Text.stoul_eq_ok_iff.mp hu
    refine ⟨minus, n, u.toUInt32, hs, hn, ?_, rfl⟩
    rw [UInt64.toNat_toUInt32]
    omega

theorem readInt32_of_ok {v : Option String} {o : Option Int32} (h : readInt32 v = .ok o) :
    ReadInt32 v o := by
  cases v with
  | none => exact (Except.ok.inj h).symm
  | some s =>
    obtain ⟨k, hk, rfl⟩ := map_readNumeral_eq_ok h
    obtain ⟨minus, n, hs, hvalue⟩ := Text.stoi_eq_ok_iff.mp hk
    exact ⟨minus, n, k, hs, hvalue, rfl⟩

/-! ### Interfaces -/

/-- An interface has a name. -/
def nameCheck (ch : LydNode) : Check Thrown :=
  failIf ((childValue ch "name").getD "" = "") .yangDataError

/-- The text of the mtu in the container of an address family. -/
def familyMtu (ch : LydNode) (family : String) : Option String :=
  (findChild ch family).bind fun n => childValue n "mtu"

/-- The checks on an `interface` entry. -/
def interfaceChecks (ch : LydNode) : List (Check Thrown) :=
  [nameCheck ch, uint32Check (familyMtu ch "ipv4"), uint32Check (familyMtu ch "ipv6"),
    int32Check (childValue ch "if-index")]

/-- The checks below the `interfaces` node. -/
def interfacesChecks (ifs : LydNode) : List (Check Thrown) :=
  (childrenNamed ifs "interface").flatMap interfaceChecks

/-- A node that must be there. -/
def foundCheck (n : Option LydNode) : Check Thrown := failIf (n = none) .yangDataError

/-- **The checks `IetfInterfaces::deserialize` makes**, in their order. -/
def IetfInterfaces.checks (lyd_find_path : FindPath) (top : List LydNode)
    (tree : Option LydNode) : List (Check Thrown) :=
  let ifs := tree.bind (findInterfaces lyd_find_path top)
  foundCheck ifs :: ifs.toList.flatMap interfacesChecks

/-- The numbers of a decoded interface. The mtu of a container is lost with the container. -/
structure InterfaceNumbers (ch : LydNode) (i : IetfInterface) : Prop where
  ipv4_mtu : ∀ ip, i.ipv4 = some ip → ReadUInt32 (familyMtu ch "ipv4") ip.mtu
  ipv6_mtu : ∀ ip, i.ipv6 = some ip → ReadUInt32 (familyMtu ch "ipv6") ip.mtu
  if_index : ReadInt32 (childValue ch "if-index") i.if_index

theorem throws_readIp (ch : LydNode) (family : String) :
    Throws (readIp (findChild ch family)) [uint32Check (familyMtu ch family)] := by
  rw [familyMtu]
  cases findChild ch family with
  | none => exact throws_absent none _
  | some n => exact (throws_readUInt32 (childValue n "mtu")).bind_ok _

theorem throws_readInterface (ch : LydNode) : Throws (readInterface ch) (interfaceChecks ch) := by
  rw [readInterface, interfaceChecks, nameCheck]
  refine throws_ite Thrown.yangDataError fun _ => ?_
  exact (throws_readIp ch "ipv4").bind fun ipv4 _ => (throws_readIp ch "ipv6").bind fun ipv6 _ =>
    (throws_readInt32 (childValue ch "if-index")).bind_ok _

theorem throws_readInterfaces (ifs : LydNode) :
    Throws (readInterfaces ifs) (interfacesChecks ifs) :=
  (throws_mapM fun ch _ => throws_readInterface ch).map IetfInterfaces.mk

theorem throws_deserialize_interfaces (lyd_find_path : FindPath) (top : List LydNode)
    (tree : Option LydNode) : Throws (IetfInterfaces.deserialize lyd_find_path top tree)
      (IetfInterfaces.checks lyd_find_path top tree) := by
  rw [IetfInterfaces.deserialize_eq_elim]
  exact throws_elim .yangDataError fun ifs _ => throws_readInterfaces ifs

/-- A container that is kept has the mtu of its leaf. -/
theorem readIp_mtu {ch : LydNode} {family : String} {o : Option IetfIp}
    (h : readIp (findChild ch family) = .ok o) {ip : IetfIp} (hip : o = some ip) :
    ReadUInt32 (familyMtu ch family) ip.mtu := by
  rw [familyMtu]
  cases hn : findChild ch family with
  | none =>
    rw [hn] at h
    cases h
    cases hip
  | some n =>
    rw [hn] at h
    obtain ⟨mtu, hmtu, h⟩ := Traverse.bind_eq_ok_iff.mp h
    cases h
    split at hip
    · cases hip
    · cases hip
      exact readUInt32_of_ok hmtu

theorem readInterface_numbers {ch : LydNode} {i : IetfInterface} (h : readInterface ch = .ok i) :
    InterfaceNumbers ch i := by
  rw [readInterface] at h
  split at h
  · cases h
  · obtain ⟨ipv4, hipv4, h⟩ := Traverse.bind_eq_ok_iff.mp h
    obtain ⟨ipv6, hipv6, h⟩ := Traverse.bind_eq_ok_iff.mp h
    obtain ⟨if_index, hindex, h⟩ := Traverse.bind_eq_ok_iff.mp h
    cases h
    exact ⟨fun _ => readIp_mtu hipv4, fun _ => readIp_mtu hipv6, readInt32_of_ok hindex⟩

/-- **What `IetfInterfaces::deserialize` makes of any document**: it throws what the first check
that fails throws, and if none fails it returns, with the numbers that stand in the document. -/
theorem interfaces_outcome (lyd_find_path : FindPath) (top : List LydNode)
    (tree : Option LydNode) :
    (∀ e, IetfInterfaces.deserialize lyd_find_path top tree = .error e ↔
      First (IetfInterfaces.checks lyd_find_path top tree) e) ∧
    ((∃ m, IetfInterfaces.deserialize lyd_find_path top tree = .ok m) ↔
      ∀ c ∈ IetfInterfaces.checks lyd_find_path top tree, Passes c) ∧
    ∀ m, IetfInterfaces.deserialize lyd_find_path top tree = .ok m →
      ∃ ifs, tree.bind (findInterfaces lyd_find_path top) = some ifs ∧
        List.Forall₂ InterfaceNumbers (childrenNamed ifs "interface") m.ifs_ := by
  have hthrows := throws_deserialize_interfaces lyd_find_path top tree
  refine ⟨hthrows, hthrows.exists_ok_iff, fun m hm => ?_⟩
  rw [IetfInterfaces.deserialize] at hm
  split at hm
  · cases hm
  · rename_i ifs hifs
    refine ⟨ifs, hifs, ?_⟩
    rw [readInterfaces] at hm
    cases his : (childrenNamed ifs "interface").mapM readInterface with
    | error e =>
      rw [his] at hm
      cases hm
    | ok is =>
      rw [his] at hm
      cases hm
      exact (Traverse.mapM_eq_ok_iff.mp his).imp fun _ _ => readInterface_numbers

/-! ### Routing -/

/-- The checks on the routes of an entry. -/
def routesChecks (container : String) (entry : LydNode) : List (Check Thrown) :=
  (entries entry container "route").map fun r => uint32Check (childValue r "route-preference")

/-- The checks below the `routing` node. -/
def routingChecks (rt : LydNode) : List (Check Thrown) :=
  (entries rt "control-plane-protocols" "control-plane-protocol").flatMap
      (routesChecks "static-routes") ++
    (entries rt "ribs" "rib").flatMap (routesChecks "routes")

/-- **The checks `IetfRouting::deserialize` makes**, in their order: an `interfaces` container of
`ietf-interfaces` is read before the `routing` node is looked for. -/
def IetfRouting.checks (lyd_find_path : FindPath) (top : List LydNode)
    (tree : Option LydNode) : List (Check Thrown) :=
  foundCheck tree :: tree.toList.flatMap fun tree =>
    ((matched (lyd_find_path top "/ietf-interfaces:interfaces")).toList.flatMap fun ifs =>
      IetfInterfaces.checks lyd_find_path top (some ifs)) ++
    foundCheck (findRouting lyd_find_path top tree) ::
      (findRouting lyd_find_path top tree).toList.flatMap routingChecks

/-- The preferences of decoded routes. -/
def RouteNumbers (container : String) (entry : LydNode) (routes : List Route) : Prop :=
  List.Forall₂ (fun r route => ReadUInt32 (childValue r "route-preference") route.route_preference)
    (entries entry container "route") routes

/-- The numbers of a decoded model. -/
structure RoutingNumbers (rt : LydNode) (r : Routing) : Prop where
  protocols : List.Forall₂ (fun entry p => RouteNumbers "static-routes" entry p.static_routes)
    (entries rt "control-plane-protocols" "control-plane-protocol") r.control_plane_protocols
  ribs : List.Forall₂ (fun entry rib => RouteNumbers "routes" entry rib.routes)
    (entries rt "ribs" "rib") r.ribs

theorem throws_routes (container : String) (entry : LydNode) :
    Throws ((entries entry container "route").mapM readRoute) (routesChecks container entry) := by
  rw [routesChecks, List.map_eq_flatMap]
  exact throws_mapM fun r _ => (throws_readUInt32 (childValue r "route-preference")).bind_ok _

theorem throws_readRouting (ifs_model : IetfInterfaces) (rt : LydNode) :
    Throws (readRouting ifs_model rt) (routingChecks rt) := by
  have hprotocols := throws_mapM (f := readControlPlaneProtocol) fun entry
    (_ : entry ∈ entries rt "control-plane-protocols" "control-plane-protocol") =>
      (throws_routes "static-routes" entry).bind_ok _
  have hribs := throws_mapM (f := readRib) fun entry (_ : entry ∈ entries rt "ribs" "rib") =>
    (throws_routes "routes" entry).bind_ok _
  exact hprotocols.bind fun _ _ => hribs.bind_ok _

theorem throws_readInterfacesInfo (lyd_find_path : FindPath) (top : List LydNode) :
    Throws (readInterfacesInfo lyd_find_path top)
      ((matched (lyd_find_path top "/ietf-interfaces:interfaces")).toList.flatMap fun ifs =>
        IetfInterfaces.checks lyd_find_path top (some ifs)) := by
  rw [readInterfacesInfo]
  cases matched (lyd_find_path top "/ietf-interfaces:interfaces") with
  | none => exact throws_ok _
  | some ifs =>
    have h := throws_deserialize_interfaces lyd_find_path top (some ifs)
    simpa using h

theorem throws_deserialize_routing (lyd_find_path : FindPath) (top : List LydNode)
    (tree : Option LydNode) : Throws (IetfRouting.deserialize lyd_find_path top tree)
      (IetfRouting.checks lyd_find_path top tree) := by
  rw [IetfRouting.deserialize_eq_elim]
  refine throws_elim Thrown.yangDataError fun tree _ => ?_
  refine (throws_readInterfacesInfo lyd_find_path top).bind fun ifs_model _ => ?_
  exact throws_elim Thrown.yangDataError fun rt _ => throws_readRouting ifs_model rt

theorem routes_numbers {container : String} {entry : LydNode} {routes : List Route}
    (h : (entries entry container "route").mapM readRoute = .ok routes) :
    RouteNumbers container entry routes := by
  refine (Traverse.mapM_eq_ok_iff.mp h).imp fun r route hroute => ?_
  obtain ⟨route_preference, hread, hroute⟩ := Traverse.bind_eq_ok_iff.mp hroute
  cases hroute
  exact readUInt32_of_ok hread

theorem readRouting_numbers {ifs_model : IetfInterfaces} {rt : LydNode} {m : IetfRouting}
    (h : readRouting ifs_model rt = .ok m) : RoutingNumbers rt m.routing_ := by
  obtain ⟨cpps, hcpps, h⟩ := Traverse.bind_eq_ok_iff.mp h
  obtain ⟨ribs, hribs, h⟩ := Traverse.bind_eq_ok_iff.mp h
  cases h
  constructor
  · refine (Traverse.mapM_eq_ok_iff.mp hcpps).imp fun entry p hp => ?_
    obtain ⟨static_routes, hroutes, hp⟩ := Traverse.bind_eq_ok_iff.mp hp
    cases hp
    exact routes_numbers hroutes
  · refine (Traverse.mapM_eq_ok_iff.mp hribs).imp fun entry rib hrib => ?_
    obtain ⟨routes, hroutes, hrib⟩ := Traverse.bind_eq_ok_iff.mp hrib
    cases hrib
    exact routes_numbers hroutes

/-- **What `IetfRouting::deserialize` makes of any document**: it throws what the first check that
fails throws, and if none fails it returns, with the preferences that stand in the document. -/
theorem routing_outcome (lyd_find_path : FindPath) (top : List LydNode) (tree : Option LydNode) :
    (∀ e, IetfRouting.deserialize lyd_find_path top tree = .error e ↔
      First (IetfRouting.checks lyd_find_path top tree) e) ∧
    ((∃ m, IetfRouting.deserialize lyd_find_path top tree = .ok m) ↔
      ∀ c ∈ IetfRouting.checks lyd_find_path top tree, Passes c) ∧
    ∀ m, IetfRouting.deserialize lyd_find_path top tree = .ok m →
      ∃ rt, tree.bind (findRouting lyd_find_path top) = some rt ∧
        RoutingNumbers rt m.routing_ := by
  have hthrows := throws_deserialize_routing lyd_find_path top tree
  refine ⟨hthrows, hthrows.exists_ok_iff, fun m hm => ?_⟩
  cases tree with
  | none => cases hm
  | some tree =>
    obtain ⟨ifs_model, -, hm⟩ := Traverse.bind_eq_ok_iff.mp hm
    rw [Option.bind_some]
    split at hm
    · cases hm
    · rename_i rt hrt
      exact ⟨rt, hrt, readRouting_numbers hm⟩

end StelleriYang

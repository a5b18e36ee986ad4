import StelleriYang.IanaIfType
import StelleriYang.Lib.Text
import StelleriYang.Libyang

/-!
# The `ietf-interfaces` model

The C++ classes of `IetfInterfaces.hpp` and the two functions of `IetfInterfaces.cpp`: `serialize`
writes a model into a data tree by a sequence of `lyd_new_path` calls, `deserialize` reads a model
out of a data tree.

## What is left out

The fields of an interface that neither function touches: `link_up_down_trap_enable`, `speed`, and
the counters of `IetfInterfaceStatistics`.

## One address family

`IetfIpv4` and `IetfIpv6` have the same fields, and the code for the one is a copy of the code for
the other. Both are `IetfIp` here and the code takes the name of the container as an argument.

## Main definitions

* `IetfInterface`, `IetfInterfaces`
* `IetfInterfaces.serialize`, `IetfInterfaces.deserialize`
* `interfaceCalls` — the calls `serialize` makes for one interface
* `IetfInterfaces.NulFree` — the models whose texts reach libyang whole

## Main results

* `IetfInterfaces.serialize_eq` — `serialize` is the call for the root and then `interfaceCalls`
* `wholeCall_interfaceCalls` — what the calls for a `NulFree` model hold
-/

namespace StelleriYang

open LydNode (named findChild childrenNamed childValue)

/-! ### Data -/

/-- `IetfIpv4` and `IetfIpv6`: the addresses, each `ip` or `ip/prefix`, and the container-level
mtu. -/
structure IetfIp where
  address : List String := []
  mtu : Option UInt32 := none
  deriving DecidableEq, Repr

abbrev IetfIpv4 := IetfIp
abbrev IetfIpv6 := IetfIp

/-- `IetfInterfaceStatistics`. -/
structure IetfInterfaceStatistics where
  discontinuity_time : Option String := none
  deriving DecidableEq, Repr

/-- `IetfInterface`. -/
structure IetfInterface where
  name : String
  description : Option String := none
  type : Option IanaIfType := none
  enabled : Bool := true
  admin_status : Option String := none
  oper_status : Option String := none
  last_change : Option String := none
  if_index : Option Int32 := none
  phys_address : Option String := none
  higher_layer_if : List String := []
  lower_layer_if : List String := []
  statistics : Option IetfInterfaceStatistics := none
  ipv4 : Option IetfIpv4 := none
  ipv6 : Option IetfIpv6 := none
  deriving DecidableEq, Repr

/-- `IetfInterfaces`. -/
structure IetfInterfaces where
  ifs_ : List IetfInterface := []
  deriving DecidableEq, Repr

def IetfInterfaces.addInterface (m : IetfInterfaces) (i : IetfInterface) : IetfInterfaces :=
  ⟨m.ifs_ ++ [i]⟩

/-! ### Serialization -/

/-- The path of a leaf of an interface. -/
def interfacePath (name leaf : String) : String := "interface[name='" ++ name ++ "']/" ++ leaf

/-- The path of an address: `base` in the source. -/
def addressBase (name family ip_only : String) : String :=
  "interface[name='" ++ name ++ "']/ip:" ++ family ++ "/ip:address[ip='" ++ ip_only ++ "']"

/-- The path of the mtu of an address family. -/
def mtuPath (name family : String) : String :=
  "interface[name='" ++ name ++ "']/ip:" ++ family ++ "/mtu"

/-- `ip_only` and `prefix` of an address: the text before and after the first slash. -/
def splitAddress (ipstr : String) : String × String :=
  match Text.splitFirst '/' ipstr with
  | some (ip_only, len) => (ip_only, len)
  | none => (ipstr, "")

section Serialize

variable {T : Type} (lyd_new_path : NewPath T)

def writeAddress (name family : String) (root : Option T) (addr : String) : Option T :=
  let (ip_only, len) := splitAddress addr
  let base := addressBase name family ip_only
  let root := put lyd_new_path root (base ++ "/ip:ip") ip_only
  if len = "" then root else put lyd_new_path root (base ++ "/ip:prefix-length") len

def writeIp (name family : String) (root : Option T) (ip : IetfIp) : Option T :=
  let root := ip.address.foldl (writeAddress lyd_new_path name family) root
  match ip.mtu with
  | some mtu => put lyd_new_path root (mtuPath name family) mtu.toNat.repr
  | none => root

/-- The body of the loop over the interfaces. -/
def writeInterface (root : Option T) (it : IetfInterface) : Option T :=
  let root := put lyd_new_path root (interfacePath it.name "name") it.name
  let root :=
    match it.description with
    | some d => put lyd_new_path root (interfacePath it.name "description") d
    | none => root
  let root :=
    if it.enabled then root else put lyd_new_path root (interfacePath it.name "enabled") "false"
  let root :=
    match it.type with
    | some t =>
      put lyd_new_path root (interfacePath it.name "type") ("ianaift:" ++ ianaIfTypeToString t)
    | none => root
  let root :=
    match it.ipv4 with
    | some ip => writeIp lyd_new_path it.name "ipv4" root ip
    | none => root
  match it.ipv6 with
  | some ip => writeIp lyd_new_path it.name "ipv6" root ip
  | none => root

/-- `IetfInterfaces::serialize`. -/
def IetfInterfaces.serialize (m : IetfInterfaces) : Except Thrown (Option T) :=
  match lyd_new_path none "/ietf-interfaces:interfaces" none with
  | (.LY_SUCCESS, some root) => .ok (m.ifs_.foldl (writeInterface lyd_new_path) (some root))
  | _ => .error .yangDataError

end Serialize

/-! The calls, apart from what they do. -/

def addressCalls (name family addr : String) : List (String × String) :=
  let (ip_only, len) := splitAddress addr
  (addressBase name family ip_only ++ "/ip:ip", ip_only) ::
    if len = "" then [] else [(addressBase name family ip_only ++ "/ip:prefix-length", len)]

def ipCalls (name family : String) (ip : IetfIp) : List (String × String) :=
  ip.address.flatMap (addressCalls name family) ++
    ip.mtu.toList.map fun mtu => (mtuPath name family, mtu.toNat.repr)

/-- The calls for one interface. -/
def interfaceCalls (it : IetfInterface) : List (String × String) :=
  (interfacePath it.name "name", it.name) ::
    ((it.description.toList.map fun d => (interfacePath it.name "description", d)) ++
      (if it.enabled then [] else [(interfacePath it.name "enabled", "false")]) ++
      (it.type.toList.map fun t =>
        (interfacePath it.name "type", "ianaift:" ++ ianaIfTypeToString t)) ++
      it.ipv4.toList.flatMap (ipCalls it.name "ipv4") ++
      it.ipv6.toList.flatMap (ipCalls it.name "ipv6"))

section Calls

variable {T : Type} {lyd_new_path : NewPath T}

theorem writeAddress_eq (name family : String) (root : Option T) (addr : String) :
    writeAddress lyd_new_path name family root addr =
      callAll lyd_new_path root (addressCalls name family addr) := by
  simp only [writeAddress, addressCalls, callAll, List.foldl_cons]
  split <;> simp

theorem foldl_callAll {α : Type} (write : Option T → α → Option T)
    (calls : α → List (String × String))
    (h : ∀ root a, write root a = callAll lyd_new_path root (calls a)) :
    ∀ (as : List α) (root : Option T),
      as.foldl write root = callAll lyd_new_path root (as.flatMap calls) := by
  intro as
  induction as with
  | nil => intro root; rfl
  | cons a as ih =>
    intro root
    rw [List.foldl_cons, h, ih, List.flatMap_cons, callAll_append]

theorem writeIp_eq (name family : String) (root : Option T) (ip : IetfIp) :
    writeIp lyd_new_path name family root ip =
      callAll lyd_new_path root (ipCalls name family ip) := by
  rw [ipCalls, callAll_append, ← foldl_callAll _ _ (writeAddress_eq name family)]
  cases h : ip.mtu <;> simp [writeIp, callAll, h]

theorem writeInterface_eq (root : Option T) (it : IetfInterface) :
    writeInterface lyd_new_path root it = callAll lyd_new_path root (interfaceCalls it) := by
  have hcons : ∀ (c : String × String) cs, callAll lyd_new_path root (c :: cs) =
      callAll lyd_new_path (put lyd_new_path root c.1 c.2) cs := fun _ _ => rfl
  rw [interfaceCalls, hcons, callAll_append, callAll_append, callAll_append, callAll_append]
  simp only [writeInterface, writeIp_eq]
  cases it.description <;> cases it.enabled <;> cases it.type <;> cases it.ipv4 <;>
    cases it.ipv6 <;> simp [callAll]

/-- **`serialize` is the call for the root, and then the calls for the interfaces.** -/
theorem IetfInterfaces.serialize_eq (m : IetfInterfaces) {root : T}
    (h : lyd_new_path none "/ietf-interfaces:interfaces" none = (.LY_SUCCESS, some root)) :
    m.serialize lyd_new_path =
      .ok (callAll lyd_new_path (some root) (m.ifs_.flatMap interfaceCalls)) := by
  rw [serialize, h]
  simp only [foldl_callAll _ _ writeInterface_eq]

end Calls

/-! ### Texts

Every text the encoder hands over is put together from these, numbers, names of types and what the
source spells out. -/

/-- The texts of an interface that are written. -/
def IetfInterface.texts (it : IetfInterface) : List String :=
  it.name :: (it.description.toList ++
    (it.ipv4.toList.flatMap IetfIp.address ++ it.ipv6.toList.flatMap IetfIp.address))

/-- No text that is written holds a NUL, so all of them reach libyang whole. -/
def IetfInterface.NulFree (it : IetfInterface) : Prop := ∀ s ∈ it.texts, Text.NulFree s

def IetfInterfaces.NulFree (m : IetfInterfaces) : Prop := ∀ it ∈ m.ifs_, it.NulFree

instance (it : IetfInterface) : Decidable it.NulFree :=
  inferInstanceAs (Decidable (∀ s ∈ it.texts, Text.NulFree s))

instance (m : IetfInterfaces) : Decidable m.NulFree :=
  inferInstanceAs (Decidable (∀ it ∈ m.ifs_, it.NulFree))

theorem nulFree_ianaIfTypeToString (t : IanaIfType) : Text.NulFree (ianaIfTypeToString t) := by
  have hbytes : (ianaIfTypeTable.all fun p => !p.1.toByteArray.data.toList.contains 0) = true := by
    decide +kernel
  by_cases h : t = .unknown
  · subst h
    decide
  · exact Text.nulFree_of_bytes
      (by simpa using List.all_eq_true.mp hbytes _ (mem_ianaIfTypeTable h))

theorem nulFree_splitAddress {addr : String} (h : Text.NulFree addr) :
    Text.NulFree (splitAddress addr).1 ∧ Text.NulFree (splitAddress addr).2 := by
  rw [splitAddress]
  cases hs : Text.splitFirst '/' addr with
  | none => exact ⟨h, (by decide : Text.NulFree "")⟩
  | some p => exact h.splitFirst hs

theorem nulFree_interfacePath {name leaf : String} (hname : Text.NulFree name)
    (hleaf : Text.NulFree leaf) : Text.NulFree (interfacePath name leaf) := by
  delta interfacePath
  exact (((by decide : Text.NulFree "interface[name='").append hname).append
    (by decide : Text.NulFree "']/")).append hleaf

theorem wholeCall_ipCalls {name family : String} (hname : Text.NulFree name)
    (hfamily : Text.NulFree family) {ip : IetfIp} (hip : ∀ a ∈ ip.address, Text.NulFree a) :
    ∀ c ∈ ipCalls name family ip, WholeCall c := by
  have hcontainer : Text.NulFree ("interface[name='" ++ name ++ "']/ip:" ++ family) :=
    (((by decide : Text.NulFree "interface[name='").append hname).append
      (by decide : Text.NulFree "']/ip:")).append hfamily
  have hbase : ∀ {ip_only suffix : String}, Text.NulFree ip_only → Text.NulFree suffix →
      Text.NulFree (addressBase name family ip_only ++ suffix) := by
    intro ip_only suffix hip_only hsuffix
    delta addressBase
    exact (((hcontainer.append (by decide : Text.NulFree "/ip:address[ip='")).append
      hip_only).append (by decide : Text.NulFree "']")).append hsuffix
  intro c hc
  rcases List.mem_append.mp hc with hc | hc
  · obtain ⟨a, ha, hc⟩ := List.mem_flatMap.mp hc
    obtain ⟨hip_only, hlen⟩ := nulFree_splitAddress (hip a ha)
    simp only [addressCalls, List.mem_cons] at hc
    rcases hc with rfl | hc
    · exact ⟨hbase hip_only (by decide), hip_only⟩
    · split at hc
      · cases hc
      · obtain rfl := List.mem_singleton.mp hc
        exact ⟨hbase hip_only (by decide), hlen⟩
  · obtain ⟨mtu, -, rfl⟩ := List.mem_map.mp hc
    refine ⟨?_, Text.nulFree_repr _⟩
    delta mtuPath
    exact hcontainer.append (by decide : Text.NulFree "/mtu")

/-- **The calls for an interface without NULs** reach libyang as they are. -/
theorem wholeCall_interfaceCalls {it : IetfInterface} (h : it.NulFree) :
    ∀ c ∈ interfaceCalls it, WholeCall c := by
  have hname : Text.NulFree it.name := h it.name List.mem_cons_self
  have hip : ∀ (ip : Option IetfIp) {a : String}, (a ∈ ip.toList.flatMap IetfIp.address →
      a ∈ it.texts) → ∀ ip' ∈ ip, a ∈ ip'.address → Text.NulFree a :=
    fun _ _ hmem ip' hip' ha =>
      h _ (hmem (List.mem_flatMap.mpr ⟨ip', Option.mem_toList.mpr hip', ha⟩))
  intro c hc
  simp only [interfaceCalls, List.mem_cons, List.mem_append, List.mem_map, List.mem_flatMap,
    Option.mem_toList] at hc
  rcases hc with rfl | ((((⟨d, hd, rfl⟩ | hc) | ⟨t, -, rfl⟩) | ⟨ip, hmem, hc⟩) | ⟨ip, hmem, hc⟩)
  · exact ⟨nulFree_interfacePath hname (by decide), hname⟩
  · exact ⟨nulFree_interfacePath hname (by decide),
      h d (by simp [IetfInterface.texts, Option.mem_def.mp hd])⟩
  · split at hc
    · cases hc
    · obtain rfl := List.mem_singleton.mp hc
      exact ⟨nulFree_interfacePath hname (by decide), (by decide : Text.NulFree "false")⟩
  · exact ⟨nulFree_interfacePath hname (by decide),
      (by decide : Text.NulFree "ianaift:").append (nulFree_ianaIfTypeToString t)⟩
  · exact wholeCall_ipCalls hname (by decide)
      (fun a ha => hip it.ipv4 (by simp +contextual [IetfInterface.texts]) ip hmem ha) c hc
  · exact wholeCall_ipCalls hname (by decide)
      (fun a ha => hip it.ipv6 (by simp +contextual [IetfInterface.texts]) ip hmem ha) c hc

/-- The same for all interfaces of a model. -/
theorem IetfInterfaces.NulFree.wholeCall {m : IetfInterfaces} (h : m.NulFree) :
    ∀ c ∈ m.ifs_.flatMap interfaceCalls, WholeCall c := by
  intro c hc
  obtain ⟨it, hit, hc⟩ := List.mem_flatMap.mp hc
  exact wholeCall_interfaceCalls (h it hit) c hc

/-! ### Deserialization -/

/-- `regex_replace(sv, ns_prefix, "")` for `^[^:]+:`: what stands before the first colon is
dropped with it, unless nothing stands there. -/
def stripNsPrefix (sv : String) : String :=
  match Text.splitFirst ':' sv with
  | some (a, b) => if a = "" then sv else b
  | none => sv

/-- `+00:00` at the end becomes `Z`. -/
def normalizeUtc (dt : String) : String :=
  let cs := dt.toList
  if 6 ≤ cs.length ∧ cs.drop (cs.length - 6) = "+00:00".toList then
    String.ofList (cs.take (cs.length - 6)) ++ "Z"
  else dt

/-- A numeral reader throws the exceptions of the standard library. -/
def readNumeral {α : Type} : Except Text.NumeralError α → Except Thrown α
  | .ok a => .ok a
  | .error .invalidArgument => .error .invalidArgument
  | .error .outOfRange => .error .outOfRange

/-- `static_cast<uint32_t>(std::stoul(v))` on the value of a leaf, if there is one. -/
def readUInt32 : Option String → Except Thrown (Option UInt32)
  | none => .ok none
  | some v => (readNumeral (Text.stoul v)).map fun n => some n.toUInt32

theorem readUInt32_of_isNumeral {v : String} {k : UInt32} (h : Text.IsNumeral v k.toNat) :
    readUInt32 (some v) = .ok (some k) := by
  have hread := Text.stoul_toUInt32 h
  rw [readUInt32]
  cases hs : Text.stoul v with
  | error e => rw [hs] at hread; cases hread
  | ok u =>
    rw [hs] at hread
    cases hread
    rfl

theorem readUInt32_repr (k : UInt32) : readUInt32 (some k.toNat.repr) = .ok (some k) :=
  readUInt32_of_isNumeral (Text.isNumeral_repr k.toNat)

/-- `std::stoi(v)` on the value of a leaf, if there is one. -/
def readInt32 : Option String → Except Thrown (Option Int32)
  | none => .ok none
  | some v => (readNumeral (Text.stoi v)).map some

theorem readInt32_of_isSignedNumeral {v : String} {k : Int32}
    (h : Text.IsSignedNumeral v k.toInt) : readInt32 (some v) = .ok (some k) := by
  rw [readInt32, Text.stoi_of_isSignedNumeral h]
  rfl

/-- An `address` entry: skipped if it has no `ip`. -/
def readAddress (addr : LydNode) : Option String :=
  (childValue addr "ip").map fun ip =>
    match childValue addr "prefix-length" with
    | some v => ip ++ "/" ++ v
    | none => ip

/-- The container of an address family, if there is one: kept if it has an address. -/
def readIp : Option LydNode → Except Thrown (Option IetfIp)
  | none => .ok none
  | some n => do
    let mtu ← readUInt32 (childValue n "mtu")
    let address := (childrenNamed n "address").filterMap readAddress
    .ok (if address = [] then none else some { address, mtu })

/-- The body of the loop over the interfaces. -/
def readInterface (ch : LydNode) : Except Thrown IetfInterface :=
  let name := (childValue ch "name").getD ""
  if name = "" then .error .yangDataError
  else do
    let ipv4 ← readIp (findChild ch "ipv4")
    let ipv6 ← readIp (findChild ch "ipv6")
    let if_index ← readInt32 (childValue ch "if-index")
    .ok {
      name
      description := childValue ch "description"
      type := (childValue ch "type").map fun v => ianaIfTypeFromString (stripNsPrefix v)
      enabled := (childValue ch "enabled").all fun v => !(v == "false" || v == "0")
      admin_status := childValue ch "admin-status"
      oper_status := childValue ch "oper-status"
      last_change := childValue ch "last-change"
      if_index
      phys_address := childValue ch "phys-address"
      higher_layer_if := (childrenNamed ch "higher-layer-if").filterMap DataTree.Tree.value
      lower_layer_if := (childrenNamed ch "lower-layer-if").filterMap DataTree.Tree.value
      statistics :=
        ((findChild ch "statistics").bind fun n => childValue n "discontinuity-time").map
          fun dt => { discontinuity_time := some (normalizeUtc dt) }
      ipv4
      ipv6 }

/-- The loop over the children of the `interfaces` node. -/
def readInterfaces (ifs : LydNode) : Except Thrown IetfInterfaces :=
  ((childrenNamed ifs "interface").mapM readInterface).map IetfInterfaces.mk

/-- The `interfaces` node: the entry node if that is its name, or the one at the top. -/
def findInterfaces (lyd_find_path : FindPath) (top : List LydNode) (tree : LydNode) :
    Option LydNode :=
  if named "interfaces" tree then some tree
  else matched (lyd_find_path top "/ietf-interfaces:interfaces")

/-- `IetfInterfaces::deserialize`: `top` are the siblings of the entry node `tree`. -/
def IetfInterfaces.deserialize (lyd_find_path : FindPath) (top : List LydNode)
    (tree : Option LydNode) : Except Thrown IetfInterfaces :=
  match tree.bind (findInterfaces lyd_find_path top) with
  | none => .error .yangDataError
  | some ifs => readInterfaces ifs

theorem IetfInterfaces.deserialize_eq_elim (lyd_find_path : FindPath) (top : List LydNode)
    (tree : Option LydNode) : IetfInterfaces.deserialize lyd_find_path top tree =
      (tree.bind (findInterfaces lyd_find_path top)).elim (.error .yangDataError)
        readInterfaces := by
  rw [IetfInterfaces.deserialize]
  cases tree.bind (findInterfaces lyd_find_path top) <;> rfl

end StelleriYang

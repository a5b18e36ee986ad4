import StelleriYang.InterfacesMerge

/-!
# The entries of an interfaces container

What `IetfInterfaces.deserialize` reads of every interface, each from its own subtree, and what it
makes of the containers of the two address families.

## Main definitions

* `AddressOf`, `InterfaceOf` — what a node says about the value or record that is read from it
* `Unnamed`, `NumeralsInRange` — entries that are turned down, and numerals that are not
* `Family`, `KeepsIp` — a container of `ietf-ip` is read completely

## Main results

* `deserialize_complete` — which trees are accepted, and that every entry of one is read
* `keepsIp_iff` — an mtu without an address is lost, and nothing else
-/

namespace StelleriYang

open LydNode (named findChild childrenNamed childValue)
open Text (IsNumeral IsSignedNumeral)

/-! ### What an entry says -/

/-- An address: the prefix length is appended if this address has one. -/
def AddressOf (addr : LydNode) (a : String) : Prop :=
  ∃ ip, childValue addr "ip" = some ip ∧
    ((childValue addr "prefix-length" = none ∧ a = ip) ∨
      ∃ len, childValue addr "prefix-length" = some len ∧ a = ip ++ "/" ++ len)

/-- The `address` entries of a container that have an `ip`. -/
def addressEntries (n : LydNode) : List LydNode :=
  (childrenNamed n "address").filter fun addr => (childValue addr "ip").isSome

/-- The addresses of a member that may be absent. -/
def addresses : Option IetfIp → List String
  | none => []
  | some ip => ip.address

/-- The number a leaf stands for, if there is one. -/
abbrev NumberOf (v : Option String) (k : Option UInt32) : Prop :=
  Option.Rel (fun v (k : UInt32) => IsNumeral v k.toNat) v k

/-- The container of an address family, and the member. -/
structure IpOf (n : Option LydNode) (ip : Option IetfIp) : Prop where
  addresses : List.Forall₂ AddressOf ((n.map addressEntries).getD []) (addresses ip)
  mtu : ∀ ip', ip = some ip' → NumberOf (n.bind fun n => childValue n "mtu") ip'.mtu

/-- An interface: every member is read from the first child of its name, or from all of them. -/
structure InterfaceOf (ch : LydNode) (i : IetfInterface) : Prop where
  name : childValue ch "name" = some i.name
  description : i.description = childValue ch "description"
  type : i.type = (childValue ch "type").map fun v => ianaIfTypeFromString (stripNsPrefix v)
  enabled : i.enabled = false ↔
    childValue ch "enabled" = some "false" ∨ childValue ch "enabled" = some "0"
  admin_status : i.admin_status = childValue ch "admin-status"
  oper_status : i.oper_status = childValue ch "oper-status"
  last_change : i.last_change = childValue ch "last-change"
  if_index : Option.Rel (fun v (k : Int32) => IsSignedNumeral v k.toInt)
    (childValue ch "if-index") i.if_index
  phys_address : i.phys_address = childValue ch "phys-address"
  higher_layer_if :
    i.higher_layer_if = (childrenNamed ch "higher-layer-if").filterMap DataTree.Tree.value
  lower_layer_if :
    i.lower_layer_if = (childrenNamed ch "lower-layer-if").filterMap DataTree.Tree.value
  statistics : i.statistics =
    ((findChild ch "statistics").bind fun n => childValue n "discontinuity-time").map
      fun dt => { discontinuity_time := some (normalizeUtc dt) }
  ipv4 : IpOf (findChild ch "ipv4") i.ipv4
  ipv6 : IpOf (findChild ch "ipv6") i.ipv6

/-- No name, or an empty one. -/
def Unnamed (ch : LydNode) : Prop := ∀ v, childValue ch "name" = some v → v = ""

/-- The value of the `mtu` of a container is a numeral of a `uint32`. -/
def MtuInRange (n : LydNode) : Prop :=
  ∀ v, childValue n "mtu" = some v → ∃ k : UInt32, IsNumeral v k.toNat

/-- The numerals of an entry are in range. -/
structure NumeralsInRange (ch : LydNode) : Prop where
  ipv4 : ∀ n, findChild ch "ipv4" = some n → MtuInRange n
  ipv6 : ∀ n, findChild ch "ipv6" = some n → MtuInRange n
  if_index : ∀ v, childValue ch "if-index" = some v → ∃ k : Int32, IsSignedNumeral v k.toInt

/-! ### Reading -/

theorem forall₂_readAddress (addrs : List LydNode) :
    List.Forall₂ AddressOf (addrs.filter fun addr => (childValue addr "ip").isSome)
      (addrs.filterMap readAddress) := by
  induction addrs with
  | nil => exact .nil
  | cons addr addrs ih =>
    cases hip : childValue addr "ip" with
    | none =>
      rw [List.filter_cons_of_neg (by simp [hip]),
        List.filterMap_cons_none (by rw [readAddress, hip]; rfl)]
      exact ih
    | some ip =>
      rw [List.filter_cons_of_pos (by simp [hip])]
      cases hlen : childValue addr "prefix-length" with
      | none =>
        rw [List.filterMap_cons_some (b := ip) (by rw [readAddress, hip, hlen]; rfl)]
        exact .cons ⟨ip, hip, .inl ⟨hlen, rfl⟩⟩ ih
      | some len =>
        rw [List.filterMap_cons_some (b := ip ++ "/" ++ len) (by rw [readAddress, hip, hlen]; rfl)]
        exact .cons ⟨ip, hip, .inr ⟨len, hlen, rfl⟩⟩ ih

/-- The `mtu` of a container. -/
theorem readMtu {n : LydNode} (h : MtuInRange n) :
    ∃ mtu, readUInt32 (childValue n "mtu") = .ok mtu ∧ NumberOf (childValue n "mtu") mtu := by
  cases hv : childValue n "mtu" with
  | none => exact ⟨none, rfl, .none⟩
  | some v =>
    obtain ⟨k, hk⟩ := h v hv
    exact ⟨some k, readUInt32_of_isNumeral hk, .some hk⟩

/-- A container whose mtu is in range is read; the member is set if there is an address. -/
theorem readIp_some {n : LydNode} (h : MtuInRange n) :
    ∃ address mtu, readIp (some n) =
        .ok (if addressEntries n = [] then none else some { address, mtu }) ∧
      List.Forall₂ AddressOf (addressEntries n) address ∧ NumberOf (childValue n "mtu") mtu := by
  obtain ⟨mtu, hread, hmtu⟩ := readMtu h
  have haddr := forall₂_readAddress (childrenNamed n "address")
  refine ⟨_, mtu, ?_, haddr, hmtu⟩
  have hnil : (childrenNamed n "address").filterMap readAddress = [] ↔ addressEntries n = [] := by
    rw [← List.length_eq_zero_iff, ← List.length_eq_zero_iff, addressEntries, haddr.length_eq]
  rw [readIp, hread]
  simp only [hnil]
  rfl

theorem readIp_complete {n : Option LydNode} (h : ∀ n', n = some n' → MtuInRange n') :
    ∃ ip, readIp n = .ok ip ∧ IpOf n ip := by
  cases n with
  | none => exact ⟨none, rfl, .nil, fun ip' h => by cases h⟩
  | some n =>
    obtain ⟨address, mtu, hread, haddr, hmtu⟩ := readIp_some (h n rfl)
    refine ⟨_, hread, ?_, fun ip' hip => ?_⟩
    · split
      · rename_i hnil
        rw [Option.map_some, Option.getD_some, hnil]
        exact .nil
      · exact haddr
    · split at hip
      · cases hip
      · cases hip
        exact hmtu

theorem readInterface_of_unnamed {ch : LydNode} (h : Unnamed ch) :
    readInterface ch = .error .yangDataError := by
  have hname : (childValue ch "name").getD "" = "" := by
    cases hv : childValue ch "name" with
    | none => rfl
    | some v => exact h v hv
  rw [readInterface_eq, if_pos hname]

/-- **An entry with a name is read from its own subtree.** -/
theorem readInterface_complete {ch : LydNode} (hname : ¬ Unnamed ch) (h : NumeralsInRange ch) :
    ∃ i, readInterface ch = .ok i ∧ InterfaceOf ch i := by
  obtain ⟨name, hv, hne⟩ : ∃ name, childValue ch "name" = some name ∧ name ≠ "" := by
    by_contra hno
    exact hname fun v hv => by_contra fun hne => hno ⟨v, hv, hne⟩
  obtain ⟨ipv4, hread4, hipv4⟩ := readIp_complete h.ipv4
  obtain ⟨ipv6, hread6, hipv6⟩ := readIp_complete h.ipv6
  obtain ⟨if_index, hreadIndex, hindex⟩ : ∃ k, readOptional Text.stoi (childValue ch "if-index") =
      .ok k ∧ Option.Rel (fun v (k : Int32) => IsSignedNumeral v k.toInt)
        (childValue ch "if-index") k := by
    rw [← readInt32_eq]
    cases hindex : childValue ch "if-index" with
    | none => exact ⟨none, rfl, .none⟩
    | some v =>
      obtain ⟨k, hk⟩ := h.if_index v hindex
      exact ⟨some k, readInt32_of_isSignedNumeral hk, .some hk⟩
  refine ⟨interfaceFields ch ipv4 ipv6 if_index, ?_, ?_⟩
  · rw [readInterface_eq, hv, Option.getD_some, if_neg hne, hread4, hread6, hreadIndex]
    rfl
  · refine ⟨by rw [interfaceFields, hv]; rfl, rfl, rfl, ?_, rfl, rfl, rfl, hindex, rfl, rfl, rfl,
      rfl, hipv4, hipv6⟩
    rw [interfaceFields]
    cases childValue ch "enabled" with
    | none => simp
    | some v => simp [or_iff_not_imp_left]

theorem deserializeLoop_of_find {lyd_find_path : FindPath} {top : List LydNode} {tree ifs : LydNode}
    (hifs : findInterfaces lyd_find_path top tree = some ifs) :
    IetfInterfaces.deserializeLoop lyd_find_path top (some tree) =
      ((childrenNamed ifs "interface").mapM readInterface).map IetfInterfaces.mk := by
  rw [IetfInterfaces.deserializeLoop_eq]
  simp only [IetfInterfaces.deserialize, Option.bind_some, hifs, readInterfaces]

/-- An entry of a tree that is accepted, and the interface that is read from it. -/
theorem readInterface_of_mem_zip {lyd_find_path : FindPath} {top : List LydNode}
    {tree ifs : LydNode} {m : IetfInterfaces}
    (hifs : findInterfaces lyd_find_path top tree = some ifs)
    (hok : IetfInterfaces.deserializeLoop lyd_find_path top (some tree) = .ok m)
    {ch : LydNode} {i : IetfInterface}
    (hi : (ch, i) ∈ (childrenNamed ifs "interface").zip m.ifs_) : readInterface ch = .ok i := by
  rw [deserializeLoop_of_find hifs] at hok
  cases his : (childrenNamed ifs "interface").mapM readInterface with
  | error e =>
    rw [his] at hok
    cases hok
  | ok is =>
    rw [his] at hok
    cases hok
    exact List.forall₂_zip (Traverse.mapM_eq_ok_iff.mp his) hi

/-- **A tree is turned down exactly if an entry has no name; otherwise every entry is read, in the
order of the document and from its own subtree alone.** The numerals in the entries are those of
values of their types. -/
theorem deserialize_complete {lyd_find_path : FindPath} {top : List LydNode} {tree ifs : LydNode}
    (hifs : findInterfaces lyd_find_path top tree = some ifs)
    (hrange : ∀ ch ∈ childrenNamed ifs "interface", NumeralsInRange ch) :
    (IetfInterfaces.deserializeLoop lyd_find_path top (some tree) = .error .yangDataError ↔
      ∃ ch ∈ childrenNamed ifs "interface", Unnamed ch) ∧
    ((¬ ∃ ch ∈ childrenNamed ifs "interface", Unnamed ch) →
      ∃ m, IetfInterfaces.deserializeLoop lyd_find_path top (some tree) = .ok m ∧
        List.Forall₂ (fun ch i => readInterface ch = .ok i ∧ InterfaceOf ch i)
          (childrenNamed ifs "interface") m.ifs_) := by
  have hcases : ∀ ch ∈ childrenNamed ifs "interface",
      (∃ i, readInterface ch = .ok i) ∨ readInterface ch = .error .yangDataError := by
    intro ch hch
    by_cases hname : Unnamed ch
    · exact .inr (readInterface_of_unnamed hname)
    · obtain ⟨i, hi, -⟩ := readInterface_complete hname (hrange ch hch)
      exact .inl ⟨i, hi⟩
  have hread : (¬ ∃ ch ∈ childrenNamed ifs "interface", Unnamed ch) →
      ∃ is, (childrenNamed ifs "interface").mapM readInterface = .ok is ∧
        List.Forall₂ (fun ch i => readInterface ch = .ok i ∧ InterfaceOf ch i)
          (childrenNamed ifs "interface") is := by
    intro hnames
    refine Traverse.exists_mapM fun ch hch => ?_
    obtain ⟨i, hi, hof⟩ :=
      readInterface_complete (fun hname => hnames ⟨ch, hch, hname⟩) (hrange ch hch)
    exact ⟨i, hi, hi, hof⟩
  rw [deserializeLoop_of_find hifs]
  refine ⟨⟨fun herror => ?_, fun ⟨ch, hch, hname⟩ => ?_⟩, fun hnames => ?_⟩
  · by_contra hnames
    obtain ⟨is, his, -⟩ := hread hnames
    rw [his] at herror
    cases herror
  · rw [Traverse.mapM_eq_error hcases ⟨ch, hch, readInterface_of_unnamed hname⟩]
    rfl
  · obtain ⟨is, his, hof⟩ := hread hnames
    exact ⟨⟨is⟩, by rw [his]; rfl, hof⟩

/-- An interface with an opaque node, an address without an `ip` and one without a prefix length. -/
def mixedInterface : LydNode :=
  let leaf (name value : String) := LydNode.leaf (Interfaces.ifName name) value
  let ipLeaf (name value : String) := LydNode.leaf (Interfaces.ipName name) value
  let address (cs : List LydNode) := LydNode.inner (Interfaces.ipName "address") cs
  LydNode.inner (Interfaces.ifName "interface")
    [leaf "name" "eth0", leaf "description" "uplink", leaf "if-index" "-7",
      .node none (some "7") [],
      LydNode.inner (Interfaces.ipName "ipv4")
        [ipLeaf "mtu" "1500", address [ipLeaf "ip" "192.0.2.1", ipLeaf "prefix-length" "24"],
          address [], address [ipLeaf "ip" "192.0.2.2"]]]

/-- A tree with an opaque node and a foreign one, and a second interface that has none of what the
first one has. -/
def mixedInterfaces : LydNode :=
  let leaf (name value : String) := LydNode.leaf (Interfaces.ifName name) value
  LydNode.inner (Interfaces.ifName "interfaces")
    [.node none (some "7") [], mixedInterface, leaf "name" "foreign",
      LydNode.inner (Interfaces.ifName "interface") [leaf "name" "eth1"]]

theorem mixedInterfaces_inRange :
    ∀ ch ∈ childrenNamed mixedInterfaces "interface", NumeralsInRange ch := by
  intro ch hch
  rcases List.mem_cons.mp hch with rfl | hch
  · refine ⟨fun n hn v hv => ?_, fun n hn => ?_, fun v hv => ?_⟩
    · obtain rfl := Option.some.inj hn
      obtain rfl := Option.some.inj hv
      exact ⟨1500, Text.isNumeral_repr 1500⟩
    · cases hn
    · obtain rfl := Option.some.inj hv
      exact ⟨-7, .inr ⟨"7", 7, rfl, Text.isNumeral_repr 7, by decide⟩⟩
  · obtain rfl := List.mem_singleton.mp hch
    refine ⟨fun n hn => ?_, fun n hn => ?_, fun v hv => ?_⟩
    · cases hn
    · cases hn
    · cases hv

theorem deserialize_complete_mixedInterfaces :
    (IetfInterfaces.deserializeLoop Reference.findPath [mixedInterfaces] (some mixedInterfaces) =
        .error .yangDataError ↔
      ∃ ch ∈ childrenNamed mixedInterfaces "interface", Unnamed ch) ∧
    ((¬ ∃ ch ∈ childrenNamed mixedInterfaces "interface", Unnamed ch) →
      ∃ m, IetfInterfaces.deserializeLoop Reference.findPath [mixedInterfaces]
          (some mixedInterfaces) = .ok m ∧
        List.Forall₂ (fun ch i => readInterface ch = .ok i ∧ InterfaceOf ch i)
          (childrenNamed mixedInterfaces "interface") m.ifs_) :=
  deserialize_complete rfl mixedInterfaces_inRange

/-! ### The containers of `ietf-ip` -/

/-- An address family. -/
inductive Family where
  | ipv4 | ipv6
  deriving DecidableEq, Repr

namespace Family

/-- The name of the container. -/
def container : Family → String
  | ipv4 => "ipv4"
  | ipv6 => "ipv6"

/-- The member of the model. -/
def member (i : IetfInterface) : Family → Option IetfIp
  | ipv4 => i.ipv4
  | ipv6 => i.ipv6

end Family

/-- If a container holds an mtu or an address, the member is there, with the same mtu and one
element for each address. -/
def KeepsIp (n : LydNode) (ip : Option IetfIp) : Prop :=
  childValue n "mtu" ≠ none ∨ addressEntries n ≠ [] →
    ∃ ip', ip = some ip' ∧ NumberOf (childValue n "mtu") ip'.mtu ∧
      List.Forall₂ AddressOf (addressEntries n) ip'.address

theorem readInterface_member {ch n : LydNode} {i : IetfInterface} {family : Family}
    (h : readInterface ch = .ok i) (hn : findChild ch family.container = some n) :
    readIp (some n) = .ok (family.member i) := by
  obtain ⟨-, ipv4, ipv6, if_index, hipv4, hipv6, rfl⟩ := readInterface_eq_ok h
  cases family with
  | ipv4 => exact hn ▸ hipv4
  | ipv6 => exact hn ▸ hipv6

/-- **A container is read completely exactly if it has an address or no mtu.** It is the one of
either family below an entry of any tree that is accepted, and its mtu, if it has one, is the
numeral of a `uint32`. -/
theorem keepsIp_iff {lyd_find_path : FindPath} {top : List LydNode} {tree ifs : LydNode}
    {m : IetfInterfaces} (hifs : findInterfaces lyd_find_path top tree = some ifs)
    (hok : IetfInterfaces.deserializeLoop lyd_find_path top (some tree) = .ok m)
    {ch : LydNode} {i : IetfInterface} (hi : (ch, i) ∈ (childrenNamed ifs "interface").zip m.ifs_)
    {family : Family} {n : LydNode} (hn : findChild ch family.container = some n)
    (hmtu : MtuInRange n) :
    KeepsIp n (family.member i) ↔ (addressEntries n ≠ [] ∨ childValue n "mtu" = none) := by
  have hread := readInterface_of_mem_zip hifs hok hi
  obtain ⟨address, mtu, hip, haddr, hnumber⟩ := readIp_some hmtu
  have hmember := Except.ok.inj ((readInterface_member hread hn).symm.trans hip)
  rw [hmember]
  by_cases hnil : addressEntries n = []
  · rw [if_pos hnil, or_iff_right (not_not_intro hnil)]
    constructor
    · intro hkeeps
      by_contra hvalue
      obtain ⟨ip', hip', -⟩ := hkeeps (.inl hvalue)
      cases hip'
    · rintro hvalue (hsome | hentries)
      · exact absurd hvalue hsome
      · exact absurd hnil hentries
  · rw [if_neg hnil]
    exact ⟨fun _ => .inl hnil, fun _ _ => ⟨_, rfl, hnumber, haddr⟩⟩

/-- An interface that has an mtu for a family and no address, as `serialize` asks for it. -/
def mtuOnly : LydNode :=
  LydNode.inner (Interfaces.ifName "interfaces")
    [LydNode.inner (Interfaces.ifName "interface")
      [LydNode.leaf (Interfaces.ifName "name") "eth0",
        LydNode.inner (Interfaces.ipName "ipv4") [LydNode.leaf (Interfaces.ipName "mtu") "1500"]]]

/-- The mtu is written, and it is not read back. -/
theorem keepsIp_mtuOnly :
    interfaceCalls { name := "eth0", ipv4 := some { mtu := some 1500 } } =
      [("interface[name='eth0']/name", "eth0"),
        ("interface[name='eth0']/ip:ipv4/mtu", "1500")] ∧
    IetfInterfaces.deserializeLoop Reference.findPath [mtuOnly] (some mtuOnly) =
      .ok ⟨[{ name := "eth0" }]⟩ ∧
    ∃ ch n, (childrenNamed mtuOnly "interface") = [ch] ∧
      findChild ch Family.ipv4.container = some n ∧ MtuInRange n ∧
        ¬ KeepsIp n (Family.ipv4.member { name := "eth0" }) := by
  refine ⟨by decide, rfl, _, _, rfl, rfl, fun v hv => ?_, fun h => ?_⟩
  · obtain rfl := Option.some.inj hv
    exact ⟨1500, Text.isNumeral_repr 1500⟩
  · obtain ⟨ip', hip', -⟩ := h (.inl (by decide))
    cases hip'

theorem keepsIp_iff_mixedInterface :
    let i : IetfInterface := {
      name := "eth0"
      description := some "uplink"
      if_index := some (-7)
      ipv4 := some { address := ["192.0.2.1/24", "192.0.2.2"], mtu := some 1500 } }
    IetfInterfaces.deserializeLoop Reference.findPath [mixedInterfaces] (some mixedInterfaces) =
      .ok ⟨[i, { name := "eth1" }]⟩ ∧
    ∃ n, findChild mixedInterface Family.ipv4.container = some n ∧
      (KeepsIp n (Family.ipv4.member i) ↔
        (addressEntries n ≠ [] ∨ childValue n "mtu" = none)) := by
  intro i
  have hok : IetfInterfaces.deserializeLoop Reference.findPath [mixedInterfaces]
      (some mixedInterfaces) = .ok ⟨[i, { name := "eth1" }]⟩ := rfl
  have hrange := mixedInterfaces_inRange mixedInterface List.mem_cons_self
  have hi : (mixedInterface, i) ∈
      (childrenNamed mixedInterfaces "interface").zip [i, { name := "eth1" }] :=
    List.mem_cons_self
  exact ⟨hok, _, rfl, @keepsIp_iff _ _ _ _ _ rfl hok _ _ hi .ipv4 _ rfl (hrange.ipv4 _ rfl)⟩

end StelleriYang

import StelleriYang.IetfRouting
import StelleriYang.Lib.Stateful
import StelleriYang.Lib.Traverse

/-!
# The decoders as they are written

Both decoders read every value through one variable, the pointer `v` that is declared before the
outermost loop, and fill a record field by field. Here they are with this variable as a state that
every read sets, and with the loops and assignments in the order of the source. The definitions of
`IetfInterfaces.deserialize` and `IetfRouting.deserialize` say what comes of it.

## Main definitions

* `Reader` — programs with the variable `v`
* `ifValue`, `forNamed` — the two idioms of the source
* `IetfInterfaces.deserializeLoop`, `IetfRouting.deserializeLoop`

## Main results

* `IetfInterfaces.deserializeLoop_eq`, `IetfRouting.deserializeLoop_eq` — nothing is read that was
  left in `v` before
-/

namespace StelleriYang

open LydNode (named findChild childrenNamed childValue)
open Stateful (Yields outcome throwIf)

/-- Programs with the variable `v`. -/
abbrev Reader := EStateM Thrown (Option String)

/-- `if (n && (v = node_value(n)))`, with `store` for what is done with `v`. -/
def ifValue {α : Type} (n : Option LydNode) (store : α → String → Reader α) (a : α) : Reader α :=
  match n with
  | none => pure a
  | some n => do
    set n.value
    match ← get with
    | some v => store a v
    | none => pure a

/-- A loop over the children of a node that goes on to the next if a child is opaque or has another
name. -/
def forNamed {α : Type} (parent : LydNode) (name : String) (body : α → LydNode → Reader α) (a : α) :
    Reader α :=
  parent.children.foldlM (fun a ch => if named name ch then body a ch else pure a) a

/-- `std::stoul(v)`, `std::stoi(v)`. -/
def numeralOrThrow {α : Type} (r : Except Text.NumeralError α) : Reader α :=
  match readNumeral r with
  | .ok a => pure a
  | .error e => throw e

/-- A numeral, if there is one. -/
def readOptional {α : Type} (numeral : String → Except Text.NumeralError α) :
    Option String → Except Thrown (Option α)
  | none => .ok none
  | some v => (readNumeral (numeral v)).map some

theorem readInt32_eq (v : Option String) : readInt32 v = readOptional Text.stoi v := by
  cases v <;> rfl

theorem readUInt32_eq (v : Option String) :
    readUInt32 v = (readOptional Text.stoul v).map (Option.map UInt64.toUInt32) := by
  cases v with
  | none => rfl
  | some v =>
    rw [readUInt32, readOptional]
    cases readNumeral (Text.stoul v) <;> rfl

section Idioms

variable {α β : Type}

theorem yields_numeralOrThrow (r : Except Text.NumeralError α) :
    Yields (numeralOrThrow r) (readNumeral r) := by
  intro v
  rw [numeralOrThrow]
  cases readNumeral r <;> rfl

theorem yields_ifValue_some {n : Option LydNode} {v : String} {store : α → String → Reader α}
    {a : α} {r : Except Thrown α} (hv : n.bind DataTree.Tree.value = some v)
    (h : Yields (store a v) r) : Yields (ifValue n store a) r := by
  intro old
  obtain ⟨n, rfl, hv⟩ := Option.bind_eq_some_iff.mp hv
  have hvalue : n.value = some v := hv
  have hrun : outcome (ifValue (some n) store a) old =
      outcome (match n.value with
        | some v => store a v
        | none => pure a) n.value := rfl
  rw [hrun, hvalue]
  exact h _

theorem yields_ifValue_none {n : Option LydNode} {store : α → String → Reader α} {a : α}
    (hv : n.bind DataTree.Tree.value = none) : Yields (ifValue n store a) (.ok a) := by
  intro old
  cases n with
  | none => rfl
  | some n =>
    have hrun : outcome (ifValue (some n) store a) old =
        outcome (match n.value with
          | some v => store a v
          | none => pure a) n.value := rfl
    rw [hrun, show n.value = none from hv]
    rfl

/-- An optional field that is absent so far. -/
theorem yields_ifValue_field (n : Option LydNode) (update : α → Option β → α) (make : String → β)
    {a : α} (h : update a none = a) :
    Yields (ifValue n (fun a v => pure (update a (some (make v)))) a)
      (.ok (update a ((n.bind DataTree.Tree.value).map make))) := by
  cases hv : n.bind DataTree.Tree.value with
  | none =>
    rw [Option.map_none, h]
    exact yields_ifValue_none hv
  | some v => exact yields_ifValue_some hv (Yields.pure _)

/-- The same for a text. -/
theorem yields_ifValue_text (n : Option LydNode) (update : α → Option String → α) {a : α}
    (h : update a none = a) :
    Yields (ifValue n (fun a v => pure (update a (some v))) a)
      (.ok (update a (n.bind DataTree.Tree.value))) := by
  have hread := yields_ifValue_field n update id h
  rwa [Option.map_id_fun, id] at hread

/-- The same for a numeral. -/
theorem yields_ifValue_numeral (n : Option LydNode) (update : α → Option β → α)
    (numeral : String → Except Text.NumeralError β) {a : α} (h : update a none = a) :
    Yields (ifValue n (fun a v => do
        let k ← numeralOrThrow (numeral v)
        pure (update a (some k))) a)
      ((readOptional numeral (n.bind DataTree.Tree.value)).map (update a)) := by
  cases hv : n.bind DataTree.Tree.value with
  | none =>
    show Yields _ (.ok (update a none))
    rw [h]
    exact yields_ifValue_none hv
  | some v =>
    have hread := (yields_numeralOrThrow (numeral v)).bind fun k => Yields.pure (update a (some k))
    refine yields_ifValue_some hv ?_
    rw [readOptional]
    cases hr : readNumeral (numeral v) <;>
      · rw [hr] at hread
        exact hread

theorem yields_forNamed (parent : LydNode) (name : String) {body : α → LydNode → Reader α}
    {g : α → LydNode → Except Thrown α} (h : ∀ a ch, Yields (body a ch) (g a ch)) (a : α) :
    Yields (forNamed parent name body a)
      (parent.children.foldlM (fun a ch => if named name ch then g a ch else .ok a) a) := by
  refine Yields.foldlM (fun a ch => ?_) a
  by_cases hn : named name ch = true
  · rw [if_pos hn, if_pos hn]
    exact h a ch
  · rw [if_neg hn, if_neg hn]
    exact Yields.pure a

/-- A loop that stores what it makes of each child. -/
theorem yields_forNamed_store (parent : LydNode) (name : String) {body : α → LydNode → Reader α}
    {f : LydNode → Except Thrown β} {store : α → β → α}
    (h : ∀ a ch, Yields (body a ch) ((f ch).map (store a))) (a : α) :
    Yields (forNamed parent name body a)
      (((childrenNamed parent name).mapM f).map fun bs => bs.foldl store a) := by
  have hloop := yields_forNamed parent name h a
  rwa [Traverse.foldlM_store_eq] at hloop

/-- A loop that pushes what it makes of some children and passes over the others. -/
theorem yields_forNamed_filterMap (parent : LydNode) (name : String)
    {body : α → LydNode → Reader α} {f : LydNode → Option β} {push : α → β → α}
    (h : ∀ a ch, Yields (body a ch) (.ok ((f ch).elim a (push a)))) (a : α) :
    Yields (forNamed parent name body a)
      (.ok (((childrenNamed parent name).filterMap f).foldl push a)) := by
  have hloop := yields_forNamed parent name h a
  have hfold : parent.children.foldlM (fun a ch =>
      if named name ch then (.ok ((f ch).elim a (push a)) : Except Thrown α) else .ok a) a =
      .ok (((childrenNamed parent name).filterMap f).foldl push a) := by
    rw [List.foldl_filterMap, childrenNamed, List.foldl_filter]
    refine Eq.trans ?_ List.foldlM_pure
    congr 1
    funext a ch
    cases f ch <;>
      · split <;> rfl
  rwa [hfold] at hloop

end Idioms

/-! ### Interfaces -/

/-- `ip.address.push_back(a)`. -/
def IetfIp.pushAddress (ip : IetfIp) (a : String) : IetfIp :=
  { ip with address := ip.address ++ [a] }

/-- The body of the loops over the addresses. -/
def addressBody (ip : IetfIp) (addr : LydNode) : Reader IetfIp :=
  ifValue (findChild addr "ip")
    (fun ip v => do
      let a := v
      let a ← ifValue (findChild addr "prefix-length") (fun a v => pure (a ++ "/" ++ v)) a
      pure (ip.pushAddress a)) ip

/-- The blocks of the two address families: the member is set if there is an address. -/
def ipBlock (n : Option LydNode) (store : IetfInterface → IetfIp → IetfInterface)
    (itf : IetfInterface) : Reader IetfInterface :=
  match n with
  | none => pure itf
  | some n => do
    let ip : IetfIp := {}
    let ip ← ifValue (findChild n "mtu")
      (fun ip v => do
        let mtu ← numeralOrThrow (Text.stoul v)
        pure { ip with mtu := some mtu.toUInt32 }) ip
    let ip ← forNamed n "address" addressBody ip
    pure (if ip.address = [] then itf else store itf ip)

def IetfInterface.pushHigher (itf : IetfInterface) (v : String) : IetfInterface :=
  { itf with higher_layer_if := itf.higher_layer_if ++ [v] }

def IetfInterface.pushLower (itf : IetfInterface) (v : String) : IetfInterface :=
  { itf with lower_layer_if := itf.lower_layer_if ++ [v] }

/-- A value of the leaf-list `name` is pushed. -/
def leafListBlock (name : String) (push : IetfInterface → String → IetfInterface) (ll : LydNode)
    (itf : IetfInterface) : Reader IetfInterface :=
  if named name ll then ifValue (some ll) (fun itf v => pure (push itf v)) itf else pure itf

/-- One round of the loop over the leaf-lists. -/
def leafListBody (itf : IetfInterface) (ll : LydNode) : Reader IetfInterface := do
  let itf ← leafListBlock "higher-layer-if" IetfInterface.pushHigher ll itf
  leafListBlock "lower-layer-if" IetfInterface.pushLower ll itf

/-- The body of the loop over the interfaces. -/
def interfaceBody (model : IetfInterfaces) (ch : LydNode) : Reader IetfInterfaces := do
  let itf : IetfInterface := { name := "" }
  let itf ← ifValue (findChild ch "name") (fun itf v => pure { itf with name := v }) itf
  throwIf (itf.name = "") .yangDataError
  let itf ← ifValue (findChild ch "description")
    (fun itf v => pure { itf with description := some v }) itf
  let itf ← ifValue (findChild ch "type")
    (fun itf v => pure { itf with type := some (ianaIfTypeFromString (stripNsPrefix v)) }) itf
  let itf ← ifValue (findChild ch "enabled")
    (fun itf v => pure { itf with enabled := !(v == "false" || v == "0") }) itf
  let itf ← ifValue (findChild ch "admin-status")
    (fun itf v => pure { itf with admin_status := some v }) itf
  let itf ← ifValue (findChild ch "oper-status")
    (fun itf v => pure { itf with oper_status := some v }) itf
  let itf ← ifValue ((findChild ch "statistics").bind fun n => findChild n "discontinuity-time")
    (fun itf v =>
      pure { itf with statistics := some { discontinuity_time := some (normalizeUtc v) } }) itf
  let itf ← ipBlock (findChild ch "ipv4") (fun itf ip4 => { itf with ipv4 := some ip4 }) itf
  let itf ← ipBlock (findChild ch "ipv6") (fun itf ip6 => { itf with ipv6 := some ip6 }) itf
  let itf ← ifValue (findChild ch "last-change")
    (fun itf v => pure { itf with last_change := some v }) itf
  let itf ← ifValue (findChild ch "if-index")
    (fun itf v => do
      let if_index ← numeralOrThrow (Text.stoi v)
      pure { itf with if_index := some if_index }) itf
  let itf ← ifValue (findChild ch "phys-address")
    (fun itf v => pure { itf with phys_address := some v }) itf
  let itf ← ch.children.foldlM leafListBody itf
  pure (model.addInterface itf)

/-- `IetfInterfaces::deserialize`. -/
def IetfInterfaces.deserializeLoop (lyd_find_path : FindPath) (top : List LydNode)
    (tree : Option LydNode) : Except Thrown IetfInterfaces :=
  match tree.bind (findInterfaces lyd_find_path top) with
  | none => .error .yangDataError
  | some ifs => outcome (forNamed ifs "interface" interfaceBody {}) none

section Interfaces

theorem yields_addressBody (ip : IetfIp) (addr : LydNode) :
    Yields (addressBody ip addr) (.ok ((readAddress addr).elim ip ip.pushAddress)) := by
  rw [readAddress]
  cases hip : childValue addr "ip" with
  | none => exact yields_ifValue_none hip
  | some v =>
    rw [Option.map_some, Option.elim_some]
    refine yields_ifValue_some hip (Yields.bind_ok ?_ (Yields.pure _))
    cases hlen : childValue addr "prefix-length" with
    | none => exact yields_ifValue_none hlen
    | some len => exact yields_ifValue_some hlen (Yields.pure _)

theorem foldl_pushAddress (as : List String) (ip : IetfIp) :
    as.foldl IetfIp.pushAddress ip = { ip with address := ip.address ++ as } :=
  Traverse.foldl_push (fun as => { ip with address := as }) (fun _ _ => rfl) as ip.address

/-- The loop over the addresses. -/
theorem yields_addresses (n : LydNode) (ip : IetfIp) :
    Yields (forNamed n "address" addressBody ip)
      (.ok { ip with
        address := ip.address ++ (childrenNamed n "address").filterMap readAddress }) := by
  have hloop := yields_forNamed_filterMap n "address" yields_addressBody ip
  rwa [foldl_pushAddress] at hloop

theorem yields_ipBlock (n : Option LydNode) (update : IetfInterface → Option IetfIp → IetfInterface)
    {itf : IetfInterface} (h : update itf none = itf) :
    Yields (ipBlock n (fun itf ip => update itf (some ip)) itf) ((readIp n).map (update itf)) := by
  cases n with
  | none =>
    show Yields _ (.ok (update itf none))
    rw [h]
    exact Yields.pure itf
  | some n =>
    have hmtu := yields_ifValue_numeral (findChild n "mtu")
      (fun (ip : IetfIp) mtu => { ip with mtu := mtu.map UInt64.toUInt32 }) Text.stoul (a := {}) rfl
    have hblock := hmtu.bind fun ip => (yields_addresses n ip).bind
      fun ip => Yields.pure (if ip.address = [] then itf else update itf (some ip))
    refine Eq.mp ?_ hblock
    congr 1
    rw [readIp, readUInt32_eq, childValue]
    cases readOptional Text.stoul ((findChild n "mtu").bind DataTree.Tree.value) with
    | error e => rfl
    | ok mtu =>
      show Except.ok _ = Except.ok _
      rw [List.nil_append]
      split
      · rw [h]
      · rfl

/-- The values of a leaf-list in a list of nodes. -/
def leafListValues (name : String) (lls : List LydNode) : List String :=
  (lls.filter (named name)).filterMap DataTree.Tree.value

theorem leafListValues_cons (name : String) (ll : LydNode) (lls : List LydNode) :
    leafListValues name (ll :: lls) = leafListValues name [ll] ++ leafListValues name lls := by
  rw [leafListValues, ← List.singleton_append, List.filter_append, List.filterMap_append]
  rfl

theorem yields_leafListBlock (name : String) (push : IetfInterface → String → IetfInterface)
    (ll : LydNode) (itf : IetfInterface) :
    Yields (leafListBlock name push ll itf) (.ok ((leafListValues name [ll]).foldl push itf)) := by
  rw [leafListBlock, leafListValues]
  by_cases hn : named name ll = true
  · rw [if_pos hn, List.filter_cons_of_pos hn]
    cases hv : ll.value with
    | none =>
      rw [List.filterMap_cons_none hv]
      exact yields_ifValue_none hv
    | some v =>
      rw [List.filterMap_cons_some hv]
      exact yields_ifValue_some hv (Yields.pure _)
  · rw [if_neg hn, List.filter_cons_of_neg hn]
    exact Yields.pure itf

theorem foldl_pushHigher (vs : List String) (itf : IetfInterface) :
    vs.foldl IetfInterface.pushHigher itf =
      { itf with higher_layer_if := itf.higher_layer_if ++ vs } :=
  Traverse.foldl_push (fun vs => { itf with higher_layer_if := vs }) (fun _ _ => rfl) vs
    itf.higher_layer_if

theorem foldl_pushLower (vs : List String) (itf : IetfInterface) :
    vs.foldl IetfInterface.pushLower itf =
      { itf with lower_layer_if := itf.lower_layer_if ++ vs } :=
  Traverse.foldl_push (fun vs => { itf with lower_layer_if := vs }) (fun _ _ => rfl) vs
    itf.lower_layer_if

/-- The loop over the leaf-lists. -/
theorem yields_leafLists (lls : List LydNode) : ∀ itf : IetfInterface,
    Yields (lls.foldlM leafListBody itf)
      (.ok { itf with
        higher_layer_if := itf.higher_layer_if ++ leafListValues "higher-layer-if" lls
        lower_layer_if := itf.lower_layer_if ++ leafListValues "lower-layer-if" lls }) := by
  induction lls with
  | nil => intro itf; simpa [leafListValues] using Yields.pure itf
  | cons ll lls ih =>
    intro itf
    have hround : Yields (leafListBody itf ll) (.ok { itf with
        higher_layer_if := itf.higher_layer_if ++ leafListValues "higher-layer-if" [ll]
        lower_layer_if := itf.lower_layer_if ++ leafListValues "lower-layer-if" [ll] }) := by
      refine (yields_leafListBlock _ _ ll itf).bind_ok ?_
      rw [foldl_pushHigher]
      have hlower := yields_leafListBlock "lower-layer-if" IetfInterface.pushLower ll
        ((leafListValues "higher-layer-if" [ll]).foldl IetfInterface.pushHigher itf)
      rwa [foldl_pushLower, foldl_pushHigher] at hlower
    rw [List.foldlM_cons, leafListValues_cons _ ll lls, leafListValues_cons _ ll lls,
      ← List.append_assoc, ← List.append_assoc]
    exact hround.bind_ok (ih _)

/-- The fields of an interface, given those that are read from numerals and containers. -/
def interfaceFields (ch : LydNode) (ipv4 ipv6 : Option IetfIp) (if_index : Option Int32) :
    IetfInterface where
  name := (childValue ch "name").getD ""
  description := childValue ch "description"
  type := (childValue ch "type").map fun v => ianaIfTypeFromString (stripNsPrefix v)
  enabled := (childValue ch "enabled").all fun v => !(v == "false" || v == "0")
  admin_status := childValue ch "admin-status"
  oper_status := childValue ch "oper-status"
  last_change := childValue ch "last-change"
  if_index
  phys_address := childValue ch "phys-address"
  higher_layer_if := leafListValues "higher-layer-if" ch.children
  lower_layer_if := leafListValues "lower-layer-if" ch.children
  statistics :=
    ((findChild ch "statistics").bind fun n => childValue n "discontinuity-time").map
      fun dt => { discontinuity_time := some (normalizeUtc dt) }
  ipv4
  ipv6

theorem readInterface_eq (ch : LydNode) : readInterface ch =
    if (childValue ch "name").getD "" = "" then .error .yangDataError
    else
      readIp (findChild ch "ipv4") >>= fun ipv4 => readIp (findChild ch "ipv6") >>= fun ipv6 =>
        readOptional Text.stoi (childValue ch "if-index") >>= fun if_index =>
          .ok (interfaceFields ch ipv4 ipv6 if_index) := by
  rw [readInterface, readInt32_eq]
  rfl

/-- What an entry that is accepted was read from. -/
theorem readInterface_eq_ok {ch : LydNode} {i : IetfInterface} (h : readInterface ch = .ok i) :
    (childValue ch "name").getD "" ≠ "" ∧ ∃ ipv4 ipv6 if_index,
      readIp (findChild ch "ipv4") = .ok ipv4 ∧ readIp (findChild ch "ipv6") = .ok ipv6 ∧
        i = interfaceFields ch ipv4 ipv6 if_index := by
  rw [readInterface_eq] at h
  split at h
  · cases h
  · rename_i hname
    obtain ⟨ipv4, hipv4, h⟩ := Traverse.bind_eq_ok_iff.mp h
    obtain ⟨ipv6, hipv6, h⟩ := Traverse.bind_eq_ok_iff.mp h
    obtain ⟨if_index, -, h⟩ := Traverse.bind_eq_ok_iff.mp h
    cases h
    exact ⟨hname, ipv4, ipv6, if_index, hipv4, hipv6, rfl⟩

theorem map_readInterface {α : Type} (f : IetfInterface → α) (ch : LydNode)
    (h : (childValue ch "name").getD "" ≠ "") : (readInterface ch).map f =
      readIp (findChild ch "ipv4") >>= fun ipv4 => readIp (findChild ch "ipv6") >>= fun ipv6 =>
        readOptional Text.stoi (childValue ch "if-index") >>= fun if_index =>
          .ok (f (interfaceFields ch ipv4 ipv6 if_index)) := by
  rw [readInterface_eq, if_neg h]
  cases readIp (findChild ch "ipv4") with
  | error e => rfl
  | ok ipv4 =>
    cases readIp (findChild ch "ipv6") with
    | error e => rfl
    | ok ipv6 => cases readOptional Text.stoi (childValue ch "if-index") <;> rfl

theorem yields_name (ch : LydNode) :
    Yields (ifValue (findChild ch "name") (fun itf v => pure { itf with name := v })
      ({ name := "" } : IetfInterface)) (.ok { name := (childValue ch "name").getD "" }) := by
  cases hv : childValue ch "name" with
  | none => exact yields_ifValue_none hv
  | some v => exact yields_ifValue_some hv (Yields.pure _)

theorem yields_enabled (ch : LydNode) {itf : IetfInterface} (hitf : itf.enabled = true) :
    Yields (ifValue (findChild ch "enabled")
      (fun itf v => pure { itf with enabled := !(v == "false" || v == "0") }) itf)
      (.ok { itf with
        enabled := (childValue ch "enabled").all fun v => !(v == "false" || v == "0") }) := by
  cases hv : childValue ch "enabled" with
  | none =>
    rw [Option.all_none, ← hitf]
    exact yields_ifValue_none hv
  | some v => exact yields_ifValue_some hv (Yields.pure _)

theorem yields_discontinuityTime (ch : LydNode) {itf : IetfInterface}
    (hitf : itf.statistics = none) :
    Yields (ifValue ((findChild ch "statistics").bind fun n => findChild n "discontinuity-time")
      (fun itf v =>
        pure { itf with statistics := some { discontinuity_time := some (normalizeUtc v) } }) itf)
      (.ok { itf with
        statistics :=
          ((findChild ch "statistics").bind fun n => childValue n "discontinuity-time").map
            fun dt => { discontinuity_time := some (normalizeUtc dt) } }) := by
  have hread := yields_ifValue_field
    ((findChild ch "statistics").bind fun n => findChild n "discontinuity-time")
    (fun (itf : IetfInterface) s => { itf with statistics := s })
    (fun v => { discontinuity_time := some (normalizeUtc v) }) (a := itf) (by rw [← hitf])
  rwa [Option.bind_assoc] at hread

/-- **The body of the loop appends what `readInterface` makes of the child**, whatever is in `v`. -/
theorem yields_interfaceBody (model : IetfInterfaces) (ch : LydNode) :
    Yields (interfaceBody model ch) ((readInterface ch).map model.addInterface) := by
  refine (yields_name ch).bind_ok ?_
  by_cases h : (childValue ch "name").getD "" = ""
  · have hthrow := Yields.throwIf (σ := Option String) ((childValue ch "name").getD "" = "")
      Thrown.yangDataError
    rw [if_pos h] at hthrow
    rw [readInterface_eq, if_pos h]
    exact hthrow.bind_error
  have hpass := Yields.throwIf (σ := Option String) ((childValue ch "name").getD "" = "")
    Thrown.yangDataError
  rw [if_neg h] at hpass
  rw [map_readInterface model.addInterface ch h]
  refine hpass.bind_ok ?_
  refine (yields_ifValue_text _ (fun (itf : IetfInterface) d => { itf with description := d })
    rfl).bind_ok ?_
  refine (yields_ifValue_field _ (fun (itf : IetfInterface) t => { itf with type := t })
    (fun v => ianaIfTypeFromString (stripNsPrefix v)) rfl).bind_ok ?_
  refine (yields_enabled ch rfl).bind_ok ?_
  refine (yields_ifValue_text _ (fun (itf : IetfInterface) s => { itf with admin_status := s })
    rfl).bind_ok ?_
  refine (yields_ifValue_text _ (fun (itf : IetfInterface) s => { itf with oper_status := s })
    rfl).bind_ok ?_
  refine (yields_discontinuityTime ch rfl).bind_ok ?_
  refine (yields_ipBlock _ (fun (itf : IetfInterface) ip => { itf with ipv4 := ip }) rfl).bind_map
    fun ipv4 => ?_
  refine (yields_ipBlock _ (fun (itf : IetfInterface) ip => { itf with ipv6 := ip }) rfl).bind_map
    fun ipv6 => ?_
  refine (yields_ifValue_text _ (fun (itf : IetfInterface) s => { itf with last_change := s })
    rfl).bind_ok ?_
  refine (yields_ifValue_numeral _ (fun (itf : IetfInterface) k => { itf with if_index := k })
    Text.stoi rfl).bind_map fun if_index => ?_
  refine (yields_ifValue_text _ (fun (itf : IetfInterface) s => { itf with phys_address := s })
    rfl).bind_ok ?_
  exact (yields_leafLists ch.children _).bind_ok (Yields.pure _)

theorem foldl_addInterface (is : List IetfInterface) (m : IetfInterfaces) :
    is.foldl IetfInterfaces.addInterface m = ⟨m.ifs_ ++ is⟩ :=
  Traverse.foldl_push IetfInterfaces.mk (fun _ _ => rfl) is m.ifs_

/-- **The decoder as it is written reads what `IetfInterfaces.deserialize` says.** -/
theorem IetfInterfaces.deserializeLoop_eq (lyd_find_path : FindPath) (top : List LydNode)
    (tree : Option LydNode) :
    IetfInterfaces.deserializeLoop lyd_find_path top tree =
      IetfInterfaces.deserialize lyd_find_path top tree := by
  rw [IetfInterfaces.deserializeLoop, IetfInterfaces.deserialize]
  cases tree.bind (findInterfaces lyd_find_path top) with
  | none => rfl
  | some ifs =>
    refine (yields_forNamed_store ifs "interface" yields_interfaceBody {} none).trans ?_
    show _ = ((childrenNamed ifs "interface").mapM readInterface).map IetfInterfaces.mk
    congr 1
    funext is
    rw [foldl_addInterface, List.nil_append]

end Interfaces

/-! ### Routing -/

/-- The body of the loops over `route` entries. -/
def routeBody (routes : List Route) (r : LydNode) : Reader (List Route) := do
  let route : Route := {}
  let route ← ifValue (findChild r "route-preference")
    (fun route v => do
      let preference ← numeralOrThrow (Text.stoul v)
      pure { route with route_preference := some preference.toUInt32 }) route
  pure (routes ++ [route])

/-- A loop over the entries of a container, if the container is there. -/
def forEntries {α : Type} (parent : LydNode) (container entry : String)
    (body : α → LydNode → Reader α) (a : α) : Reader α :=
  match findChild parent container with
  | none => pure a
  | some n => forNamed n entry body a

/-- The body of the loop over the leaf-list of interfaces: `found` is the scan of the list that is
extended. The value is read through a variable of its own. -/
def interfaceNameBody (routing : Routing) (ch : LydNode) : Reader Routing :=
  match ch.value with
  | none => pure routing
  | some val =>
    let found := routing.interfaces.any (· == val)
    pure (if found then routing else { routing with interfaces := routing.interfaces ++ [val] })

/-- The body of the loop over the control-plane protocols. -/
def controlPlaneProtocolBody (routing : Routing) (entry : LydNode) : Reader Routing := do
  let cp : ControlPlaneProtocol := { type := "", name := "" }
  let cp ← ifValue (findChild entry "type")
    (fun cp v => pure { cp with type := stripIdentityPrefix v }) cp
  let cp ← ifValue (findChild entry "name") (fun cp v => pure { cp with name := v }) cp
  let cp ← ifValue (findChild entry "description")
    (fun cp v => pure { cp with description := some v }) cp
  let static_routes ← forEntries entry "static-routes" "route" routeBody cp.static_routes
  pure { routing with
    control_plane_protocols :=
      routing.control_plane_protocols ++ [{ cp with static_routes }] }

/-- The body of the loop over the ribs. -/
def ribBody (routing : Routing) (entry : LydNode) : Reader Routing := do
  let rib : Rib := { name := "", address_family := "" }
  let rib ← ifValue (findChild entry "name") (fun rib v => pure { rib with name := v }) rib
  let rib ← ifValue (findChild entry "address-family")
    (fun rib v => pure { rib with address_family := stripIdentityPrefix v }) rib
  let rib ← ifValue (findChild entry "description")
    (fun rib v => pure { rib with description := some v }) rib
  let routes ← forEntries entry "routes" "route" routeBody rib.routes
  pure { routing with ribs := routing.ribs ++ [{ rib with routes }] }

/-- `interfaces_info` and `interfaces` grow together. -/
def pushInfo (routing : Routing) (iface : IetfInterface) : Routing :=
  { routing with
    interfaces_info := routing.interfaces_info ++ [iface]
    interfaces := routing.interfaces ++ [iface.name] }

/-- What is read below the `routing` node. -/
def routingBody (routing : Routing) (rt : LydNode) : Reader Routing := do
  let routing ← ifValue (findChild rt "router-id")
    (fun routing v => pure { routing with router_id := some v }) routing
  let routing ← forEntries rt "interfaces" "interface" interfaceNameBody routing
  let routing ← forEntries rt "control-plane-protocols" "control-plane-protocol"
    controlPlaneProtocolBody routing
  forEntries rt "ribs" "rib" ribBody routing

/-- `IetfRouting::deserialize`. -/
def IetfRouting.deserializeLoop (lyd_find_path : FindPath) (top : List LydNode)
    (tree : Option LydNode) : Except Thrown IetfRouting :=
  match tree with
  | none => .error .yangDataError
  | some tree => do
    let ifs_model ←
      match matched (lyd_find_path top "/ietf-interfaces:interfaces") with
      | some ifs_tree => IetfInterfaces.deserializeLoop lyd_find_path top (some ifs_tree)
      | none => .ok {}
    let routing := ifs_model.ifs_.foldl pushInfo {}
    match findRouting lyd_find_path top tree with
    | none => .error .yangDataError
    | some rt => (outcome (routingBody routing rt) none).map IetfRouting.mk

section Routing

/-- A loop over entries that stores what it makes of each. -/
theorem yields_forEntries {α β : Type} (parent : LydNode) (container entry : String)
    {body : α → LydNode → Reader α} {f : LydNode → Except Thrown β} {store : α → β → α}
    (h : ∀ a ch, Yields (body a ch) ((f ch).map (store a))) (a : α) :
    Yields (forEntries parent container entry body a)
      (((entries parent container entry).mapM f).map fun bs => bs.foldl store a) := by
  rw [forEntries, entries]
  cases findChild parent container with
  | none => exact Yields.pure a
  | some n => exact yields_forNamed_store n entry h a

theorem yields_routeBody (routes : List Route) (r : LydNode) :
    Yields (routeBody routes r) ((readRoute r).map fun route => routes ++ [route]) := by
  have hroute : (readRoute r).map (fun route => routes ++ [route]) =
      readOptional Text.stoul (childValue r "route-preference") >>= fun preference =>
        .ok (routes ++ [{ route_preference := preference.map UInt64.toUInt32 }]) := by
    rw [readRoute, readUInt32_eq]
    cases readOptional Text.stoul (childValue r "route-preference") <;> rfl
  rw [hroute]
  exact (yields_ifValue_numeral (findChild r "route-preference")
    (fun (route : Route) k => { route with route_preference := k.map UInt64.toUInt32 })
    Text.stoul rfl).bind_map fun preference => Yields.pure _

/-- The loops over the routes of an entry. -/
theorem yields_routes (entry : LydNode) (container : String) :
    Yields (forEntries entry container "route" routeBody [])
      ((entries entry container "route").mapM readRoute) := by
  have hloop := yields_forEntries entry container "route" yields_routeBody []
  have hpush : ∀ routes : List Route, routes.foldl (fun rs r => rs ++ [r]) [] = routes :=
    fun routes => Traverse.foldl_push id (fun _ _ => rfl) routes []
  simp only [hpush] at hloop
  cases hr : (entries entry container "route").mapM readRoute <;>
    · rw [hr] at hloop
      exact hloop

/-- What stands behind the colon of an identity, and nothing if there is no leaf. -/
theorem yields_ifValue_default {α : Type} (n : Option LydNode) (update : α → String → α)
    (make : String → String) {a : α} (h : update a "" = a) :
    Yields (ifValue n (fun a v => pure (update a (make v))) a)
      (.ok (update a (((n.bind DataTree.Tree.value).map make).getD ""))) := by
  cases hv : n.bind DataTree.Tree.value with
  | none =>
    rw [Option.map_none, Option.getD_none, h]
    exact yields_ifValue_none hv
  | some v => exact yields_ifValue_some hv (Yields.pure _)

def Routing.pushControlPlaneProtocol (routing : Routing) (cp : ControlPlaneProtocol) : Routing :=
  { routing with control_plane_protocols := routing.control_plane_protocols ++ [cp] }

def Routing.pushRib (routing : Routing) (rib : Rib) : Routing :=
  { routing with ribs := routing.ribs ++ [rib] }

theorem foldl_pushControlPlaneProtocol (cps : List ControlPlaneProtocol) (routing : Routing) :
    cps.foldl Routing.pushControlPlaneProtocol routing =
      { routing with control_plane_protocols := routing.control_plane_protocols ++ cps } :=
  Traverse.foldl_push (fun cps => { routing with control_plane_protocols := cps })
    (fun _ _ => rfl) cps routing.control_plane_protocols

theorem foldl_pushRib (ribs : List Rib) (routing : Routing) :
    ribs.foldl Routing.pushRib routing = { routing with ribs := routing.ribs ++ ribs } :=
  Traverse.foldl_push (fun ribs => { routing with ribs := ribs }) (fun _ _ => rfl) ribs
    routing.ribs

theorem yields_controlPlaneProtocolBody (routing : Routing) (entry : LydNode) :
    Yields (controlPlaneProtocolBody routing entry)
      ((readControlPlaneProtocol entry).map routing.pushControlPlaneProtocol) := by
  have hcp : ∀ {α : Type} (f : ControlPlaneProtocol → α),
      (readControlPlaneProtocol entry).map f =
      (entries entry "static-routes" "route").mapM readRoute >>= fun static_routes => .ok (f {
        type := ((childValue entry "type").map stripIdentityPrefix).getD ""
        name := ((childValue entry "name").map id).getD ""
        description := childValue entry "description"
        static_routes }) := by
    intro α f
    rw [readControlPlaneProtocol, Option.map_id_fun, id]
    cases (entries entry "static-routes" "route").mapM readRoute <;> rfl
  rw [hcp]
  refine (yields_ifValue_default _ (fun (cp : ControlPlaneProtocol) s => { cp with type := s })
    stripIdentityPrefix rfl).bind_ok ?_
  refine (yields_ifValue_default _ (fun (cp : ControlPlaneProtocol) s => { cp with name := s })
    id rfl).bind_ok ?_
  refine (yields_ifValue_text _
    (fun (cp : ControlPlaneProtocol) d => { cp with description := d }) rfl).bind_ok ?_
  exact (yields_routes entry "static-routes").bind fun static_routes => Yields.pure _

theorem yields_ribBody (routing : Routing) (entry : LydNode) :
    Yields (ribBody routing entry) ((readRib entry).map routing.pushRib) := by
  have hrib : ∀ {α : Type} (f : Rib → α), (readRib entry).map f =
      (entries entry "routes" "route").mapM readRoute >>= fun routes => .ok (f {
        name := ((childValue entry "name").map id).getD ""
        address_family := ((childValue entry "address-family").map stripIdentityPrefix).getD ""
        description := childValue entry "description"
        routes }) := by
    intro α f
    rw [readRib, Option.map_id_fun, id]
    cases (entries entry "routes" "route").mapM readRoute <;> rfl
  rw [hrib]
  refine (yields_ifValue_default _ (fun (rib : Rib) s => { rib with name := s }) id rfl).bind_ok ?_
  refine (yields_ifValue_default _ (fun (rib : Rib) s => { rib with address_family := s })
    stripIdentityPrefix rfl).bind_ok ?_
  refine (yields_ifValue_text _ (fun (rib : Rib) d => { rib with description := d })
    rfl).bind_ok ?_
  exact (yields_routes entry "routes").bind fun routes => Yields.pure _

def Routing.appendInterface (routing : Routing) (val : String) : Routing :=
  { routing with interfaces := appendName routing.interfaces val }

theorem foldl_appendInterface (vals : List String) : ∀ routing : Routing,
    vals.foldl Routing.appendInterface routing =
      { routing with interfaces := vals.foldl appendName routing.interfaces } := by
  induction vals with
  | nil => intro routing; rfl
  | cons val vals ih => intro routing; exact ih (routing.appendInterface val)

theorem yields_interfaceNameBody (routing : Routing) (ch : LydNode) :
    Yields (interfaceNameBody routing ch)
      (.ok (ch.value.elim routing routing.appendInterface)) := by
  rw [interfaceNameBody]
  cases ch.value with
  | none => exact Yields.pure routing
  | some val =>
    have hfound : routing.interfaces.any (· == val) = decide (val ∈ routing.interfaces) := by
      rw [List.any_beq', List.contains_eq_mem]
    simp only [Option.elim_some, Routing.appendInterface, appendName, hfound, decide_eq_true_eq]
    split
    · exact Yields.pure routing
    · exact Yields.pure _

/-- The loop over the leaf-list of interfaces. -/
theorem yields_interfaceNames (rt : LydNode) (routing : Routing) :
    Yields (forEntries rt "interfaces" "interface" interfaceNameBody routing)
      (.ok { routing with
        interfaces := ((entries rt "interfaces" "interface").filterMap DataTree.Tree.value).foldl
          appendName routing.interfaces }) := by
  rw [forEntries, entries]
  cases findChild rt "interfaces" with
  | none => exact Yields.pure routing
  | some n =>
    have hloop := yields_forNamed_filterMap n "interface" yields_interfaceNameBody routing
    rwa [foldl_appendInterface] at hloop

theorem foldl_pushInfo (is : List IetfInterface) : ∀ routing : Routing,
    is.foldl pushInfo routing = { routing with
      interfaces_info := routing.interfaces_info ++ is
      interfaces := routing.interfaces ++ is.map IetfInterface.name } := by
  induction is with
  | nil => intro routing; simp
  | cons i is ih => intro routing; rw [List.foldl_cons, ih]; simp [pushInfo]

/-- **Below the `routing` node**, from what was read of the interfaces. -/
theorem yields_routingBody (ifs_model : IetfInterfaces) (rt : LydNode) :
    Yields (routingBody (ifs_model.ifs_.foldl pushInfo {}) rt)
      ((readRouting ifs_model rt).map IetfRouting.routing_) := by
  have hread : (readRouting ifs_model rt).map IetfRouting.routing_ =
      (entries rt "control-plane-protocols" "control-plane-protocol").mapM
        readControlPlaneProtocol >>= fun control_plane_protocols =>
      ((entries rt "ribs" "rib").mapM readRib).map fun ribs => {
        router_id := childValue rt "router-id"
        interfaces := ((entries rt "interfaces" "interface").filterMap DataTree.Tree.value).foldl
          appendName (ifs_model.ifs_.map IetfInterface.name)
        interfaces_info := ifs_model.ifs_
        control_plane_protocols
        ribs } := by
    rw [readRouting]
    cases (entries rt "control-plane-protocols" "control-plane-protocol").mapM
        readControlPlaneProtocol with
    | error e => rfl
    | ok cps => cases (entries rt "ribs" "rib").mapM readRib <;> rfl
  rw [hread, foldl_pushInfo]
  refine (yields_ifValue_text _ (fun (routing : Routing) id => { routing with router_id := id })
    rfl).bind_ok ?_
  refine (yields_interfaceNames rt _).bind_ok ?_
  refine (yields_forEntries rt _ _ yields_controlPlaneProtocolBody _).bind_map fun cps => ?_
  have hribs := yields_forEntries rt "ribs" "rib" yields_ribBody
  simp only [foldl_pushRib] at hribs
  rw [foldl_pushControlPlaneProtocol]
  exact hribs _

/-- **The decoder as it is written reads what `IetfRouting.deserialize` says.** -/
theorem IetfRouting.deserializeLoop_eq (lyd_find_path : FindPath) (top : List LydNode)
    (tree : Option LydNode) :
    IetfRouting.deserializeLoop lyd_find_path top tree =
      IetfRouting.deserialize lyd_find_path top tree := by
  have hbody : ∀ ifs_model rt,
      (outcome (routingBody (ifs_model.ifs_.foldl pushInfo {}) rt) none).map IetfRouting.mk =
        readRouting ifs_model rt := by
    intro ifs_model rt
    rw [yields_routingBody ifs_model rt none]
    cases readRouting ifs_model rt <;> rfl
  cases tree with
  | none => rfl
  | some tree =>
    simp only [IetfRouting.deserializeLoop, IetfRouting.deserialize, readInterfacesInfo,
      IetfInterfaces.deserializeLoop_eq, hbody]
    cases matched (lyd_find_path top "/ietf-interfaces:interfaces") <;> rfl

end Routing

end StelleriYang

import StelleriYang.Lib.DataTree
import StelleriYang.Lib.PathText
import StelleriYang.Lib.Text

/-!
# libyang as the code sees it

Data nodes, the calls the encoders and decoders make, and what the documentation of libyang says
about these calls.

libyang is not part of the repository. Its nodes are modelled by their content: the schema node
an instance points to, its value, its children in order. The two calls that matter,
`lyd_new_path` and `lyd_find_path`, are parameters of every definition that uses them, and the
structures `NewPath.Lawful` and `FindPath.Lawful` say what the code relies on. Nothing is said
about the place among its siblings at which libyang puts a new node beyond `DataTree.Grows`.

## Addresses

A path given to `lyd_new_path` is text. `SchemaTree.address` reads it (`PathText.parse`), replaces
each qualifier by the module it stands for (a step without one stays in the module of the step
before) and looks every step up in the schema, which is a parameter too: the modules are data of
the installation, not of the repository.

## Texts

The encoders hand over `c_str()` of the texts they compose, so libyang gets them up to their first
NUL (`cCall`). What a call does is settled here for texts without one, which are handed over whole.
The built-in type `string` has a narrower notion of text, `YangText`: no control characters and no
noncharacters.

## Main definitions

* `LydNode`, `LyErr`, `NewPath`, `FindPath`
* `yangString`, `Spellable` — the type `string`, and its values as keys in a path
* `SchemaTree`, `SchemaTree.address`, `SchemaTree.effect` — what a call is asked to insert where
* `NewPath.Lawful`, `FindPath.Lawful` — the documented behaviour
* `cCall`, `callAll`, `checkAll` — calls as they reach libyang, in sequence, result codes dropped
  or checked
* `watch` — `lyd_new_path` that notes what it is called with

## Main results

* `callAll_watch`, `checkAll_watch` — the calls that are noted
* `callAll_attempts` — calls whose results are dropped are a sequence of attempts
* `checkAll_cases`, `checkAll_ok` — calls whose results are checked
-/

namespace StelleriYang

open DataTree (Tree Step Grows Attempts occurs)

/-! ### Data nodes -/

/-- A schema node: the module that defines it and its local name. -/
@[ext]
structure QName where
  module : String
  name : String
  deriving DecidableEq, Repr

/-- `struct lyd_node`: the label is the schema node, absent for an opaque node, and the value is
what `lyd_get_value` returns, absent for inner nodes. -/
abbrev LydNode := Tree (Option QName) String

namespace LydNode

/-- `node->schema->name`, null for an opaque node. -/
def schemaName (n : LydNode) : Option String := n.label.map QName.name

/-- The tests `n->schema && n->schema->name && strcmp(n->schema->name, name) == 0`. -/
def named (name : String) (n : LydNode) : Bool := schemaName n == some name

/-- The first immediate child with the given schema name, in any module. -/
def findChild (parent : LydNode) (name : String) : Option LydNode :=
  parent.children.find? (named name)

/-- The children with the given schema name, in order. -/
def childrenNamed (parent : LydNode) (name : String) : List LydNode :=
  parent.children.filter (named name)

/-- The value of the first child with the given schema name. -/
def childValue (parent : LydNode) (name : String) : Option String :=
  (findChild parent name).bind Tree.value

/-- An inner node. -/
def inner (q : QName) (cs : List LydNode) : LydNode := .node (some q) none cs

/-- A leaf. -/
def leaf (q : QName) (v : String) : LydNode := Tree.leaf (some q) v

/-- A container that is there if it holds something. -/
def container (q : QName) (cs : List LydNode) : Option LydNode :=
  if cs = [] then none else some (inner q cs)

theorem container_of_ne_nil {q : QName} {cs : List LydNode} (h : cs ≠ []) :
    container q cs = some (inner q cs) := if_neg h

theorem named_iff {name : String} {n : LydNode} :
    named name n = true ↔ ∃ m, n.label = some ⟨m, name⟩ := by
  cases h : n.label with
  | none => simp [named, schemaName, h]
  | some q => simp [named, schemaName, h, QName.ext_iff]

theorem filter_leaves (q : QName) (vs : List String) (name : String) :
    (vs.map (leaf q)).filter (named name) = if q.name = name then vs.map (leaf q) else [] := by
  have hn : ∀ v, named name (leaf q v) = (q.name == name) := by
    intro v
    simp [named, schemaName, leaf]
  split
  · rename_i h
    refine List.filter_eq_self.mpr fun n hn' => ?_
    obtain ⟨v, -, rfl⟩ := List.mem_map.mp hn'
    rw [hn, h, beq_self_eq_true]
  · rename_i h
    refine List.filter_eq_nil_iff.mpr fun n hn' => ?_
    obtain ⟨v, -, rfl⟩ := List.mem_map.mp hn'
    rw [hn]
    simpa using h

theorem filter_leaf (q : QName) (v name : String) (cs : List LydNode) :
    (leaf q v :: cs).filter (named name) =
      if q.name = name then leaf q v :: cs.filter (named name) else cs.filter (named name) := by
  rw [← List.singleton_append, List.filter_append, show [leaf q v] = [v].map (leaf q) from rfl,
    filter_leaves]
  split <;> rfl

/-- Nodes that all have the same name. -/
theorem filter_of_label {cs : List LydNode} {q : QName} (h : ∀ n ∈ cs, n.label = some q)
    (name : String) : cs.filter (named name) = if q.name = name then cs else [] := by
  split
  · rename_i hq
    exact List.filter_eq_self.mpr fun n hn => named_iff.mpr ⟨q.module, by rw [h n hn, ← hq]⟩
  · rename_i hq
    refine List.filter_eq_nil_iff.mpr fun n hn hnamed => hq ?_
    obtain ⟨m, hm⟩ := named_iff.mp hnamed
    rw [h n hn] at hm
    rw [Option.some.inj hm]

theorem filter_container (q : QName) (cs : List LydNode) (name : String) :
    (container q cs).toList.filter (named name) =
      if q.name = name then (container q cs).toList else [] := by
  refine filter_of_label (fun n hn => ?_) name
  rw [container] at hn
  split at hn
  · cases hn
  · rw [Option.mem_toList.mp hn |> Option.some.inj |>.symm]
    rfl

theorem mem_of_findChild {parent c : LydNode} {name : String}
    (h : findChild parent name = some c) : c ∈ parent.children ∧ named name c = true :=
  ⟨List.mem_of_find?_eq_some h, by simpa using List.find?_some h⟩

theorem exists_of_childValue {parent : LydNode} {name v : String}
    (h : childValue parent name = some v) :
    ∃ c ∈ parent.children, named name c = true ∧ c.value = some v := by
  obtain ⟨c, hc, hv⟩ := Option.bind_eq_some_iff.mp h
  obtain ⟨hmem, hn⟩ := mem_of_findChild hc
  exact ⟨c, hmem, hn, hv⟩

/-- A child that is the only one of its name is found, wherever it stands. -/
theorem findChild_of_perm {parent : LydNode} {cs : List LydNode} {name : String}
    {c : Option LydNode} (hp : parent.children.Perm cs)
    (hc : cs.filter (named name) = c.toList) : findChild parent name = c := by
  have hf : (parent.children.filter (named name)).Perm c.toList := hc ▸ hp.filter _
  have heq : parent.children.filter (named name) = c.toList := by
    cases c with
    | none => exact List.perm_nil.mp hf
    | some c => exact List.perm_singleton.mp hf
  rw [findChild, ← List.head?_filter, heq]
  cases c <;> rfl

/-- The same for the value of a leaf. -/
theorem childValue_of_perm {parent : LydNode} {cs : List LydNode} {name : String} {q : QName}
    {v : Option String} (hp : parent.children.Perm cs)
    (hv : cs.filter (named name) = v.toList.map (leaf q)) : childValue parent name = v := by
  rw [childValue, findChild_of_perm hp (c := v.map (leaf q)) (by rw [hv]; cases v <;> rfl)]
  cases v <;> rfl

theorem findChild_eq_head? (parent : LydNode) (name : String) :
    findChild parent name = (childrenNamed parent name).head? := by
  simp [findChild, childrenNamed]

end LydNode

/-! ### Calls -/

/-- `LY_ERR`. -/
inductive LyErr where
  | LY_SUCCESS | LY_EMEM | LY_ESYS | LY_EINVAL | LY_EEXIST | LY_ENOTFOUND | LY_EINT | LY_EVALID
  | LY_EDENIED | LY_EINCOMPLETE | LY_ERECOMPILE | LY_ENOT | LY_EPLUGIN | LY_EOTHER
  deriving DecidableEq, Repr

/-- `lyd_new_path(parent, ctx, path, value, 0, &node)`: the result code, and the tree afterwards.
With a null parent that is the tree that was created; otherwise it is the tree `parent` is the
root of. The type of trees is a parameter, so that the calls can also be watched. -/
abbrev NewPath (T : Type) := Option T → String → Option String → LyErr × Option T

/-- `lyd_find_path(tree, path, 0, &match)` on the top-level siblings of `tree`. -/
abbrev FindPath := List LydNode → String → LyErr × Option LydNode

/-- What the code throws, or lets through. -/
inductive Thrown where
  /-- `yang::YangError` -/
  | yangError
  /-- `yang::YangDataError` -/
  | yangDataError
  /-- `std::runtime_error` -/
  | runtimeError
  /-- `std::invalid_argument`, from a numeral reader -/
  | invalidArgument
  /-- `std::out_of_range`, from a numeral reader -/
  | outOfRange
  /-- `std::filesystem::filesystem_error` -/
  | filesystemError
  deriving DecidableEq, Repr

/-! ### Schema and addresses -/

/-! Four kinds of types. -/

/-- A character of a YANG string: no control character but tab, line feed and carriage return, and
no noncharacter. -/
def isYangChar (c : Char) : Bool :=
  let n := c.toNat
  (0x20 ≤ n || n == 0x9 || n == 0xA || n == 0xD) && !(0xFDD0 ≤ n && n ≤ 0xFDEF) &&
    n % 0x10000 < 0xFFFE

/-- A text of the built-in type `string`. -/
def YangText (v : String) : Prop := ∀ c ∈ v.toList, isYangChar c = true

instance (v : String) : Decidable (YangText v) :=
  List.decidableBAll (fun c => isYangChar c = true) v.toList

/-- The built-in type `string`, without a pattern or a length: a text is its own canonical form. -/
def yangString (v : String) : Option String := if YangText v then some v else none

theorem YangText.nulFree {v : String} (h : YangText v) : Text.NulFree v := fun hnul =>
  absurd (h _ hnul) (by decide)

theorem YangText.yangString_eq {v : String} (h : YangText v) : yangString v = some v := if_pos h

theorem yangString_eq_none {v : String} (h : ¬ YangText v) : yangString v = none := if_neg h

theorem yangString_eq_some_iff {v w : String} :
    yangString v = some w ↔ YangText v ∧ v = w := by
  rw [yangString, Option.ite_none_right_eq_some, Option.some.injEq]

theorem isSome_yangString {v : String} : (yangString v).isSome ↔ YangText v := by
  rw [yangString]
  split
  · rename_i h
    exact iff_of_true rfl h
  · rename_i h
    exact iff_of_false Bool.false_ne_true h

/-- A text that can be spelled as a key of this type: a literal in a path has no apostrophe. -/
structure Spellable (name : String) : Prop where
  quote : PathText.quote ∉ name.toList
  text : YangText name

theorem spellable_iff {name : String} :
    Spellable name ↔ PathText.quote ∉ name.toList ∧ YangText name :=
  ⟨fun h => ⟨h.quote, h.text⟩, fun h => ⟨h.1, h.2⟩⟩

instance (name : String) : Decidable (Spellable name) := decidable_of_iff' _ spellable_iff

/-- A canonical form is its own canonical form. -/
def Canonical (type : String → Option String) : Prop := ∀ v w, type v = some w → type w = some w

/-- A type of numbers: the canonical form of a decimal numeral without leading zeros is the numeral
itself. -/
def Decimal (type : String → Option String) : Prop :=
  ∀ (n : ℕ) (w : String), type n.repr = some w → w = n.repr

/-- An `identityref`: a prefix has to stand for a module, and the canonical form begins with the
name of the module of the identity. -/
structure IdentityRef (moduleOf : String → Option String) (type : String → Option String) :
    Prop where
  prefixed : ∀ p v w : String, ':' ∉ p.toList → type (p ++ ":" ++ v) = some w →
    ∃ m, moduleOf p = some m ∧ PathText.IsIdent m ∧ w = m ++ ":" ++ v
  bare : ∀ v w : String, ':' ∉ v.toList → type v = some w →
    ∃ m, PathText.IsIdent m ∧ w = m ++ ":" ++ v

/-- What kind of node a schema node makes. A type is the function that turns a text into its
canonical form, and turns it down if it is no value of the type. -/
inductive Kind where
  | container
  /-- a list and its keys; without keys, the instances of a state list -/
  | list (keys : List String)
  | leaf (type : String → Option String)
  /-- a leaf-list of state data -/
  | stateLeafList (type : String → Option String)
  /-- a node of another kind -/
  | other

namespace Kind

/-- Instances have no identity: a path step makes a new one each time. -/
def always : Kind → Bool
  | .list [] => true
  | .stateLeafList _ => true
  | _ => false

def type? : Kind → Option (String → Option String)
  | .leaf t => some t
  | .stateLeafList t => some t
  | _ => none

end Kind

/-- The schema of a context, as far as paths are concerned. -/
structure SchemaTree where
  /-- the implemented module a qualifier in a path stands for -/
  moduleOf : String → Option String
  /-- the schema node at the end of a sequence of names that begins at the top -/
  kind : List QName → Option Kind

/-- A place in the schema: the names that lead to it, and the module of the last of them, in which
names without a qualifier are looked up. -/
structure Place where
  path : List QName
  module : String
  deriving DecidableEq, Repr

namespace Place

def root (q : QName) : Place := ⟨[q], q.module⟩

def child (p : Place) (q : QName) : Place := ⟨p.path ++ [q], q.module⟩

@[simp] theorem module_root (q : QName) : (root q).module = q.module := rfl
@[simp] theorem path_root (q : QName) : (root q).path = [q] := rfl
@[simp] theorem module_child (p : Place) (q : QName) : (p.child q).module = q.module := rfl
@[simp] theorem path_child (p : Place) (q : QName) : (p.child q).path = p.path ++ [q] := rfl

end Place

namespace SchemaTree

variable (S : SchemaTree)

/-- The schema node at a place. -/
def kindAt (p : Place) : Option Kind := S.kind p.path

/-- The type of the leaf or leaf-list at a place. -/
def typeAt (p : Place) : Option (String → Option String) := (S.kindAt p).bind Kind.type?

/-- `v` is a value of the leaf at `p`, in canonical form. -/
def Accepts (p : Place) (v : String) : Prop := ∃ t, S.typeAt p = some t ∧ t v = some v

/-- The key leaf a predicate asks for. -/
def keyLeaf (p : Place) (preds : List (String × String)) (key : String) :
    Option (Option QName × String) := do
  let literal ← preds.lookup key
  let type ← S.typeAt (p.child ⟨p.module, key⟩)
  let value ← type literal
  some (some ⟨p.module, key⟩, value)

/-- The key leaves of a step: a keyed list takes one predicate for each key, and nothing else
takes any. -/
def keyLeaves (p : Place) (preds : List (String × String)) :
    Kind → Option (List (Option QName × String))
  | .list keys => if preds.length = keys.length then keys.mapM (S.keyLeaf p preds) else none
  | _ => if preds = [] then some [] else none

/-- The module of a step: the one its qualifier stands for, or the one of the step before. -/
def stepModule (module : String) : Option String → Option String
  | none => some module
  | some q => S.moduleOf q

/-- One step of a path: what it does in the tree, and where it leads. -/
def enter (p : Place) (s : PathText.Step) : Option (Step (Option QName) String × Place) := do
  let m ← S.stepModule p.module s.qualifier
  let kind ← S.kindAt (p.child ⟨m, s.name⟩)
  let keys ← S.keyLeaves (p.child ⟨m, s.name⟩) s.preds kind
  some (⟨some ⟨m, s.name⟩, keys, kind.always⟩, p.child ⟨m, s.name⟩)

def resolve : Place → List PathText.Step → Option (List (Step (Option QName) String) × Place)
  | p, [] => some ([], p)
  | p, s :: rest => do
    let r ← S.enter p s
    let (steps, target) ← resolve r.2 rest
    some (r.1 :: steps, target)

/-- What a path text addresses, seen from a place. -/
def address (p : Place) (path : String) : Option (List (Step (Option QName) String) × Place) :=
  (PathText.parse path).bind (S.resolve p)

/-- What a call asks to be inserted: the steps, and the value in canonical form. -/
def effect (p : Place) (call : String × String) :
    Option (List (Step (Option QName) String) × String) := do
  let (steps, target) ← S.address p call.1
  let type ← S.typeAt target
  let value ← type call.2
  some (steps, value)

/-- A call the laws below speak about: if its path addresses a schema node, that node is a leaf or
a leaf-list. -/
def Covered (p : Place) (call : String × String) : Prop :=
  ∀ steps target, S.address p call.1 = some (steps, target) → (S.typeAt target).isSome

/-- No list with keys lies below `p`. -/
def KeylessBelow (p : Place) : Prop :=
  ∀ q tl ks, S.kind (p.path ++ q :: tl) = some (.list ks) → ks = []

/-- Below `p` no list has two keys, and one that has a key holds neither another list with keys nor
a node of one of these names. -/
structure ListsBelow (p : Place) (names : List String) : Prop where
  oneKey : ∀ q tl ks, S.kind (p.path ++ q :: tl) = some (.list ks) → ks.length ≤ 1
  flat : ∀ q tl ks, S.kind (p.path ++ q :: tl) = some (.list ks) → ks ≠ [] →
    ∀ r tl' ks', S.kind (p.path ++ q :: tl ++ r :: tl') = some (.list ks') → ks' = []
  unnamed : ∀ q tl ks, S.kind (p.path ++ q :: tl) = some (.list ks) → ks ≠ [] →
    ∀ tl' r, (S.kind (p.path ++ q :: tl ++ tl' ++ [r])).isSome → r.name ∉ names

end SchemaTree

/-- The step to a node that is no list instance. -/
def nodeStep (q : QName) : Step (Option QName) String := ⟨some q, [], false⟩

/-- The step to the instance of a list with one key. -/
def instanceStep (q key : QName) (v : String) : Step (Option QName) String :=
  ⟨some q, [(some key, v)], false⟩

/-- A new instance comes with its key. -/
theorem occurs_instanceStep (q key : QName) (v : String) :
    occurs [nodeStep key] (instanceStep q key v).keyLeaves = true :=
  DataTree.occurs_key_of_matches (k := (some key, v))
    (Step.matches_keyLeaves (s := instanceStep q key v) rfl none) (by simp [instanceStep])

/-! ### What libyang promises -/

/-- The documented behaviour of `lyd_new_path` with a value and options 0. -/
structure NewPath.Lawful (S : SchemaTree) (lyd_new_path : NewPath LydNode) : Prop where
  /-- a top-level container is created on its own -/
  root : ∀ q : QName, PathText.IsIdent q.module → S.kind [q] = some .container →
    lyd_new_path none ("/" ++ q.module ++ ":" ++ q.name) none =
      (.LY_SUCCESS, some (LydNode.inner q []))
  /-- an error leaves the tree as it is -/
  unchanged : ∀ (t : LydNode) (path : String) (value : Option String),
    (lyd_new_path (some t) path value).1 ≠ .LY_SUCCESS →
    (lyd_new_path (some t) path value).2 = some t
  /-- a path that is malformed, uses a prefix that stands for no module, leaves the schema, or does
  not identify its list instances is an error -/
  unresolved : ∀ (t : LydNode) (q : QName) (path value : String), t.label = some q →
    S.address (.root q) path = none → (lyd_new_path (some t) path (some value)).1 ≠ .LY_SUCCESS
  /-- a value the type of the leaf turns down is an error -/
  invalid : ∀ (t : LydNode) (q : QName) (path value : String) steps target type,
    t.label = some q → S.address (.root q) path = some (steps, target) →
    S.typeAt target = some type →
    type value = none → (lyd_new_path (some t) path (some value)).1 ≠ .LY_SUCCESS
  /-- a node that exists already is an error -/
  exists_ : ∀ (t : LydNode) (q : QName) (path value : String) op, t.label = some q →
    S.effect (.root q) (path, value) = some op → occurs op.1 t.children = true →
    (lyd_new_path (some t) path (some value)).1 = .LY_EEXIST
  /-- otherwise the missing nodes are created and the value is stored in canonical form -/
  created : ∀ (t : LydNode) (q : QName) (path value : String) op, t.label = some q →
    S.effect (.root q) (path, value) = some op → occurs op.1 t.children = false →
    ∃ cs, Grows op.2 op.1 t.children cs ∧
      lyd_new_path (some t) path (some value) = (.LY_SUCCESS, some (t.withChildren cs))

/-- The documented behaviour of `lyd_find_path` for the path of a top-level node: it is found from
any of its siblings. -/
structure FindPath.Lawful (lyd_find_path : FindPath) : Prop where
  found : ∀ (top : List LydNode) (q : QName) (n : LydNode), PathText.IsIdent q.module →
    top.find? (fun c => c.label == some q) = some n →
    lyd_find_path top ("/" ++ q.module ++ ":" ++ q.name) = (.LY_SUCCESS, some n)
  missing : ∀ (top : List LydNode) (q : QName), PathText.IsIdent q.module →
    top.find? (fun c => c.label == some q) = none →
    (lyd_find_path top ("/" ++ q.module ++ ":" ++ q.name)).1 ≠ .LY_SUCCESS

/-- The node a call of `lyd_find_path` has found. -/
def matched : LyErr × Option LydNode → Option LydNode
  | (.LY_SUCCESS, n) => n
  | _ => none

theorem FindPath.Lawful.matched_eq {lyd_find_path : FindPath} (h : FindPath.Lawful lyd_find_path)
    {q : QName} (hq : PathText.IsIdent q.module) (top : List LydNode) :
    matched (lyd_find_path top ("/" ++ q.module ++ ":" ++ q.name)) =
      top.find? fun c => c.label == some q := by
  cases hfind : top.find? fun c => c.label == some q with
  | some n => rw [h.found top q n hq hfind, matched]
  | none =>
    rw [matched]
    rintro n heq
    exact h.missing top q hq hfind (congrArg Prod.fst heq)

/-- A call, made below a step. -/
def below (s : PathText.Step) (c : String × String) : String × String :=
  (s.text ++ "/" ++ c.1, c.2)

/-! ### Calls in sequence

A call is a path and a value. Both are handed over as C strings. `IetfInterfaces::serialize` drops
the result codes of its calls and `IetfRouting::serialize` checks each. -/

/-- A call as it reaches libyang: `c_str()` of the path and of the value. -/
def cCall (c : String × String) : String × String := (Text.cStr c.1, Text.cStr c.2)

/-- A call that reaches libyang as it is. -/
def WholeCall (c : String × String) : Prop := Text.NulFree c.1 ∧ Text.NulFree c.2

theorem WholeCall.cCall_eq {c : String × String} (h : WholeCall c) : cCall c = c :=
  Prod.ext h.1.cStr_eq h.2.cStr_eq

section Calls

variable {T : Type}

/-- A call whose result code is dropped. -/
def put (lyd_new_path : NewPath T) (root : Option T) (path value : String) : Option T :=
  (lyd_new_path root (Text.cStr path) (some (Text.cStr value))).2

/-- `check_ly_err` on the result of a call. -/
def check_ly_err (result : LyErr × Option T) : Except Thrown (Option T) :=
  if result.1 ≠ .LY_SUCCESS then .error .yangDataError else .ok result.2

def callAll (lyd_new_path : NewPath T) (root : Option T) (calls : List (String × String)) :
    Option T :=
  calls.foldl (fun t c => put lyd_new_path t c.1 c.2) root

def checkAll (lyd_new_path : NewPath T) (root : Option T) (calls : List (String × String)) :
    Except Thrown (Option T) :=
  calls.foldlM
    (fun t c => check_ly_err (lyd_new_path t (Text.cStr c.1) (some (Text.cStr c.2)))) root

theorem callAll_append (f : NewPath T) (root : Option T) (xs ys : List (String × String)) :
    callAll f root (xs ++ ys) = callAll f (callAll f root xs) ys := by
  simp [callAll]

theorem checkAll_append (f : NewPath T) (root : Option T) (xs ys : List (String × String)) :
    checkAll f root (xs ++ ys) = (checkAll f root xs).bind fun t => checkAll f t ys := by
  simp [checkAll, List.foldlM_append, bind]

theorem checkAll_cons (f : NewPath T) (root : Option T) (c : String × String)
    (cs : List (String × String)) :
    checkAll f root (c :: cs) =
      (check_ly_err (f root (Text.cStr c.1) (some (Text.cStr c.2)))).bind fun t =>
        checkAll f t cs := rfl

/-- What is handed over as a C string is handed over as the same one again. -/
theorem checkAll_map_cCall (f : NewPath T) (calls : List (String × String)) : ∀ root : Option T,
    checkAll f root (calls.map cCall) = checkAll f root calls := by
  induction calls with
  | nil => intro root; rfl
  | cons c cs ih =>
    intro root
    rw [List.map_cons, checkAll_cons, checkAll_cons, cCall, Text.cStr_cStr, Text.cStr_cStr,
      funext ih]

theorem WholeCall.put_eq {c : String × String} (h : WholeCall c) (f : NewPath T)
    (root : Option T) : put f root c.1 c.2 = (f root c.1 (some c.2)).2 := by
  rw [put, h.1.cStr_eq, h.2.cStr_eq]

theorem WholeCall.checkAll_cons {c : String × String} (h : WholeCall c) (f : NewPath T)
    (root : Option T) (cs : List (String × String)) : checkAll f root (c :: cs) =
      (check_ly_err (f root c.1 (some c.2))).bind fun t => checkAll f t cs := by
  rw [StelleriYang.checkAll_cons, h.1.cStr_eq, h.2.cStr_eq]

/-! The calls of an encoder, observed from outside. -/

/-- `lyd_new_path` that notes the calls that set a value. -/
def watch : NewPath (List (String × String)) := fun calls path value =>
  (.LY_SUCCESS, some (calls.getD [] ++ value.toList.map fun v => (path, v)))

theorem callAll_watch (cs : List (String × String)) : ∀ calls : List (String × String),
    callAll watch (some calls) cs = some (calls ++ cs.map cCall) := by
  induction cs with
  | nil => intro calls; simp [callAll]
  | cons c cs ih =>
    intro calls
    have hcons : callAll watch (some calls) (c :: cs) =
        callAll watch (some (calls ++ [cCall c])) cs := rfl
    rw [hcons, ih, List.map_cons, List.append_assoc, List.singleton_append]

theorem checkAll_watch (cs : List (String × String)) : ∀ calls : List (String × String),
    checkAll watch (some calls) cs = .ok (some (calls ++ cs.map cCall)) := by
  induction cs with
  | nil => intro calls; simp [checkAll, pure, Except.pure]
  | cons c cs ih =>
    intro calls
    have hcons : checkAll watch (some calls) (c :: cs) =
        checkAll watch (some (calls ++ [cCall c])) cs := rfl
    rw [hcons, ih, List.map_cons, List.append_assoc, List.singleton_append]

end Calls

section Lawful

variable {S : SchemaTree} {lyd_new_path : NewPath LydNode} {q : QName}

/-- One call: an attempt if it has an effect, nothing otherwise. -/
theorem NewPath.Lawful.call (h : NewPath.Lawful S lyd_new_path) {t : LydNode}
    (ht : t.label = some q) {c : String × String} (hc : S.Covered (.root q) c) :
    (S.effect (.root q) c = none ∧ (lyd_new_path (some t) c.1 (some c.2)).1 ≠ .LY_SUCCESS ∧
        (lyd_new_path (some t) c.1 (some c.2)).2 = some t) ∨
      (∃ op, S.effect (.root q) c = some op ∧ occurs op.1 t.children = true ∧
        (lyd_new_path (some t) c.1 (some c.2)).1 ≠ .LY_SUCCESS ∧
        (lyd_new_path (some t) c.1 (some c.2)).2 = some t) ∨
      ∃ op cs, S.effect (.root q) c = some op ∧ occurs op.1 t.children = false ∧
        Grows op.2 op.1 t.children cs ∧
        lyd_new_path (some t) c.1 (some c.2) = (.LY_SUCCESS, some (t.withChildren cs)) := by
  obtain ⟨path, value⟩ := c
  cases he : S.effect (.root q) (path, value) with
  | some op =>
    right
    cases ho : occurs op.1 t.children with
    | true =>
      have herr := h.exists_ t q path value op ht he ho
      have hne : (lyd_new_path (some t) path (some value)).1 ≠ .LY_SUCCESS := by simp [herr]
      exact Or.inl ⟨op, rfl, ho, hne, h.unchanged t path _ hne⟩
    | false =>
      obtain ⟨cs, hg, hrun⟩ := h.created t q path value op ht he ho
      exact Or.inr ⟨op, cs, rfl, ho, hg, hrun⟩
  | none =>
    left
    have hne : (lyd_new_path (some t) path (some value)).1 ≠ .LY_SUCCESS := by
      cases ha : S.address (.root q) path with
      | none => exact h.unresolved t q path value ht ha
      | some r =>
        obtain ⟨steps, target⟩ := r
        obtain ⟨type, htype⟩ := Option.isSome_iff_exists.mp (hc steps target ha)
        cases hv : type value with
        | none => exact h.invalid t q path value steps target type ht ha htype hv
        | some c => simp [SchemaTree.effect, ha, htype, hv] at he
    exact ⟨rfl, hne, h.unchanged t path _ hne⟩

/-- **Calls whose result codes are dropped** attempt what they have an effect for. -/
theorem callAll_attempts (h : NewPath.Lawful S lyd_new_path) :
    ∀ {calls : List (String × String)} {t : LydNode}, t.label = some q →
      (∀ c ∈ calls, WholeCall c) → (∀ c ∈ calls, S.Covered (.root q) c) →
      ∃ bs cs, Attempts (calls.filterMap (S.effect (.root q))) bs t.children cs ∧
        callAll lyd_new_path (some t) calls = some (t.withChildren cs) := by
  intro calls
  induction calls with
  | nil => intro t _ _ _; exact ⟨[], t.children, .nil, by simp [callAll]⟩
  | cons c calls ih =>
    intro t ht hwhole hcs
    have hrest : ∀ d ∈ calls, S.Covered (.root q) d := fun d hd => hcs d (by simp [hd])
    replace ih := fun {u} hu => ih (t := u) hu (fun d hd => hwhole d (by simp [hd])) hrest
    have hcons : ∀ t', (lyd_new_path (some t) c.1 (some c.2)).2 = some t' →
        callAll lyd_new_path (some t) (c :: calls) = callAll lyd_new_path (some t') calls :=
      fun t' ht' => by
        rw [callAll, List.foldl_cons, (hwhole c (by simp)).put_eq, ht', callAll]
    rcases h.call ht (hcs c (by simp)) with ⟨he, -, hput⟩ | ⟨op, he, ho, -, hput⟩ |
      ⟨op, ds, he, ho, hg, hrun⟩
    · obtain ⟨bs, cs, ha, hrun⟩ := ih ht
      exact ⟨bs, cs, by rw [List.filterMap_cons_none he]; exact ha, by rw [hcons _ hput, hrun]⟩
    · obtain ⟨bs, cs, ha, hrun⟩ := ih ht
      refine ⟨false :: bs, cs, ?_, by rw [hcons _ hput, hrun]⟩
      rw [List.filterMap_cons_some he]
      exact .refused ho ha
    · obtain ⟨bs, cs, ha, hrun'⟩ := ih (u := t.withChildren ds) ht
      refine ⟨true :: bs, cs, ?_, ?_⟩
      · rw [List.filterMap_cons_some he]
        exact .grown ho hg ha
      · rw [hcons (t.withChildren ds) (by rw [hrun]), hrun']
        simp

/-- **Calls whose result codes are checked**: all of them succeed, or the first that does not
throws. -/
theorem checkAll_cases (h : NewPath.Lawful S lyd_new_path) :
    ∀ {calls : List (String × String)} {t : LydNode}, t.label = some q →
      (∀ c ∈ calls, WholeCall c) → (∀ c ∈ calls, S.Covered (.root q) c) →
      (∃ ops bs cs, calls.mapM (S.effect (.root q)) = some ops ∧ Attempts ops bs t.children cs ∧
        (∀ b ∈ bs, b = true) ∧
        checkAll lyd_new_path (some t) calls = .ok (some (t.withChildren cs))) ∨
      checkAll lyd_new_path (some t) calls = .error .yangDataError := by
  intro calls
  induction calls with
  | nil =>
    intro t _ _ _
    exact Or.inl ⟨[], [], t.children, rfl, .nil, by simp, by simp [checkAll, pure, Except.pure]⟩
  | cons c calls ih =>
    intro t ht hwhole hcs
    have hrest : ∀ d ∈ calls, S.Covered (.root q) d := fun d hd => hcs d (by simp [hd])
    have hcall := (hwhole c (by simp)).checkAll_cons lyd_new_path (some t) calls
    have herror : (lyd_new_path (some t) c.1 (some c.2)).1 ≠ .LY_SUCCESS →
        checkAll lyd_new_path (some t) (c :: calls) = .error .yangDataError := fun hne => by
      rw [hcall, check_ly_err, if_pos hne]
      rfl
    rcases h.call ht (hcs c (by simp)) with ⟨-, hne, -⟩ | ⟨op, -, -, hne, -⟩ |
      ⟨op, ds, he, ho, hg, hrun⟩
    · exact Or.inr (herror hne)
    · exact Or.inr (herror hne)
    · have hcons : checkAll lyd_new_path (some t) (c :: calls) =
          checkAll lyd_new_path (some (t.withChildren ds)) calls := by
        rw [hcall, check_ly_err, hrun]
        simp [Except.bind]
      rcases ih (t := t.withChildren ds) ht (fun d hd => hwhole d (by simp [hd])) hrest with
        ⟨ops, bs, cs, hm, ha, hb, hrun'⟩ | hrun'
      · refine Or.inl ⟨op :: ops, true :: bs, cs, ?_, .grown ho hg ha, by simpa using hb, ?_⟩
        · rw [List.mapM_cons, he, hm]; rfl
        · rw [hcons, hrun']; simp
      · exact Or.inr (by rw [hcons, hrun'])

/-- **When no call fails**: every call has an effect, and whatever the tree looks like when it is
made, its path is not taken. -/
theorem checkAll_ok (h : NewPath.Lawful S lyd_new_path) :
    ∀ {calls : List (String × String)} {t : LydNode} {ops}, t.label = some q →
      (∀ c ∈ calls, WholeCall c) → calls.mapM (S.effect (.root q)) = some ops →
      (∀ bs cs, Attempts ops bs t.children cs → ∀ b ∈ bs, b = true) →
      ∃ bs cs, Attempts ops bs t.children cs ∧
        checkAll lyd_new_path (some t) calls = .ok (some (t.withChildren cs)) := by
  intro calls
  induction calls with
  | nil =>
    intro t ops _ _ hm _
    cases hm
    exact ⟨[], t.children, .nil, by simp [checkAll, pure, Except.pure]⟩
  | cons c calls ih =>
    intro t ops ht hwhole hm hgood
    rw [List.mapM_cons, Option.bind_eq_bind, Option.bind_eq_some_iff] at hm
    obtain ⟨op, he, hm⟩ := hm
    rw [Option.bind_eq_bind, Option.bind_eq_some_iff] at hm
    obtain ⟨rest, hm, heq⟩ := hm
    cases heq
    obtain ⟨path, value⟩ := c
    cases ho : occurs op.1 t.children with
    | true =>
      obtain ⟨bs, cs, ha⟩ := DataTree.exists_attempts rest t.children
      exact absurd (hgood (false :: bs) cs (.refused ho ha) false (by simp)) (by simp)
    | false =>
      obtain ⟨ds, hg, hrun⟩ := h.created t q path value op ht he ho
      obtain ⟨bs, cs, ha, hrun'⟩ := ih (t := t.withChildren ds) ht
        (fun d hd => hwhole d (by simp [hd])) hm fun bs cs ha b hb =>
          hgood (true :: bs) cs (.grown ho hg ha) b (by simp [hb])
      refine ⟨true :: bs, cs, .grown ho hg ha, ?_⟩
      rw [(hwhole (path, value) (by simp)).checkAll_cons, check_ly_err, hrun]
      simpa [Except.bind] using hrun'

end Lawful

/-! ### Effects, step by step -/

namespace SchemaTree

variable {S : SchemaTree} {p : Place} {s : PathText.Step}

theorem enter_eq_some_iff {r : Step (Option QName) String × Place} :
    S.enter p s = some r ↔ ∃ m kind keys, S.stepModule p.module s.qualifier = some m ∧
      S.kindAt (p.child ⟨m, s.name⟩) = some kind ∧
      S.keyLeaves (p.child ⟨m, s.name⟩) s.preds kind = some keys ∧
      r = (⟨some ⟨m, s.name⟩, keys, kind.always⟩, p.child ⟨m, s.name⟩) := by
  simp only [enter, Option.bind_eq_bind, Option.bind_eq_some_iff, Option.some.injEq]
  constructor
  · rintro ⟨m, hm, kind, hk, keys, hkeys, rfl⟩
    exact ⟨m, kind, keys, hm, hk, hkeys, rfl⟩
  · rintro ⟨m, kind, keys, hm, hk, hkeys, rfl⟩
    exact ⟨m, hm, kind, hk, keys, hkeys, rfl⟩

theorem enter_eq {m : String} {kind : Kind} (hm : S.stepModule p.module s.qualifier = some m)
    (hk : S.kindAt (p.child ⟨m, s.name⟩) = some kind) :
    S.enter p s = (S.keyLeaves (p.child ⟨m, s.name⟩) s.preds kind).map fun keys =>
      (⟨some ⟨m, s.name⟩, keys, kind.always⟩, p.child ⟨m, s.name⟩) := by
  simp only [enter, hm, hk, Option.bind_eq_bind, Option.bind_some]
  cases S.keyLeaves (p.child ⟨m, s.name⟩) s.preds kind <;> rfl

theorem keyLeaves_of_type {kind : Kind} {type : String → Option String}
    (h : kind.type? = some type) : S.keyLeaves p [] kind = some [] := by
  cases kind <;> first | rfl | cases h

/-- The key leaf of a list with one key. -/
theorem keyLeaves_one {key v : String} {type : String → Option String}
    (h : S.typeAt (p.child ⟨p.module, key⟩) = some type) :
    S.keyLeaves p [(key, v)] (.list [key]) =
      (type v).map fun w => [(some ⟨p.module, key⟩, w)] := by
  cases ht : type v <;> simp [keyLeaves, keyLeaf, h, ht]

/-- A step to a node that takes no predicates. -/
theorem enter_bare {n : String} {kind : Kind} (hk : S.kindAt (p.child ⟨p.module, n⟩) = some kind)
    (hkeys : S.keyLeaves (p.child ⟨p.module, n⟩) [] kind = some []) :
    S.enter p ⟨none, n, []⟩ =
      some (⟨some ⟨p.module, n⟩, [], kind.always⟩, p.child ⟨p.module, n⟩) := by
  rw [enter_eq (p := p) (s := ⟨none, n, []⟩) rfl hk, hkeys]
  rfl

theorem address_step (hs : s.Named) (hp : s.Plain) (path : String) :
    S.address p (s.text ++ "/" ++ path) = (S.enter p s).bind fun r =>
      (S.address r.2 path).map fun a => (r.1 :: a.1, a.2) := by
  rw [address, PathText.parse_step hs hp]
  cases hparse : PathText.parse path with
  | none => cases S.enter p s <;> simp [address, hparse]
  | some steps =>
    simp only [Option.map_some, Option.bind_some, resolve, address, hparse, Option.bind_eq_bind]
    congr 1
    funext r
    cases S.resolve r.2 steps <;> rfl

theorem address_leaf (hs : s.Named) (hp : s.Plain) :
    S.address p s.text = (S.enter p s).map fun r => ([r.1], r.2) := by
  rw [address, PathText.parse_singleton hs hp, Option.bind_some]
  simp only [resolve, Option.bind_eq_bind, Option.bind_some]
  cases S.enter p s <;> rfl

/-- A call below a step is the call seen from the place the step leads to. -/
theorem effect_step (hs : s.Named) (hp : s.Plain) (path value : String) :
    S.effect p (s.text ++ "/" ++ path, value) = (S.enter p s).bind fun r =>
      (S.effect r.2 (path, value)).map (DataTree.under r.1) := by
  simp only [effect, address_step hs hp, Option.bind_eq_bind]
  cases S.enter p s with
  | none => rfl
  | some r =>
    simp only [Option.bind_some]
    cases S.address r.2 path with
    | none => rfl
    | some a =>
      simp only [Option.map_some, Option.bind_some]
      cases S.typeAt a.2 with
      | none => rfl
      | some type => cases h : type value <;> simp [DataTree.under, h]

/-- Calls that are all made below a step. -/
theorem filterMap_below (hs : s.Named) (hp : s.Plain) {r : Step (Option QName) String × Place}
    (he : S.enter p s = some r) (calls : List (String × String)) :
    (calls.map (below s)).filterMap (S.effect p) =
      (calls.filterMap (S.effect r.2)).map (DataTree.under r.1) := by
  have hcomp : S.effect p ∘ below s =
      fun c => (S.effect r.2 c).map (DataTree.under r.1) := by
    funext c
    rw [Function.comp_apply, below, effect_step hs hp, he]
    rfl
  rw [List.filterMap_map, hcomp, ← List.map_filterMap]

theorem effect_leaf (hs : s.Named) (hp : s.Plain) (value : String) :
    S.effect p (s.text, value) = (S.enter p s).bind fun r =>
      (S.typeAt r.2).bind fun type => (type value).map fun v => ([r.1], v) := by
  simp only [effect, address_leaf hs hp, Option.bind_eq_bind]
  cases S.enter p s with
  | none => rfl
  | some r =>
    simp only [Option.map_some, Option.bind_some]
    cases S.typeAt r.2 with
    | none => rfl
    | some type => cases h : type value <;> simp [h]

/-- A call for a leaf, or for an entry of a leaf-list. -/
theorem effect_leaf_eq {q : Option String} {n m : String} {kind : Kind}
    {type : String → Option String} (hs : (⟨q, n, []⟩ : PathText.Step).Named)
    (hm : S.stepModule p.module q = some m) (hk : S.kindAt (p.child ⟨m, n⟩) = some kind)
    (ht : kind.type? = some type) (v : String) :
    S.effect p ((⟨q, n, []⟩ : PathText.Step).text, v) =
      (type v).map fun w => ([⟨some ⟨m, n⟩, [], kind.always⟩], w) := by
  have hty : S.typeAt (p.child ⟨m, n⟩) = some type := by rw [typeAt, hk, Option.bind_some, ht]
  rw [effect_leaf hs (by simp [PathText.Step.Plain]), enter_eq hm hk, keyLeaves_of_type ht]
  simp only [Option.map_some, Option.bind_some, hty]

/-- The same for a name without a qualifier. -/
theorem effect_name_eq {n : String} {kind : Kind} {type : String → Option String}
    (hn : PathText.IsIdent n) (hk : S.kindAt (p.child ⟨p.module, n⟩) = some kind)
    (ht : kind.type? = some type) (v : String) :
    S.effect p (n, v) = (type v).map fun w => ([⟨some ⟨p.module, n⟩, [], kind.always⟩], w) := by
  have h := effect_leaf_eq (q := none) (n := n) (p := p) ⟨by simp, hn, by simp⟩ rfl hk ht v
  rwa [PathText.Step.text_name] at h

theorem covered_step (hs : s.Named) (hp : s.Plain) {path value : String}
    (h : ∀ r, S.enter p s = some r → S.Covered r.2 (path, value)) :
    S.Covered p (s.text ++ "/" ++ path, value) := by
  intro steps target ha
  rw [address_step hs hp, Option.bind_eq_some_iff] at ha
  obtain ⟨r, hr, ha⟩ := ha
  obtain ⟨a, hbelow, heq⟩ := Option.map_eq_some_iff.mp ha
  obtain ⟨steps', target'⟩ := a
  cases heq
  exact h r hr _ _ hbelow

theorem covered_leaf (hs : s.Named) (hp : s.Plain) {value : String}
    (h : ∀ r, S.enter p s = some r → (S.typeAt r.2).isSome) : S.Covered p (s.text, value) := by
  intro steps target ha
  rw [address_leaf hs hp] at ha
  obtain ⟨r, hr, heq⟩ := Option.map_eq_some_iff.mp ha
  cases heq
  exact h r hr

theorem covered_leaf_of_type {q : Option String} {n m v : String} {kind : Kind}
    {type : String → Option String} (hs : (⟨q, n, []⟩ : PathText.Step).Named)
    (hm : S.stepModule p.module q = some m) (hk : S.kindAt (p.child ⟨m, n⟩) = some kind)
    (ht : kind.type? = some type) : S.Covered p ((⟨q, n, []⟩ : PathText.Step).text, v) := by
  refine covered_leaf hs (by simp [PathText.Step.Plain]) fun r hr => ?_
  rw [enter_eq hm hk] at hr
  obtain ⟨keys, -, rfl⟩ := Option.map_eq_some_iff.mp hr
  simp [typeAt, hk, ht]

theorem covered_name {n v : String} {kind : Kind} {type : String → Option String}
    (hn : PathText.IsIdent n) (hk : S.kindAt (p.child ⟨p.module, n⟩) = some kind)
    (ht : kind.type? = some type) : S.Covered p (n, v) := by
  have h := covered_leaf_of_type (q := none) (n := n) (p := p) (v := v) ⟨by simp, hn, by simp⟩
    rfl hk ht
  rwa [PathText.Step.text_name] at h

theorem covered_of_address_eq_none {path value : String} (h : S.address p path = none) :
    S.Covered p (path, value) :=
  fun steps target ha => by rw [h] at ha; cases ha

theorem covered_of_effect {c : String × String} {op} (h : S.effect p c = some op) :
    S.Covered p c := by
  intro steps target ha
  rw [effect, ha] at h
  cases ht : S.typeAt target with
  | none => simp [ht] at h
  | some type => rfl

/-- Predicates are taken by a list with keys alone, one for each. -/
theorem preds_of_keyLeaves {preds : List (String × String)} {kind : Kind} {keys}
    (h : S.keyLeaves p preds kind = some keys) :
    preds = [] ∨ ∃ ks, kind = .list ks ∧ ks ≠ [] ∧ preds.length = ks.length := by
  by_cases hpreds : preds = []
  · exact Or.inl hpreds
  · right
    cases kind with
    | list ks =>
      have hlen : preds.length = ks.length := by
        by_contra hne
        simp [keyLeaves, hne] at h
      refine ⟨ks, rfl, fun hks => hpreds ?_, hlen⟩
      rw [hks] at hlen
      exact List.length_eq_zero_iff.mp hlen
    | _ => simp [keyLeaves, hpreds] at h

theorem resolve_cons_eq_some_iff {steps : List PathText.Step} {a} :
    S.resolve p (s :: steps) = some a ↔ ∃ r b, S.enter p s = some r ∧
      S.resolve r.2 steps = some b ∧ a = (r.1 :: b.1, b.2) := by
  simp only [resolve, Option.bind_eq_bind, Option.bind_eq_some_iff, Option.some.injEq]
  constructor
  · rintro ⟨r, hr, b, hb, rfl⟩
    exact ⟨r, b, hr, hb, rfl⟩
  · rintro ⟨r, b, hr, hb, rfl⟩
    exact ⟨r, hr, b, hb, rfl⟩

/-- Below a place without keyed lists no path has a predicate. -/
theorem resolve_eq_none_of_keyless : ∀ {steps : List PathText.Step} {p : Place},
    S.KeylessBelow p → PathText.predCount steps ≠ 0 → S.resolve p steps = none := by
  intro steps
  induction steps with
  | nil => intro p _ h; simp [PathText.predCount] at h
  | cons s rest ih =>
    intro p hp hcount
    refine Option.eq_none_iff_forall_ne_some.mpr fun a ha => ?_
    obtain ⟨r, b, he, hb, -⟩ := resolve_cons_eq_some_iff.mp ha
    obtain ⟨m, kind, keys, -, hk, hkeys, rfl⟩ := enter_eq_some_iff.mp he
    -- the step itself has no predicate, so one of the others has
    have hnil : s.preds = [] := by
      rcases preds_of_keyLeaves hkeys with h | ⟨ks, rfl, hks, -⟩
      · exact h
      · exact absurd (hp ⟨m, s.name⟩ [] ks hk) hks
    have hrest : PathText.predCount rest ≠ 0 := by
      simpa [PathText.predCount, hnil] using hcount
    have hbelow : S.KeylessBelow (p.child ⟨m, s.name⟩) := fun q tl ks h =>
      hp ⟨m, s.name⟩ (q :: tl) ks (by simpa using h)
    rw [ih hbelow hrest] at hb
    cases hb

/-- A path that leads somewhere ends at a node of the name of its last step. -/
theorem kind_of_resolve_concat : ∀ {steps : List PathText.Step} {p : Place} {a},
    S.resolve p (steps ++ [s]) = some a →
    ∃ tl m, (S.kind (p.path ++ tl ++ [⟨m, s.name⟩])).isSome := by
  intro steps
  induction steps with
  | nil =>
    intro p a ha
    obtain ⟨r, b, he, -, -⟩ := resolve_cons_eq_some_iff.mp ha
    obtain ⟨m, kind, keys, -, hk, -, -⟩ := enter_eq_some_iff.mp he
    refine ⟨[], m, ?_⟩
    rw [List.append_nil]
    exact Option.isSome_of_eq_some hk
  | cons t steps ih =>
    intro p a ha
    obtain ⟨r, b, he, hb, -⟩ := resolve_cons_eq_some_iff.mp ha
    obtain ⟨m, kind, keys, -, -, -, rfl⟩ := enter_eq_some_iff.mp he
    obtain ⟨tl, m', hsome⟩ := ih hb
    exact ⟨⟨m, t.name⟩ :: tl, m', by simpa using hsome⟩

/-- **A path through flat lists** has at most one predicate, and if it has one it does not end with
a name that does not occur in a list. -/
theorem ListsBelow.resolve {names : List String} : ∀ {steps : List PathText.Step} {p : Place} {a},
    S.ListsBelow p names → S.resolve p steps = some a →
    PathText.predCount steps ≤ 1 ∧ (PathText.predCount steps ≠ 0 →
      ∀ front n, steps = front ++ [⟨none, n, []⟩] → n ∉ names) := by
  intro steps
  induction steps with
  | nil => intro p a _ _; simp [PathText.predCount]
  | cons s rest ih =>
    intro p a hp ha
    obtain ⟨r, b, he, hb, -⟩ := resolve_cons_eq_some_iff.mp ha
    obtain ⟨m, kind, keys, -, hk, hkeys, rfl⟩ := enter_eq_some_iff.mp he
    have hcount : PathText.predCount (s :: rest) = s.preds.length + PathText.predCount rest := by
      rw [PathText.predCount, List.map_cons, List.sum_cons, PathText.predCount]
    rcases preds_of_keyLeaves hkeys with hnil | ⟨ks, rfl, hks, hlen⟩
    · -- the path goes on outside of any list
      have hchild : S.ListsBelow (p.child ⟨m, s.name⟩) names := by
        refine ⟨fun q tl ks h => hp.oneKey ⟨m, s.name⟩ (q :: tl) ks (by simpa using h),
          fun q tl ks h hks r tl' ks' h' => hp.flat ⟨m, s.name⟩ (q :: tl) ks (by simpa using h) hks
            r tl' ks' (by simpa using h'),
          fun q tl ks h hks tl' r h' => hp.unnamed ⟨m, s.name⟩ (q :: tl) ks (by simpa using h) hks
            tl' r (by simpa using h')⟩
      obtain ⟨hle, hlast⟩ := ih hchild hb
      rw [hcount, hnil, List.length_nil, Nat.zero_add]
      refine ⟨hle, fun hne front n heq => ?_⟩
      cases front with
      | nil =>
        obtain ⟨-, rfl⟩ := List.cons.inj heq
        exact absurd rfl hne
      | cons t front => exact hlast hne front n (List.cons.inj heq).2
    · -- the step enters a list, in which there is no other
      have hone := hp.oneKey ⟨m, s.name⟩ [] ks hk
      have hpos := List.length_pos_iff.mpr hks
      have hrest : PathText.predCount rest = 0 := by
        by_contra hne
        have hbelow : S.KeylessBelow (p.child ⟨m, s.name⟩) := fun q tl ks' h =>
          hp.flat ⟨m, s.name⟩ [] ks hk hks q tl ks' h
        rw [resolve_eq_none_of_keyless hbelow hne] at hb
        cases hb
      refine ⟨by omega, fun _ front n heq => ?_⟩
      cases front with
      | nil =>
        obtain ⟨rfl, -⟩ := List.cons.inj heq
        rw [List.length_nil] at hlen
        omega
      | cons t front =>
        obtain ⟨-, rfl⟩ := List.cons.inj heq
        obtain ⟨tl, m', hsome⟩ := kind_of_resolve_concat hb
        exact hp.unnamed ⟨m, s.name⟩ [] ks hk hks tl ⟨m', n⟩ hsome

/-- **The step to an instance of a list with one key.** Whatever its literal turns out to be, the
rest of the path has to account for the apostrophes the step does not account for. -/
theorem address_instance {key w path : String} {a} (hs : s.Named) (hpred : s.preds = [(key, w)])
    (hlist : ∀ m, S.stepModule p.module s.qualifier = some m → ∀ kind,
      S.kindAt (p.child ⟨m, s.name⟩) = some kind → kind = .list [key])
    (ha : S.address p (s.text ++ "/" ++ path) = some a) :
    ∃ m t rest b, S.stepModule p.module s.qualifier = some m ∧
      S.kindAt (p.child ⟨m, s.name⟩) = some (.list [key]) ∧
      PathText.parse (s.text ++ "/" ++ path) = some (t :: rest) ∧
      S.resolve (p.child ⟨m, s.name⟩) rest = some b ∧
      2 * PathText.predCount rest =
        w.toList.count PathText.quote + path.toList.count PathText.quote := by
  obtain ⟨steps, hparse, hres⟩ := Option.bind_eq_some_iff.mp ha
  have hcount := PathText.count_quote_of_parse hparse
  have hslash : "/".toList.count PathText.quote = 0 := by decide
  rw [String.toList_append, String.toList_append, List.count_append, List.count_append,
    PathText.Step.count_quote_text hs, hpred, hslash] at hcount
  obtain ⟨q, n, ps⟩ := s
  cases hpred
  have hparse' := hparse
  rw [String.append_assoc] at hparse'
  obtain ⟨ps, rest, rfl⟩ := PathText.head_of_parse hs hparse'
  obtain ⟨r, b, he, hb, -⟩ := resolve_cons_eq_some_iff.mp hres
  obtain ⟨m, kind, keys, hm, hk, hkeys, rfl⟩ := enter_eq_some_iff.mp he
  obtain rfl := hlist m hm kind hk
  have hlen : ps.length = 1 := by
    by_contra hne
    simp [keyLeaves, hne] at hkeys
  refine ⟨m, _, rest, b, hm, hk, hparse, hb, ?_⟩
  simp only [PathText.predCount, List.map_cons, List.map_nil, List.sum_cons, List.sum_nil,
    List.length_cons, List.length_nil, hlen] at hcount ⊢
  omega

/-- **An apostrophe in the key of an instance**: where the list has one key and no keyed list lies
below it, what the text spells, if it spells a path at all, has too many predicates. -/
theorem address_eq_none_of_quote {key w : String} (hs : s.Named) (hpred : s.preds = [(key, w)])
    (hw : PathText.quote ∈ w.toList)
    (hlist : ∀ m, S.stepModule p.module s.qualifier = some m → ∀ kind,
      S.kindAt (p.child ⟨m, s.name⟩) = some kind →
      kind = .list [key] ∧ S.KeylessBelow (p.child ⟨m, s.name⟩)) (path : String) :
    S.address p (s.text ++ "/" ++ path) = none := by
  refine Option.eq_none_iff_forall_ne_some.mpr fun a ha => ?_
  obtain ⟨m, t, rest, b, hm, hk, -, hb, hcount⟩ :=
    address_instance hs hpred (fun m hm kind hk => (hlist m hm kind hk).1) ha
  have hpos : 1 ≤ w.toList.count PathText.quote := List.count_pos_iff.mpr hw
  rw [resolve_eq_none_of_keyless (hlist m hm _ hk).2 (by omega)] at hb
  cases hb

end SchemaTree

/-! ### Building an instance leaf by leaf -/

/-- The nodes carry no other names than these. -/
def LabelsIn (cs : List LydNode) (qs : List QName) : Prop := ∀ n ∈ cs, ∃ q ∈ qs, n.label = some q

namespace LabelsIn

variable {cs cs' : List LydNode} {q : QName} {qs : List QName}

theorem nil : LabelsIn [] qs := by simp [LabelsIn]

theorem leaf (q : QName) (v : String) : LabelsIn [LydNode.leaf q v] [q] := by
  simp [LabelsIn, LydNode.leaf]

theorem ne (h : LabelsIn cs qs) (hq : q ∉ qs) : ∀ n ∈ cs, n.label ≠ some q := by
  intro n hn hl
  obtain ⟨r, hr, hlabel⟩ := h n hn
  exact hq (Option.some.inj (hl.symm.trans hlabel) ▸ hr)

theorem cons (h : LabelsIn cs qs) (ns : List LydNode) (hp : cs'.Perm (ns ++ cs))
    (hns : ∀ n ∈ ns, n.label = some q) : LabelsIn cs' (q :: qs) := by
  intro n hn
  rcases List.mem_append.mp (hp.subset hn) with hn | hn
  · exact ⟨q, by simp, hns n hn⟩
  · obtain ⟨r, hr, hl⟩ := h n hn
    exact ⟨r, by simp [hr], hl⟩

/-- A leaf that may be absent, where there is none of its name yet. -/
theorem attempts_leaf (h : LabelsIn cs qs) (hq : q ∉ qs) {v : Option String} {bs}
    (ha : Attempts (v.toList.map fun v => ([nodeStep q], v)) bs cs cs') :
    (∀ b ∈ bs, b = true) ∧ cs'.Perm (v.toList.map (LydNode.leaf q) ++ cs) ∧
      LabelsIn cs' (q :: qs) := by
  obtain ⟨hb, hp⟩ := Attempts.optional_leaf (s := nodeStep q) (h.ne hq) ha
  refine ⟨hb, hp, h.cons _ hp fun n hn => ?_⟩
  obtain ⟨w, -, rfl⟩ := List.mem_map.mp hn
  rfl

/-- A container that may be absent, where there is none of its name yet: it is made by the first
of the insertions into it. -/
theorem attempts_container (h : LabelsIn cs qs) (hq : q ∉ qs)
    {ops : List (List (Step (Option QName) String) × String)} (hops : ∀ op ∈ ops, op.1 ≠ []) {bs}
    (ha : Attempts (ops.map (DataTree.under (nodeStep q))) bs cs cs') :
    ∃ ds, Attempts ops bs [] ds ∧ cs'.Perm ((LydNode.container q ds).toList ++ cs) ∧
      LabelsIn cs' (q :: qs) := by
  cases ops with
  | nil => cases ha; exact ⟨[], .nil, .refl _, h.cons [] (.refl _) (by simp)⟩
  | cons op ops =>
    have hop : op.1 ≠ [] := hops op (by simp)
    have hfree : occurs op.1 (nodeStep q).keyLeaves = false := by
      obtain ⟨st, p, hp⟩ := List.exists_cons_of_ne_nil hop
      rw [hp]
      exact DataTree.occurs_of_absent (by simp [nodeStep, Step.keyLeaves])
    obtain ⟨xs, ys, ds, rfl, rfl, hds⟩ := Attempts.create (s := nodeStep q) rfl hop hfree
      (fun n hn => Step.not_matches_of_label (h.ne hq n hn)) ha
    refine ⟨ds, hds, ?_, h.cons [LydNode.inner q ds] List.perm_middle (by simp [LydNode.inner])⟩
    rw [LydNode.container_of_ne_nil (hds.ne_nil hop)]
    exact List.perm_middle

end LabelsIn

end StelleriYang

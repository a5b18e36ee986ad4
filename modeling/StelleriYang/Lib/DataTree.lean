import Mathlib.Data.List.Basic
import Mathlib.Data.List.Perm.Basic

/-!
# Trees of data built by path insertion

A node has a label, possibly a value, and children. A path descends from a list of siblings: each
step names a label and, for an instance of a keyed list, the key leaves it must hold. Inserting a
value at a path reuses the nodes that are there, creates the ones that are missing (an instance
of a keyed list together with its key leaves), and puts the value in a new leaf at the end.

## Where a new node goes

An insertion is a relation, `Grows`, and not a function: between which siblings a new node lands
is left open, because trees of data order siblings by schema or by key as they please. The one
promise is `Step.Places.last`: a node of a label that has no identity of its own (`Step.always`: an
instance of a list without keys) comes after the earlier ones.

## Runs

`Attempts` is a sequence of insertions in which one whose path is taken already is refused. The
lemmas that carry the weight say that a sequence whose paths all begin with one step happens
inside one node (`Attempts.within`, `Attempts.create`, `Attempts.createKey`): a tree that is built
path by path is read off level by level.

## Main definitions

* `DataTree.Tree`, `DataTree.Step`, `DataTree.occurs`
* `DataTree.Grows` — one insertion; `DataTree.graft` — a function that makes one
* `DataTree.Attempts` — a sequence of insertions, refused ones included
* `DataTree.Reaches`, `DataTree.Adds` — which nodes there are, and which an insertion can make

## Main results

* `DataTree.grows_graft` — an insertion is possible wherever the path is not taken
* `DataTree.Attempts.reaches` — a node that is there was there before, or an insertion made it
* `DataTree.Attempts.within`, `DataTree.Attempts.create`, `DataTree.Attempts.groups`
* `DataTree.Attempts.leaf_perm`, `DataTree.Attempts.always_leaf`, `DataTree.Attempts.always_create`
-/

namespace DataTree

/-- A node: its label, its value if it has one, its children in order. -/
inductive Tree (L V : Type) where
  | node (label : L) (value : Option V) (children : List (Tree L V))

variable {L V : Type}

namespace Tree

def label : Tree L V → L
  | node l _ _ => l

def value : Tree L V → Option V
  | node _ v _ => v

def children : Tree L V → List (Tree L V)
  | node _ _ cs => cs

def leaf (l : L) (v : V) : Tree L V := node l (some v) []

/-- The node with other children. -/
def withChildren (n : Tree L V) (cs : List (Tree L V)) : Tree L V := node n.label n.value cs

@[simp] theorem label_node (l : L) (v : Option V) (cs) : (node l v cs).label = l := rfl
@[simp] theorem value_node (l : L) (v : Option V) (cs) : (node l v cs).value = v := rfl
@[simp] theorem children_node (l : L) (v : Option V) (cs) : (node l v cs).children = cs := rfl
@[simp] theorem label_leaf (l : L) (v : V) : (leaf l v).label = l := rfl
@[simp] theorem value_leaf (l : L) (v : V) : (leaf l v).value = some v := rfl
@[simp] theorem children_leaf (l : L) (v : V) : (leaf l v).children = [] := rfl
@[simp] theorem label_withChildren (n : Tree L V) (cs) : (n.withChildren cs).label = n.label := rfl
@[simp] theorem value_withChildren (n : Tree L V) (cs) : (n.withChildren cs).value = n.value := rfl

@[simp] theorem children_withChildren (n : Tree L V) (cs) :
    (n.withChildren cs).children = cs := rfl

@[simp] theorem withChildren_withChildren (n : Tree L V) (cs ds : List (Tree L V)) :
    (n.withChildren cs).withChildren ds = n.withChildren ds := rfl

@[simp] theorem withChildren_children (n : Tree L V) : n.withChildren n.children = n := by
  cases n; rfl

@[simp] theorem withChildren_node (l : L) (v : Option V) (cs ds : List (Tree L V)) :
    (node l v cs).withChildren ds = node l v ds := rfl

end Tree

/-- One step of a path: the label, the key leaves that identify an instance, and whether a step
always makes a new node (there is nothing to identify an old one by). -/
structure Step (L V : Type) where
  label : L
  keys : List (L × V) := []
  always : Bool := false

namespace Step

/-- The key leaves a new instance comes with. -/
def keyLeaves (s : Step L V) : List (Tree L V) := s.keys.map fun k => Tree.leaf k.1 k.2

/-- `n` is the node the step means. -/
def Matches (s : Step L V) (n : Tree L V) : Prop :=
  s.always = false ∧ n.label = s.label ∧
    ∀ k ∈ s.keys, ∃ c ∈ n.children, c.label = k.1 ∧ c.value = some k.2

instance [DecidableEq L] [DecidableEq V] (s : Step L V) (n : Tree L V) : Decidable (s.Matches n) :=
  inferInstanceAs (Decidable (_ ∧ _))

/-- Between `xs` and `ys` there is room for a new node of the step. -/
structure Places (s : Step L V) (xs ys : List (Tree L V)) : Prop where
  absent : ∀ n ∈ xs ++ ys, ¬ s.Matches n
  last : s.always = true → ∀ n ∈ ys, n.label ≠ s.label

theorem matches_keyLeaves {s : Step L V} (hs : s.always = false) (v : Option V) :
    s.Matches (.node s.label v s.keyLeaves) :=
  ⟨hs, rfl, fun k hk => ⟨.leaf k.1 k.2, List.mem_map_of_mem (f := fun k => Tree.leaf k.1 k.2) hk,
    rfl, rfl⟩⟩

theorem not_matches_of_label {s : Step L V} {n : Tree L V} (h : n.label ≠ s.label) :
    ¬ s.Matches n :=
  fun hm => h hm.2.1

theorem not_matches_of_always {s : Step L V} (hs : s.always = true) (n : Tree L V) :
    ¬ s.Matches n :=
  fun hm => by simp [hm.1] at hs

end Step

variable [DecidableEq L] [DecidableEq V]

/-! ### Following a path -/

/-- The path is taken: every step of it finds a node, the first that matches. -/
def occurs : List (Step L V) → List (Tree L V) → Bool
  | [], _ => true
  | s :: p, cs =>
    match cs.find? fun n => decide (s.Matches n) with
    | some n => occurs p n.children
    | none => false

@[simp] theorem occurs_nil (cs : List (Tree L V)) : occurs [] cs = true := rfl

theorem occurs_of_absent {s : Step L V} {p : List (Step L V)} {cs : List (Tree L V)}
    (h : ∀ n ∈ cs, ¬ s.Matches n) : occurs (s :: p) cs = false := by
  have : cs.find? (fun n => decide (s.Matches n)) = none :=
    List.find?_eq_none.mpr fun n hn => by simpa using h n hn
  simp [occurs, this]

theorem occurs_of_first {s : Step L V} {p : List (Step L V)} {xs ys : List (Tree L V)}
    {c : Tree L V} (hx : ∀ x ∈ xs, ¬ s.Matches x) (hc : s.Matches c) :
    occurs (s :: p) (xs ++ c :: ys) = occurs p c.children := by
  have : (xs ++ c :: ys).find? (fun n => decide (s.Matches n)) = some c := by
    have hn : xs.find? (fun n => decide (s.Matches n)) = none :=
      List.find?_eq_none.mpr fun n hn => by simpa using hx n hn
    simp [List.find?_append, hn, hc]
  simp [occurs, this]

/-! ### One insertion -/

/-- `Grows v p cs cs'`: inserting the value `v` at the path `p` turns the siblings `cs` into
`cs'`. -/
inductive Grows (v : V) : List (Step L V) → List (Tree L V) → List (Tree L V) → Prop where
  /-- the path ends here: a new leaf -/
  | leaf {s : Step L V} {xs ys : List (Tree L V)} (h : s.Places xs ys) :
      Grows v [s] (xs ++ ys) (xs ++ .leaf s.label v :: ys)
  /-- a new instance that comes with the rest of the path, which names one of its keys -/
  | whole {s : Step L V} {p : List (Step L V)} {xs ys : List (Tree L V)} (h : s.Places xs ys)
      (hp : p ≠ []) (hk : occurs p s.keyLeaves = true) :
      Grows v (s :: p) (xs ++ ys) (xs ++ .node s.label none s.keyLeaves :: ys)
  /-- a new instance, in which the rest of the path is made -/
  | create {s : Step L V} {p : List (Step L V)} {xs ys cs : List (Tree L V)} (h : s.Places xs ys)
      (hg : Grows v p s.keyLeaves cs) :
      Grows v (s :: p) (xs ++ ys) (xs ++ .node s.label none cs :: ys)
  /-- the first node that matches, in which the rest of the path is made -/
  | descend {s : Step L V} {p : List (Step L V)} {xs ys cs : List (Tree L V)} {c : Tree L V}
      (hx : ∀ x ∈ xs, ¬ s.Matches x) (hc : s.Matches c) (hg : Grows v p c.children cs) :
      Grows v (s :: p) (xs ++ c :: ys) (xs ++ c.withChildren cs :: ys)

/-- Nodes that are there stay, with their value. -/
theorem Grows.preserved {v : V} {p : List (Step L V)} {cs cs' : List (Tree L V)}
    (h : Grows v p cs cs') {c : Tree L V} (hc : c ∈ cs) :
    ∃ c' ∈ cs', c'.label = c.label ∧ c'.value = c.value := by
  have old : ∀ {xs ys : List (Tree L V)} {n : Tree L V}, c ∈ xs ++ ys →
      ∃ c' ∈ xs ++ n :: ys, c'.label = c.label ∧ c'.value = c.value := fun hmem =>
    ⟨c, by rcases List.mem_append.mp hmem with h | h <;> simp [h], rfl, rfl⟩
  cases h with
  | leaf _ => exact old hc
  | whole _ _ _ => exact old hc
  | create _ _ => exact old hc
  | @descend s p xs ys ds d hx hd hg =>
    rcases List.mem_append.mp hc with h | h
    · exact ⟨c, by simp [h], rfl, rfl⟩
    · rcases List.mem_cons.mp h with rfl | h
      · exact ⟨c.withChildren ds, by simp, rfl, rfl⟩
      · exact ⟨c, by simp [h], rfl, rfl⟩

/-- So an instance stays the same instance while its content grows. -/
theorem Step.Matches.grows {s : Step L V} {c : Tree L V} (hc : s.Matches c) {v : V}
    {p : List (Step L V)} {cs : List (Tree L V)} (hg : Grows v p c.children cs) :
    s.Matches (c.withChildren cs) := by
  refine ⟨hc.1, hc.2.1, fun k hk => ?_⟩
  obtain ⟨d, hd, hl, hv⟩ := hc.2.2 k hk
  obtain ⟨d', hd', hl', hv'⟩ := hg.preserved hd
  exact ⟨d', hd', hl'.trans hl, hv'.trans hv⟩

omit [DecidableEq L] [DecidableEq V] in
/-- The first node that matches is determined. -/
theorem first_unique {s : Step L V} : ∀ {xs ys xs' ys' : List (Tree L V)} {c c' : Tree L V},
    (∀ x ∈ xs, ¬ s.Matches x) → s.Matches c → (∀ x ∈ xs', ¬ s.Matches x) → s.Matches c' →
    xs ++ c :: ys = xs' ++ c' :: ys' → xs = xs' ∧ c = c' ∧ ys = ys'
  | [], ys, [], ys', c, c', _, _, _, _, h => by simpa using h
  | [], ys, x' :: xs', ys', c, c', _, hc, hx', _, h => by
    obtain ⟨rfl, -⟩ := List.cons.inj h
    exact absurd hc (hx' _ (by simp))
  | x :: xs, ys, [], ys', c, c', hx, _, _, hc', h => by
    obtain ⟨rfl, -⟩ := List.cons.inj h
    exact absurd hc' (hx _ (by simp))
  | x :: xs, ys, x' :: xs', ys', c, c', hx, hc, hx', hc', h => by
    obtain ⟨rfl, htl⟩ := List.cons.inj h
    obtain ⟨hxs, hcc, hys⟩ := first_unique (fun y hy => hx y (by simp [hy])) hc
      (fun y hy => hx' y (by simp [hy])) hc' htl
    exact ⟨by rw [hxs], hcc, hys⟩

/-- An insertion below a node that is there. -/
theorem Grows.descend_inv {v : V} {s : Step L V} {p : List (Step L V)} {xs ys cs' : List (Tree L V)}
    {c : Tree L V} (hx : ∀ x ∈ xs, ¬ s.Matches x) (hc : s.Matches c)
    (h : Grows v (s :: p) (xs ++ c :: ys) cs') :
    ∃ ds, Grows v p c.children ds ∧ cs' = xs ++ c.withChildren ds :: ys := by
  have hmem : c ∈ xs ++ c :: ys := by simp
  generalize hcs : xs ++ c :: ys = cs at h hmem
  cases h with
  | leaf hs => exact absurd hc (hs.absent c hmem)
  | whole hs _ _ => exact absurd hc (hs.absent c hmem)
  | create hs _ => exact absurd hc (hs.absent c hmem)
  | descend hx' hc' hg =>
    obtain ⟨rfl, rfl, rfl⟩ := first_unique hx hc hx' hc' hcs
    exact ⟨_, hg, rfl⟩

/-- An insertion where no node matches makes one. -/
theorem Grows.create_inv {v : V} {s : Step L V} {p : List (Step L V)} {cs cs' : List (Tree L V)}
    (hs : ∀ n ∈ cs, ¬ s.Matches n) (h : Grows v (s :: p) cs cs') :
    ∃ xs ys n, s.Places xs ys ∧ cs = xs ++ ys ∧ cs' = xs ++ n :: ys ∧
      ((p = [] ∧ n = .leaf s.label v) ∨
        (p ≠ [] ∧ occurs p s.keyLeaves = true ∧ n = .node s.label none s.keyLeaves) ∨
        ∃ ds, Grows v p s.keyLeaves ds ∧ n = .node s.label none ds) := by
  cases h with
  | leaf hpl => exact ⟨_, _, _, hpl, rfl, rfl, Or.inl ⟨rfl, rfl⟩⟩
  | whole hpl hp hk => exact ⟨_, _, _, hpl, rfl, rfl, Or.inr (Or.inl ⟨hp, hk, rfl⟩)⟩
  | create hpl hg => exact ⟨_, _, _, hpl, rfl, rfl, Or.inr (Or.inr ⟨_, hg, rfl⟩)⟩
  | descend hx hc hg => exact absurd hc (hs _ (by simp))

theorem Grows.ne_nil {v : V} {p : List (Step L V)} {cs cs' : List (Tree L V)}
    (h : Grows v p cs cs') : p ≠ [] := by
  cases h <;> simp

/-- An insertion is made only where the path is not taken. -/
theorem Grows.not_occurs {v : V} {p : List (Step L V)} {cs cs' : List (Tree L V)}
    (h : Grows v p cs cs') : occurs p cs = false := by
  induction h with
  | leaf hpl => exact occurs_of_absent hpl.absent
  | whole hpl _ _ => exact occurs_of_absent hpl.absent
  | create hpl _ _ => exact occurs_of_absent hpl.absent
  | descend hx hc _ ih => rw [occurs_of_first hx hc]; exact ih

/-- The step that names a key leaf. -/
def Step.ofLabel (l : L) : Step L V := ⟨l, [], false⟩

theorem occurs_key_of_matches {s : Step L V} {n : Tree L V} (h : s.Matches n) {k : L × V}
    (hk : k ∈ s.keys) : occurs [Step.ofLabel k.1] n.children = true := by
  obtain ⟨c, hc, hl, -⟩ := h.2.2 k hk
  have hm : (Step.ofLabel k.1 : Step L V).Matches c := ⟨rfl, hl, by simp [Step.ofLabel]⟩
  have hsome :
      (n.children.find? fun m => decide ((Step.ofLabel k.1 : Step L V).Matches m)).isSome :=
    List.find?_isSome.mpr ⟨c, hc, by simpa using hm⟩
  obtain ⟨d, hd⟩ := Option.isSome_iff_exists.mp hsome
  rw [occurs, hd]
  rfl

theorem occurs_keyLeaves_eq_false (s a b : Step L V) (p : List (Step L V)) :
    occurs (a :: b :: p) s.keyLeaves = false := by
  rw [occurs]
  split
  · rename_i n hn
    obtain ⟨k, -, rfl⟩ := List.mem_map.mp (List.mem_of_find?_eq_some hn)
    exact occurs_of_absent (by simp)
  · rfl

/-- An insertion into an instance of a keyed list leaves it with its keys: a path to one of them is
taken afterwards. -/
theorem Grows.occurs_key {v : V} {s t : Step L V} {k : L × V} (hk : k ∈ s.keys) :
    ∀ {p : List (Step L V)} {cs cs' : List (Tree L V)}, (∀ u ∈ p ++ [s], u.always = false) →
      Grows v (p ++ [s, t]) cs cs' → occurs (p ++ [s, Step.ofLabel k.1]) cs' = true := by
  intro p
  induction p with
  | nil =>
    intro cs cs' halways h
    have hs : s.always = false := halways s (by simp)
    cases h with
    | whole hpl _ _ =>
      have hm := Step.matches_keyLeaves hs none
      rw [List.nil_append, occurs_of_first (fun x hx => hpl.absent x (by simp [hx])) hm]
      exact occurs_key_of_matches hm hk
    | create hpl hg =>
      have hm := (Step.matches_keyLeaves hs none).grows hg
      rw [List.nil_append]
      exact (occurs_of_first (fun x hx => hpl.absent x (by simp [hx])) hm).trans
        (occurs_key_of_matches hm hk)
    | descend hx hc hg =>
      rw [List.nil_append, occurs_of_first hx (hc.grows hg)]
      exact occurs_key_of_matches (hc.grows hg) hk
  | cons u p ih =>
    intro cs cs' halways h
    have hu : u.always = false := halways u (by simp)
    have hrest : ∀ w ∈ p ++ [s], w.always = false := fun w hw => halways w (by simp at hw ⊢; tauto)
    rw [List.cons_append] at h ⊢
    generalize hq : p ++ [s, t] = q at h
    cases h with
    | leaf _ => simp at hq
    | whole _ _ hocc =>
      -- the key leaves of `u` have nothing below them
      have hlong : ∃ a b r, q = a :: b :: r := by
        rw [← hq]
        rcases p with - | ⟨w, - | ⟨w', p⟩⟩ <;> exact ⟨_, _, _, rfl⟩
      obtain ⟨a, b, r, rfl⟩ := hlong
      rw [occurs_keyLeaves_eq_false] at hocc
      cases hocc
    | create hpl hg =>
      subst hq
      have hm := (Step.matches_keyLeaves hu none).grows hg
      exact (occurs_of_first (fun x hx => hpl.absent x (by simp [hx])) hm).trans (ih hrest hg)
    | descend hx hc hg =>
      subst hq
      rw [occurs_of_first hx (hc.grows hg)]
      exact ih hrest hg

/-! ### What an insertion adds -/

/-- The labels lead from the siblings to a node with this value. -/
inductive Reaches : List (Tree L V) → List L → Option V → Prop where
  | here {cs : List (Tree L V)} {n : Tree L V} (h : n ∈ cs) : Reaches cs [n.label] n.value
  | inside {cs : List (Tree L V)} {n : Tree L V} {ls : List L} {v : Option V} (h : n ∈ cs)
      (hr : Reaches n.children ls v) : Reaches cs (n.label :: ls) v

/-- The nodes an insertion can make: the ones on its path, their key leaves, and the leaf. -/
inductive Adds (v : V) : List (Step L V) → List L → Option V → Prop where
  | leaf {s : Step L V} : Adds v [s] [s.label] (some v)
  | node {s : Step L V} {p : List (Step L V)} (hp : p ≠ []) : Adds v (s :: p) [s.label] none
  | key {s : Step L V} {p : List (Step L V)} {k : L × V} (hk : k ∈ s.keys) :
      Adds v (s :: p) [s.label, k.1] (some k.2)
  | inside {s : Step L V} {p : List (Step L V)} {ls : List L} {x : Option V} (h : Adds v p ls x) :
      Adds v (s :: p) (s.label :: ls) x

omit [DecidableEq L] [DecidableEq V] in
theorem Adds.head {v : V} {s : Step L V} {p : List (Step L V)} {l : L} {ls : List L}
    {x : Option V} (h : Adds v (s :: p) (l :: ls) x) : l = s.label := by
  cases h <;> rfl

omit [DecidableEq L] [DecidableEq V] in
theorem not_adds_nil {v : V} {ls : List L} {x : Option V} : ¬ Adds v ([] : List (Step L V)) ls x :=
  fun h => by cases h

omit [DecidableEq L] [DecidableEq V] in
/-- Below a step without keys. -/
theorem Adds.of_cons {v : V} {s : Step L V} {p : List (Step L V)} {l : L} {ls : List L}
    {x : Option V} (hs : s.keys = []) (hls : ls ≠ []) (h : Adds v (s :: p) (l :: ls) x) :
    Adds v p ls x := by
  generalize hq : s :: p = q at h
  cases h with
  | leaf => exact absurd rfl hls
  | node _ => exact absurd rfl hls
  | key hk =>
    obtain ⟨rfl, -⟩ := List.cons.inj hq
    rw [hs] at hk
    cases hk
  | inside h =>
    obtain ⟨-, rfl⟩ := List.cons.inj hq
    exact h

omit [DecidableEq L] [DecidableEq V] in
/-- A path of one step without keys adds a leaf. -/
theorem Adds.of_singleton {v : V} {s : Step L V} {ls : List L} {x : Option V} (hs : s.keys = [])
    (h : Adds v [s] ls x) : ls = [s.label] ∧ x = some v := by
  cases h with
  | leaf => exact ⟨rfl, rfl⟩
  | node hp => exact absurd rfl hp
  | key hk => rw [hs] at hk; cases hk
  | inside h => exact absurd h not_adds_nil

omit [DecidableEq L] [DecidableEq V] in
theorem Reaches.ne_nil {cs : List (Tree L V)} {ls : List L} {v : Option V}
    (h : Reaches cs ls v) : ls ≠ [] := by
  cases h <;> simp

omit [DecidableEq L] [DecidableEq V] in
theorem Reaches.mono {cs ds : List (Tree L V)} (h : ∀ n ∈ cs, n ∈ ds) {ls : List L} {v : Option V}
    (hr : Reaches cs ls v) : Reaches ds ls v := by
  cases hr with
  | here hn => exact .here (h _ hn)
  | inside hn hr => exact .inside (h _ hn) hr

omit [DecidableEq L] [DecidableEq V] in
@[simp] theorem not_reaches_nil {ls : List L} {v : Option V} :
    ¬ Reaches ([] : List (Tree L V)) ls v := by
  rintro (hn | hn) <;> cases hn

omit [DecidableEq L] [DecidableEq V] in
theorem reaches_cons {n : Tree L V} {cs : List (Tree L V)} {ls : List L} {v : Option V} :
    Reaches (n :: cs) ls v ↔ (ls = [n.label] ∧ v = n.value) ∨
      (∃ ls', ls = n.label :: ls' ∧ Reaches n.children ls' v) ∨ Reaches cs ls v := by
  constructor
  · rintro (⟨hn⟩ | ⟨hn, hr⟩)
    · rcases List.mem_cons.mp hn with rfl | hn
      · exact Or.inl ⟨rfl, rfl⟩
      · exact Or.inr (Or.inr (.here hn))
    · rcases List.mem_cons.mp hn with rfl | hn
      · exact Or.inr (Or.inl ⟨_, rfl, hr⟩)
      · exact Or.inr (Or.inr (.inside hn hr))
  · rintro (⟨rfl, rfl⟩ | ⟨ls', rfl, hr⟩ | hr)
    · exact .here (by simp)
    · exact .inside (by simp) hr
    · exact hr.mono (by simp +contextual)

omit [DecidableEq L] [DecidableEq V] in
theorem reaches_append {cs ds : List (Tree L V)} {ls : List L} {v : Option V} :
    Reaches (cs ++ ds) ls v ↔ Reaches cs ls v ∨ Reaches ds ls v := by
  induction cs with
  | nil => simp
  | cons n cs ih => rw [List.cons_append, reaches_cons, reaches_cons, ih, or_assoc, or_assoc]

omit [DecidableEq L] [DecidableEq V] in
theorem Step.reaches_keyLeaves {s : Step L V} {ls : List L} {v : Option V}
    (h : Reaches s.keyLeaves ls v) : ∃ k ∈ s.keys, ls = [k.1] ∧ v = some k.2 := by
  cases h with
  | here hn =>
    obtain ⟨k, hk, rfl⟩ := List.mem_map.mp hn
    exact ⟨k, hk, rfl, rfl⟩
  | inside hn hr =>
    obtain ⟨k, -, rfl⟩ := List.mem_map.mp hn
    exact absurd hr not_reaches_nil

/-- A node that is there after an insertion was there before, or the insertion made it. -/
theorem Grows.reaches {v : V} {p : List (Step L V)} {cs cs' : List (Tree L V)}
    (h : Grows v p cs cs') : ∀ {ls : List L} {x : Option V}, Reaches cs' ls x →
      Reaches cs ls x ∨ Adds v p ls x := by
  induction h with
  | leaf _ =>
    intro ls x hr
    rw [reaches_append, reaches_cons] at hr
    rw [reaches_append]
    rcases hr with hr | ⟨rfl, rfl⟩ | ⟨ls', -, hr⟩ | hr
    · exact Or.inl (Or.inl hr)
    · exact Or.inr .leaf
    · exact absurd hr not_reaches_nil
    · exact Or.inl (Or.inr hr)
  | whole _ hp _ =>
    intro ls x hr
    rw [reaches_append, reaches_cons] at hr
    rw [reaches_append]
    rcases hr with hr | ⟨rfl, rfl⟩ | ⟨ls', rfl, hr⟩ | hr
    · exact Or.inl (Or.inl hr)
    · exact Or.inr (.node hp)
    · obtain ⟨k, hk, rfl, rfl⟩ := Step.reaches_keyLeaves hr
      exact Or.inr (.key hk)
    · exact Or.inl (Or.inr hr)
  | create _ hg ih =>
    intro ls x hr
    rw [reaches_append, reaches_cons] at hr
    rw [reaches_append]
    rcases hr with hr | ⟨rfl, rfl⟩ | ⟨ls', rfl, hr⟩ | hr
    · exact Or.inl (Or.inl hr)
    · exact Or.inr (.node hg.ne_nil)
    · rcases ih hr with hr | ha
      · obtain ⟨k, hk, rfl, rfl⟩ := Step.reaches_keyLeaves hr
        exact Or.inr (.key hk)
      · exact Or.inr (.inside ha)
    · exact Or.inl (Or.inr hr)
  | descend _ hc _ ih =>
    intro ls x hr
    rw [reaches_append, reaches_cons] at hr
    rw [reaches_append, reaches_cons]
    rcases hr with hr | ⟨rfl, rfl⟩ | ⟨ls', rfl, hr⟩ | hr
    · exact Or.inl (Or.inl hr)
    · exact Or.inl (Or.inr (Or.inl ⟨rfl, rfl⟩))
    · rcases ih hr with hr | ha
      · exact Or.inl (Or.inr (Or.inr (Or.inl ⟨ls', rfl, hr⟩)))
      · right
        rw [Tree.label_withChildren, hc.2.1]
        exact .inside ha
    · exact Or.inl (Or.inr (Or.inr (Or.inr hr)))

/-! ### Sequences of insertions -/

/-- Insertions one after the other: `true` for one that was made, `false` for one that was refused
because its path was taken. -/
inductive Attempts : List (List (Step L V) × V) → List Bool → List (Tree L V) → List (Tree L V) →
    Prop where
  | nil {cs : List (Tree L V)} : Attempts [] [] cs cs
  | grown {p : List (Step L V)} {v : V} {ops bs} {cs ds es : List (Tree L V)}
      (ho : occurs p cs = false) (hg : Grows v p cs ds) (h : Attempts ops bs ds es) :
      Attempts ((p, v) :: ops) (true :: bs) cs es
  | refused {p : List (Step L V)} {v : V} {ops bs} {cs es : List (Tree L V)}
      (ho : occurs p cs = true) (h : Attempts ops bs cs es) :
      Attempts ((p, v) :: ops) (false :: bs) cs es

/-- An insertion one level further up. -/
def under (s : Step L V) (op : List (Step L V) × V) : List (Step L V) × V := (s :: op.1, op.2)

theorem Attempts.append_inv {ops₁ ops₂ : List (List (Step L V) × V)} :
    ∀ {bs} {cs es : List (Tree L V)}, Attempts (ops₁ ++ ops₂) bs cs es →
      ∃ bs₁ bs₂ ds, bs = bs₁ ++ bs₂ ∧ Attempts ops₁ bs₁ cs ds ∧ Attempts ops₂ bs₂ ds es := by
  induction ops₁ with
  | nil => intro bs cs es h; exact ⟨[], bs, cs, rfl, .nil, h⟩
  | cons op ops₁ ih =>
    intro bs cs es h
    cases h with
    | grown ho hg h =>
      obtain ⟨bs₁, bs₂, ds, rfl, h₁, h₂⟩ := ih h
      exact ⟨true :: bs₁, bs₂, ds, rfl, .grown ho hg h₁, h₂⟩
    | refused ho h =>
      obtain ⟨bs₁, bs₂, ds, rfl, h₁, h₂⟩ := ih h
      exact ⟨false :: bs₁, bs₂, ds, rfl, .refused ho h₁, h₂⟩

/-- **A sequence below one step happens inside the node the step finds.** -/
theorem Attempts.within {s : Step L V} : ∀ {ops : List (List (Step L V) × V)} {bs}
    {xs ys cs' : List (Tree L V)} {c : Tree L V}, (∀ x ∈ xs, ¬ s.Matches x) → s.Matches c →
    Attempts (ops.map (under s)) bs (xs ++ c :: ys) cs' →
    ∃ ds, Attempts ops bs c.children ds ∧ cs' = xs ++ c.withChildren ds :: ys := by
  intro ops
  induction ops with
  | nil =>
    intro bs xs ys cs' c _ _ h
    cases h
    exact ⟨c.children, .nil, by simp⟩
  | cons op ops ih =>
    intro bs xs ys cs' c hx hc h
    rw [List.map_cons] at h
    cases h with
    | grown ho hg h =>
      obtain ⟨ds, hg', rfl⟩ := Grows.descend_inv hx hc hg
      rw [occurs_of_first hx hc] at ho
      obtain ⟨es, hes, rfl⟩ := ih hx (hc.grows hg') h
      exact ⟨es, .grown ho hg' hes, by simp⟩
    | refused ho h =>
      rw [occurs_of_first hx hc] at ho
      obtain ⟨es, hes, rfl⟩ := ih hx hc h
      exact ⟨es, .refused ho hes, rfl⟩

/-- **A sequence below a step that finds no node happens inside a new one.** -/
theorem Attempts.create {s : Step L V} (hs : s.always = false)
    {op : List (Step L V) × V} {ops : List (List (Step L V) × V)} (hp : op.1 ≠ [])
    (ho : occurs op.1 s.keyLeaves = false) {bs} {cs cs' : List (Tree L V)}
    (habs : ∀ n ∈ cs, ¬ s.Matches n) (h : Attempts ((op :: ops).map (under s)) bs cs cs') :
    ∃ xs ys ds, cs = xs ++ ys ∧ cs' = xs ++ .node s.label none ds :: ys ∧
      Attempts (op :: ops) bs s.keyLeaves ds := by
  rw [List.map_cons] at h
  cases h with
  | refused ho' _ => rw [occurs_of_absent habs] at ho'; cases ho'
  | grown _ hg h =>
    obtain ⟨xs, ys, n, hpl, rfl, rfl, hn⟩ := Grows.create_inv habs hg
    rcases hn with ⟨hnil, -⟩ | ⟨-, hocc, -⟩ | ⟨ds, hds, rfl⟩
    · exact absurd hnil hp
    · rw [ho] at hocc; cases hocc
    · obtain ⟨es, hes, rfl⟩ := Attempts.within (fun x hx => habs x (by simp [hx]))
        ((Step.matches_keyLeaves hs none).grows hds) h
      exact ⟨xs, ys, es, rfl, by simp, .grown ho hds hes⟩

/-- The same when the first path of the sequence names a key of the new instance: the instance
comes with it. -/
theorem Attempts.createKey {s : Step L V} (hs : s.always = false)
    {op : List (Step L V) × V} {ops : List (List (Step L V) × V)} (hp : op.1 ≠ [])
    (ho : occurs op.1 s.keyLeaves = true) {bs} {cs cs' : List (Tree L V)}
    (habs : ∀ n ∈ cs, ¬ s.Matches n) (h : Attempts ((op :: ops).map (under s)) bs cs cs') :
    ∃ bs' xs ys ds, bs = true :: bs' ∧ cs = xs ++ ys ∧ cs' = xs ++ .node s.label none ds :: ys ∧
      Attempts ops bs' s.keyLeaves ds := by
  rw [List.map_cons] at h
  cases h with
  | refused ho' _ => rw [occurs_of_absent habs] at ho'; cases ho'
  | grown _ hg h =>
    obtain ⟨xs, ys, n, hpl, rfl, rfl, hn⟩ := Grows.create_inv habs hg
    have hx : ∀ x ∈ xs, ¬ s.Matches x := fun x hx => habs x (by simp [hx])
    rcases hn with ⟨hnil, -⟩ | ⟨-, -, rfl⟩ | ⟨ds, hds, rfl⟩
    · exact absurd hnil hp
    · obtain ⟨es, hes, rfl⟩ := Attempts.within hx (Step.matches_keyLeaves hs none) h
      exact ⟨_, xs, ys, es, rfl, rfl, by simp, hes⟩
    · -- a path that is taken cannot be made
      rw [hds.not_occurs] at ho
      cases ho

/-- A single leaf where there is none of its label. -/
theorem Attempts.leaf_perm {s : Step L V} {v : V} {bs} {cs cs' : List (Tree L V)}
    (habs : ∀ n ∈ cs, n.label ≠ s.label) (h : Attempts [([s], v)] bs cs cs') :
    bs = [true] ∧ cs'.Perm (.leaf s.label v :: cs) := by
  have habs' : ∀ n ∈ cs, ¬ s.Matches n := fun n hn => Step.not_matches_of_label (habs n hn)
  cases h with
  | refused ho' _ => rw [occurs_of_absent habs'] at ho'; cases ho'
  | grown _ hg h =>
    cases h
    obtain ⟨xs, ys, n, hpl, rfl, rfl, hn⟩ := Grows.create_inv habs' hg
    rcases hn with ⟨-, rfl⟩ | ⟨hne, -⟩ | ⟨ds, hds, -⟩
    · exact ⟨rfl, List.perm_middle⟩
    · exact absurd rfl hne
    · exact absurd rfl hds.ne_nil

/-- **Nothing comes from nowhere.** A node that is there after a sequence of insertions was there
before, or one of them made it. -/
theorem Attempts.reaches : ∀ {ops : List (List (Step L V) × V)} {bs} {cs cs' : List (Tree L V)},
    Attempts ops bs cs cs' → ∀ {ls : List L} {x : Option V}, Reaches cs' ls x →
      Reaches cs ls x ∨ ∃ op ∈ ops, Adds op.2 op.1 ls x := by
  intro ops bs cs cs' h
  induction h with
  | nil => intro ls x hr; exact Or.inl hr
  | grown _ hg _ ih =>
    intro ls x hr
    rcases ih hr with hr | ⟨op, hop, ha⟩
    · rcases hg.reaches hr with hr | ha
      · exact Or.inl hr
      · exact Or.inr ⟨(_, _), List.mem_cons_self, ha⟩
    · exact Or.inr ⟨op, by simp [hop], ha⟩
  | refused _ _ ih =>
    intro ls x hr
    rcases ih hr with hr | ⟨op, hop, ha⟩
    · exact Or.inl hr
    · exact Or.inr ⟨op, by simp [hop], ha⟩

/-- Nodes that are there stay, with their value. -/
theorem Attempts.preserved {ops : List (List (Step L V) × V)} {bs} {cs cs' : List (Tree L V)}
    (h : Attempts ops bs cs cs') : ∀ {c : Tree L V}, c ∈ cs →
      ∃ c' ∈ cs', c'.label = c.label ∧ c'.value = c.value := by
  induction h with
  | nil => intro c hc; exact ⟨c, hc, rfl, rfl⟩
  | grown _ hg _ ih =>
    intro c hc
    obtain ⟨d, hd, hl, hv⟩ := hg.preserved hc
    obtain ⟨e, he, hl', hv'⟩ := ih hd
    exact ⟨e, he, hl'.trans hl, hv'.trans hv⟩
  | refused _ _ ih => exact ih

/-- An insertion among no siblings makes one, and it stays. -/
theorem Attempts.ne_nil {op : List (Step L V) × V} {ops : List (List (Step L V) × V)} {bs}
    {cs' : List (Tree L V)} (hp : op.1 ≠ []) (h : Attempts (op :: ops) bs [] cs') : cs' ≠ [] := by
  obtain ⟨s, p, hsp⟩ := List.exists_cons_of_ne_nil hp
  obtain ⟨q, v⟩ := op
  subst hsp
  cases h with
  | refused ho _ => rw [occurs_of_absent (by simp)] at ho; cases ho
  | grown _ hg h =>
    obtain ⟨xs, ys, n, -, -, rfl, -⟩ := Grows.create_inv (by simp) hg
    obtain ⟨n', hn', -⟩ := h.preserved (c := n) (by simp)
    exact List.ne_nil_of_mem hn'

/-- Leaves that may be absent, where there is none of their label. -/
theorem Attempts.optional_leaf {s : Step L V} {v : Option V} {bs} {cs cs' : List (Tree L V)}
    (habs : ∀ n ∈ cs, n.label ≠ s.label)
    (h : Attempts (v.toList.map fun v => ([s], v)) bs cs cs') :
    (∀ b ∈ bs, b = true) ∧ cs'.Perm (v.toList.map (Tree.leaf s.label) ++ cs) := by
  cases v with
  | none => cases h; exact ⟨by simp, .refl _⟩
  | some v =>
    obtain ⟨rfl, hp⟩ := Attempts.leaf_perm habs h
    exact ⟨by simp, by simpa using hp⟩

/-- **Instances of a keyed list, one group of insertions for each.** The first insertion of a group
names a key of its instance and so creates it; the others happen inside. No instance is taken for
that of a later group. -/
theorem Attempts.groups {G : Type} {s : G → Step L V} {f : G → List (Step L V) × V}
    {r : G → List (List (Step L V) × V)} :
    ∀ {gs : List G} {bs} {cs cs' : List (Tree L V)},
      (∀ g ∈ gs, (s g).always = false ∧ (f g).1 ≠ [] ∧
        occurs (f g).1 (s g).keyLeaves = true) →
      gs.Pairwise (fun g g' => ∀ bs ds, Attempts (r g) bs (s g).keyLeaves ds →
        ¬ (s g').Matches (.node (s g).label none ds)) →
      (∀ g ∈ gs, ∀ n ∈ cs, ¬ (s g).Matches n) →
      Attempts (gs.flatMap fun g => (f g :: r g).map (under (s g))) bs cs cs' →
      ∃ ns, cs'.Perm (ns ++ cs) ∧
        List.Forall₂ (fun g n => ∃ bs ds, n = .node (s g).label none ds ∧
          Attempts (r g) bs (s g).keyLeaves ds) gs ns ∧
        ((∀ g ∈ gs, ∀ bs ds, Attempts (r g) bs (s g).keyLeaves ds → ∀ b ∈ bs, b = true) →
          ∀ b ∈ bs, b = true) := by
  intro gs
  induction gs with
  | nil => intro bs cs cs' _ _ _ h; cases h; exact ⟨[], .refl _, .nil, by simp⟩
  | cons g gs ih =>
    intro bs cs cs' hgs hsep habs h
    obtain ⟨hs, hp, ho⟩ := hgs g (by simp)
    obtain ⟨hsep₁, hsep₂⟩ := List.pairwise_cons.mp hsep
    rw [List.flatMap_cons] at h
    obtain ⟨bs₁, bs₂, cs₁, rfl, h₁, h₂⟩ := Attempts.append_inv h
    obtain ⟨bs', xs, ys, ds, rfl, rfl, rfl, hds⟩ :=
      Attempts.createKey hs hp ho (habs g (by simp)) h₁
    have habs' : ∀ g' ∈ gs, ∀ n ∈ xs ++ .node (s g).label none ds :: ys,
        ¬ (s g').Matches n := by
      intro g' hg' n hn
      rcases List.mem_append.mp hn with hn | hn
      · exact habs g' (by simp [hg']) n (by simp [hn])
      · rcases List.mem_cons.mp hn with rfl | hn
        · exact hsep₁ g' hg' bs' ds hds
        · exact habs g' (by simp [hg']) n (by simp [hn])
    obtain ⟨ns, hperm, hall, hflags⟩ :=
      ih (fun g' hg' => hgs g' (by simp [hg'])) hsep₂ habs' h₂
    refine ⟨.node (s g).label none ds :: ns, ?_, .cons ⟨bs', ds, rfl, hds⟩ hall, ?_⟩
    · refine hperm.trans ?_
      rw [List.cons_append]
      exact (List.Perm.append_left ns List.perm_middle).trans List.perm_middle
    · intro hgood b hb
      rcases List.mem_append.mp hb with hb | hb
      · rcases List.mem_cons.mp hb with rfl | hb
        · rfl
        · exact hgood g (by simp) bs' ds hds b hb
      · exact hflags (fun g' hg' => hgood g' (by simp [hg'])) b hb

/-! Nodes without identity: each insertion makes one more, behind the ones that are there. -/

omit [DecidableEq L] [DecidableEq V] in
/-- Among siblings that are all instances of the step, a new instance is the last. -/
theorem Step.Places.eq_nil {s : Step L V} {xs ys : List (Tree L V)} (h : s.Places xs ys)
    (hs : s.always = true) (hl : ∀ n ∈ xs ++ ys, n.label = s.label) : ys = [] := by
  cases ys with
  | nil => rfl
  | cons y ys => exact absurd (hl y (by simp)) (h.last hs y (by simp))

theorem Attempts.always_leaf {s : Step L V} (hs : s.always = true) : ∀ {vs : List V} {bs}
    {cs cs' : List (Tree L V)}, (∀ n ∈ cs, n.label = s.label) →
    Attempts (vs.map fun v => ([s], v)) bs cs cs' →
    (∀ b ∈ bs, b = true) ∧ cs' = cs ++ vs.map (Tree.leaf s.label) := by
  intro vs
  induction vs with
  | nil => intro bs cs cs' _ h; cases h; simp
  | cons v vs ih =>
    intro bs cs cs' hl h
    have habs : ∀ n ∈ cs, ¬ s.Matches n := fun n _ => Step.not_matches_of_always hs n
    rw [List.map_cons] at h
    cases h with
    | refused ho _ => rw [occurs_of_absent habs] at ho; cases ho
    | grown _ hg h =>
      obtain ⟨xs, ys, n, hpl, rfl, rfl, hn⟩ := Grows.create_inv habs hg
      obtain rfl := hpl.eq_nil hs hl
      rcases hn with ⟨-, rfl⟩ | ⟨hne, -⟩ | ⟨ds, hds, -⟩
      · obtain ⟨hb, rfl⟩ := ih (by simpa [or_imp, forall_and] using hl) h
        exact ⟨by simpa using hb, by simp⟩
      · exact absurd rfl hne
      · exact absurd rfl hds.ne_nil

/-- The same for instances without keys that hold one leaf. -/
theorem Attempts.always_create {s k : Step L V} (hs : s.always = true) (hk : s.keys = []) :
    ∀ {vs : List V} {bs} {cs cs' : List (Tree L V)}, (∀ n ∈ cs, n.label = s.label) →
    Attempts (vs.map fun v => ([s, k], v)) bs cs cs' →
    (∀ b ∈ bs, b = true) ∧
      cs' = cs ++ vs.map fun v => .node s.label none [.leaf k.label v] := by
  intro vs
  induction vs with
  | nil => intro bs cs cs' _ h; cases h; simp
  | cons v vs ih =>
    intro bs cs cs' hl h
    have habs : ∀ n ∈ cs, ¬ s.Matches n := fun n _ => Step.not_matches_of_always hs n
    have hkl : s.keyLeaves = [] := by simp [Step.keyLeaves, hk]
    rw [List.map_cons] at h
    cases h with
    | refused ho _ => rw [occurs_of_absent habs] at ho; cases ho
    | grown _ hg h =>
      obtain ⟨xs, ys, n, hpl, rfl, rfl, hn⟩ := Grows.create_inv habs hg
      obtain rfl := hpl.eq_nil hs hl
      rcases hn with ⟨hne, -⟩ | ⟨-, hocc, -⟩ | ⟨ds, hds, rfl⟩
      · cases hne
      · rw [hkl] at hocc; cases hocc
      · rw [hkl] at hds
        obtain ⟨xs', ys', m, -, hnil, rfl, hm⟩ := Grows.create_inv (by simp) hds
        obtain ⟨rfl, rfl⟩ := List.append_eq_nil_iff.mp hnil.symm
        rcases hm with ⟨-, rfl⟩ | ⟨hne, -⟩ | ⟨es, hes, -⟩
        · obtain ⟨hb, rfl⟩ := ih (by simpa [or_imp, forall_and] using hl) h
          exact ⟨by simpa using hb, by simp⟩
        · exact absurd rfl hne
        · exact absurd rfl hes.ne_nil

/-! ### A function that inserts

New nodes go to the end. -/

/-- The siblings before the first node that matches, the node, and the ones after it. -/
def splitAtFirst (s : Step L V) :
    List (Tree L V) → Option (List (Tree L V) × Tree L V × List (Tree L V))
  | [] => none
  | n :: ns =>
    if s.Matches n then some ([], n, ns)
    else (splitAtFirst s ns).map fun r => (n :: r.1, r.2)

/-- Insert `v` at a path that is not taken. -/
def graft (v : V) : List (Step L V) → List (Tree L V) → List (Tree L V)
  | [], cs => cs
  | [s], cs =>
    match splitAtFirst s cs with
    | some _ => cs
    | none => cs ++ [.leaf s.label v]
  | s :: p, cs =>
    match splitAtFirst s cs with
    | some (xs, c, ys) => xs ++ c.withChildren (graft v p c.children) :: ys
    | none =>
      cs ++ [.node s.label none
        (if occurs p s.keyLeaves then s.keyLeaves else graft v p s.keyLeaves)]

theorem splitAtFirst_eq_some {s : Step L V} : ∀ {cs xs ys : List (Tree L V)} {c : Tree L V},
    splitAtFirst s cs = some (xs, c, ys) →
    cs = xs ++ c :: ys ∧ (∀ x ∈ xs, ¬ s.Matches x) ∧ s.Matches c := by
  intro cs
  induction cs with
  | nil => intro xs ys c h; cases h
  | cons n ns ih =>
    intro xs ys c h
    rw [splitAtFirst] at h
    split at h
    · rename_i hm
      cases h
      exact ⟨rfl, by simp, hm⟩
    · rename_i hm
      obtain ⟨⟨xs', c', ys'⟩, hr, heq⟩ := Option.map_eq_some_iff.mp h
      cases heq
      obtain ⟨rfl, hx, hc⟩ := ih hr
      exact ⟨rfl, by simpa [hm] using hx, hc⟩

theorem splitAtFirst_eq_none {s : Step L V} : ∀ {cs : List (Tree L V)},
    splitAtFirst s cs = none → ∀ n ∈ cs, ¬ s.Matches n := by
  intro cs
  induction cs with
  | nil => intro _ n hn; cases hn
  | cons n ns ih =>
    intro h
    rw [splitAtFirst] at h
    split at h
    · cases h
    · rename_i hm
      simpa [hm] using ih (Option.map_eq_none_iff.mp h)

omit [DecidableEq L] [DecidableEq V] in
theorem Step.places_end {s : Step L V} {cs : List (Tree L V)} (h : ∀ n ∈ cs, ¬ s.Matches n) :
    s.Places cs [] :=
  ⟨by simpa using h, by simp⟩

/-- **An insertion is possible wherever the path is not taken.** -/
theorem grows_graft (v : V) : ∀ {p : List (Step L V)} {cs : List (Tree L V)}, p ≠ [] →
    occurs p cs = false → Grows v p cs (graft v p cs) := by
  intro p
  induction p with
  | nil => intro cs h; exact absurd rfl h
  | cons s p ih =>
    intro cs _ ho
    cases hsp : splitAtFirst s cs with
    | some r =>
      obtain ⟨xs, c, ys⟩ := r
      obtain ⟨rfl, hx, hc⟩ := splitAtFirst_eq_some hsp
      rw [occurs_of_first hx hc] at ho
      have hp : p ≠ [] := by rintro rfl; simp at ho
      obtain ⟨t, q, rfl⟩ := List.exists_cons_of_ne_nil hp
      rw [graft, hsp]
      · exact .descend hx hc (ih hp ho)
      · simp
    | none =>
      have habs := splitAtFirst_eq_none hsp
      cases p with
      | nil =>
        rw [graft, hsp]
        simpa using Grows.leaf (Step.places_end habs) (v := v)
      | cons t q =>
        rw [graft, hsp]
        · cases hocc : occurs (t :: q) s.keyLeaves with
          | true => simpa [hocc] using Grows.whole (Step.places_end habs) (by simp) hocc (v := v)
          | false =>
            simpa [hocc] using Grows.create (Step.places_end habs) (ih (by simp) hocc)
        · simp

/-- Every sequence can be attempted. -/
theorem exists_attempts : ∀ (ops : List (List (Step L V) × V)) (cs : List (Tree L V)),
    ∃ bs cs', Attempts ops bs cs cs' := by
  intro ops
  induction ops with
  | nil => intro cs; exact ⟨[], cs, .nil⟩
  | cons op ops ih =>
    intro cs
    obtain ⟨p, v⟩ := op
    cases ho : occurs p cs with
    | true =>
      obtain ⟨bs, cs', h⟩ := ih cs
      exact ⟨_, cs', .refused ho h⟩
    | false =>
      have hp : p ≠ [] := by rintro rfl; simp at ho
      obtain ⟨bs, cs', h⟩ := ih (graft v p cs)
      exact ⟨_, cs', .grown ho (grows_graft v hp ho) h⟩

end DataTree

import StelleriYang.Lib.DataTree

/-!
# Deleting what a reader of a tree does not look at

A reader looks below a node for children of certain names: for the first child of a name, or for
every child of it, and below these it looks for children again. Children of other names it never
looks at, nor children that stand behind the first of a name of which it takes the first.

`Tree.prune` deletes such children, with everything below them, where a predicate on labels allows
it. What is deleted at one node makes no difference to the nodes that stay: a lookup in the pruned
tree finds the node it found before, pruned.

## Main definitions

* `Reads` — what a reader looks for
* `Tree.prune` — the tree without deletable subtrees that are not looked at

## Main results

* `find?_children_prune` — the first child of a name
* `filter_children_prune` — the children of a name
-/

namespace DataTree

/-- How many children of a name a reader takes. -/
inductive Take where
  | first | all
  deriving DecidableEq, Repr

/-- What a reader looks for: names of children, and for each what it looks for below. -/
inductive Reads (K : Type) where
  | node (entries : List (K × Take × Reads K))

namespace Reads

variable {K : Type} [DecidableEq K]

/-- The reader takes the value of the node and does not look below. -/
def nothing : Reads K := node []

def entries : Reads K → List (K × Take × Reads K)
  | node es => es

/-- How the reader looks for children of a name, if it does. -/
def takes (r : Reads K) (k : Option K) : Option Take :=
  (k.bind fun k => r.entries.lookup k).map Prod.fst

/-- What the reader looks for below a child. -/
def beneath (r : Reads K) (k : Option K) : Reads K :=
  ((k.bind fun k => r.entries.lookup k).map Prod.snd).getD nothing

/-- The reader looks at a child of the name `k` that comes after children of the names `seen`. -/
def wants (r : Reads K) (seen : List (Option K)) (k : Option K) : Bool :=
  match r.takes k with
  | some .all => true
  | some .first => decide (k ∉ seen)
  | none => false

theorem wants_of_all {r : Reads K} {k : Option K} (h : r.takes k = some .all)
    (seen : List (Option K)) : r.wants seen k = true := by
  rw [wants, h]

theorem wants_of_first {r : Reads K} {k : Option K} (h : r.takes k = some .first)
    {seen : List (Option K)} (hk : k ∉ seen) : r.wants seen k = true := by
  rw [wants, h]
  simpa using hk

end Reads

section Prune

variable {L V K : Type} [DecidableEq K] (name : L → Option K) (drop : L → Bool)

mutual

/-- The tree without the subtrees that `drop` gives up and the reader does not look at. -/
def Tree.prune (r : Reads K) : Tree L V → Tree L V
  | .node l v cs => .node l v (pruneAll r [] cs)

/-- The same for the children of a node, after children of the names `seen`. -/
def pruneAll (r : Reads K) (seen : List (Option K)) : List (Tree L V) → List (Tree L V)
  | [] => []
  | c :: cs =>
    if drop c.label && !r.wants seen (name c.label) then pruneAll r seen cs
    else c.prune (r.beneath (name c.label)) :: pruneAll r (name c.label :: seen) cs

end

variable {name drop}

@[simp] theorem Tree.label_prune (r : Reads K) (n : Tree L V) :
    (n.prune name drop r).label = n.label := by
  cases n
  simp [Tree.prune]

@[simp] theorem Tree.value_prune (r : Reads K) (n : Tree L V) :
    (n.prune name drop r).value = n.value := by
  cases n
  simp [Tree.prune]

theorem Tree.children_prune (r : Reads K) (n : Tree L V) :
    (n.prune name drop r).children = pruneAll name drop r [] n.children := by
  cases n
  simp [Tree.prune]

/-- Children of a name of which the reader takes all: none is deleted. -/
theorem filter_pruneAll {r : Reads K} {k : Option K} (h : r.takes k = some .all)
    (cs : List (Tree L V)) : ∀ seen : List (Option K),
      (pruneAll name drop r seen cs).filter (fun c => name c.label == k) =
        (cs.filter fun c => name c.label == k).map (Tree.prune name drop (r.beneath k)) := by
  induction cs with
  | nil => intro seen; simp [pruneAll]
  | cons c cs ih =>
    intro seen
    rw [pruneAll, List.filter_cons]
    by_cases hc : name c.label = k
    · have hkeep : (drop c.label && !r.wants seen (name c.label)) = false := by
        simp [hc, Reads.wants_of_all h]
      rw [hkeep, if_neg Bool.false_ne_true, List.filter_cons]
      simp only [Tree.label_prune, hc, beq_self_eq_true, if_true, List.map_cons, ih]
    · have hne : (name c.label == k) = false := beq_eq_false_iff_ne.mpr hc
      rw [hne, if_neg Bool.false_ne_true]
      split
      · exact ih seen
      · rw [List.filter_cons, Tree.label_prune, hne, if_neg Bool.false_ne_true, ih]

/-- The first child of a name of which the reader takes the first: it is not deleted, and what
stood before it was of another name. -/
theorem find?_pruneAll {r : Reads K} {k : Option K} (h : r.takes k = some .first)
    (cs : List (Tree L V)) : ∀ seen : List (Option K), k ∉ seen →
      (pruneAll name drop r seen cs).find? (fun c => name c.label == k) =
        (cs.find? fun c => name c.label == k).map (Tree.prune name drop (r.beneath k)) := by
  induction cs with
  | nil => intro seen _; simp [pruneAll]
  | cons c cs ih =>
    intro seen hseen
    rw [pruneAll, List.find?_cons]
    by_cases hc : name c.label = k
    · have hkeep : (drop c.label && !r.wants seen (name c.label)) = false := by
        simp [hc, Reads.wants_of_first h hseen]
      rw [hkeep, if_neg Bool.false_ne_true, List.find?_cons]
      simp only [Tree.label_prune, hc, beq_self_eq_true, Option.map_some]
    · have hne : (name c.label == k) = false := beq_eq_false_iff_ne.mpr hc
      simp only [hne]
      split
      · exact ih seen hseen
      · rw [List.find?_cons, Tree.label_prune, hne]
        refine ih _ fun hmem => ?_
        rcases List.mem_cons.mp hmem with heq | hmem
        · exact hc heq.symm
        · exact hseen hmem

/-- **The first child of a name, in the pruned tree.** -/
theorem find?_children_prune {r : Reads K} {k : Option K} (h : r.takes k = some .first)
    (n : Tree L V) : (n.prune name drop r).children.find? (fun c => name c.label == k) =
      (n.children.find? fun c => name c.label == k).map (Tree.prune name drop (r.beneath k)) := by
  rw [Tree.children_prune]
  exact find?_pruneAll h n.children [] (by simp)

/-- **The children of a name, in the pruned tree.** -/
theorem filter_children_prune {r : Reads K} {k : Option K} (h : r.takes k = some .all)
    (n : Tree L V) : (n.prune name drop r).children.filter (fun c => name c.label == k) =
      (n.children.filter fun c => name c.label == k).map (Tree.prune name drop (r.beneath k)) := by
  rw [Tree.children_prune]
  exact filter_pruneAll h n.children []

end Prune

end DataTree

import StelleriYang.Lib.DataTree
import Mathlib.Data.Option.Basic

/-!
# Trees that differ in the order of siblings

In a tree of data the order of two siblings says something only if they have the same name: then
they are entries of one list. Two lists of siblings are shuffles of each other if siblings of
different names have changed places, here or further down, and siblings without a name have come or
gone. A reader that looks children up by their name does not see the difference.

## Main definitions

* `Shuffle` — lists of siblings that differ in this way
* `Alike` — two nodes whose children do

## Main results

* `Shuffle.refl`
* `Shuffle.filter` — the children of one name are the same, in the same order, up to shuffles
* `Shuffle.find?` — and so is the first of them
-/

namespace DataTree

variable {L V K : Type} (name : L → Option K)

/-- The siblings are the same, but for the order of those that have different names, and for those
that have none; likewise below. -/
inductive Shuffle : List (Tree L V) → List (Tree L V) → Prop where
  | nil : Shuffle [] []
  | cons {l : L} {v : Option V} {cs cs' ds ds' : List (Tree L V)} :
      Shuffle cs cs' → Shuffle ds ds' → Shuffle (.node l v cs :: ds) (.node l v cs' :: ds')
  | swap {c d : Tree L V} {ds : List (Tree L V)} :
      name c.label ≠ name d.label → Shuffle (c :: d :: ds) (d :: c :: ds)
  | skip {c : Tree L V} {cs : List (Tree L V)} : name c.label = none → Shuffle (c :: cs) cs
  | symm {cs ds : List (Tree L V)} : Shuffle cs ds → Shuffle ds cs
  | trans {cs ds es : List (Tree L V)} : Shuffle cs ds → Shuffle ds es → Shuffle cs es

/-- The nodes are the same, but for the order of their children. -/
structure Alike (n n' : Tree L V) : Prop where
  label : n.label = n'.label
  value : n.value = n'.value
  children : Shuffle name n.children n'.children

variable {name}

theorem Shuffle.refl : ∀ cs : List (Tree L V), Shuffle name cs cs
  | [] => .nil
  | .node _ _ cs :: ds => .cons (refl cs) (refl ds)

theorem Alike.refl (n : Tree L V) : Alike name n n := ⟨rfl, rfl, .refl n.children⟩

theorem Alike.symm {n n' : Tree L V} (h : Alike name n n') : Alike name n' n :=
  ⟨h.label.symm, h.value.symm, h.children.symm⟩

theorem Alike.trans {n n' n'' : Tree L V} (h : Alike name n n') (h' : Alike name n' n'') :
    Alike name n n'' :=
  ⟨h.label.trans h'.label, h.value.trans h'.value, h.children.trans h'.children⟩

theorem forall₂_alike_trans {cs ds : List (Tree L V)} (h : List.Forall₂ (Alike name) cs ds) :
    ∀ {es : List (Tree L V)}, List.Forall₂ (Alike name) ds es →
      List.Forall₂ (Alike name) cs es := by
  induction h with
  | nil => intro es h'; exact h'
  | cons hn _ ih =>
    intro es h'
    cases h' with
    | cons hn' h' => exact .cons (hn.trans hn') (ih h')

/-- **A choice of siblings that all have one name** is the same before and after. -/
theorem Shuffle.filter {p : L → Bool} {k : K} (hp : ∀ l, p l = true → name l = some k)
    {cs cs' : List (Tree L V)} (h : Shuffle name cs cs') :
    List.Forall₂ (Alike name) (cs.filter fun c => p c.label) (cs'.filter fun c => p c.label) := by
  have hrefl : ∀ es : List (Tree L V), List.Forall₂ (Alike name) es es :=
    fun es => List.forall₂_same.mpr fun n _ => .refl n
  induction h with
  | nil => exact .nil
  | @cons l v cs cs' ds ds' hcs _ _ ih =>
    rw [List.filter_cons, List.filter_cons, Tree.label_node, Tree.label_node]
    split
    · exact .cons ⟨rfl, rfl, hcs⟩ ih
    · exact ih
  | @swap c d ds hne =>
    rw [List.filter_cons, List.filter_cons, List.filter_cons, List.filter_cons]
    by_cases hc : p c.label = true
    · have hd : ¬ p d.label = true := fun hd => hne ((hp _ hc).trans (hp _ hd).symm)
      simp only [if_pos hc, if_neg hd]
      exact hrefl _
    · simp only [if_neg hc]
      exact hrefl _
  | @skip c cs hnone =>
    have hc : ¬ p c.label = true := fun hc => by
      rw [hp _ hc] at hnone
      cases hnone
    rw [List.filter_cons, if_neg hc]
    exact hrefl _
  | symm _ ih => exact (ih.imp fun _ _ h => h.symm).flip
  | trans _ _ ih ih' => exact forall₂_alike_trans ih ih'

/-- **The first of siblings that all have one name.** -/
theorem Shuffle.find? {p : L → Bool} {k : K} (hp : ∀ l, p l = true → name l = some k)
    {cs cs' : List (Tree L V)} (h : Shuffle name cs cs') :
    Option.Rel (Alike name) (cs.find? fun c => p c.label) (cs'.find? fun c => p c.label) := by
  rw [← List.head?_filter, ← List.head?_filter]
  have hfilter := h.filter hp
  revert hfilter
  generalize cs.filter (fun c => p c.label) = xs
  generalize cs'.filter (fun c => p c.label) = ys
  intro hfilter
  cases hfilter with
  | nil => exact .none
  | cons hn _ => exact .some hn

end DataTree

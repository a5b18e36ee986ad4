import Mathlib.Data.List.Induction
import StelleriYang.Lib.DataTree
import StelleriYang.Lib.FirstOccurrence
import StelleriYang.Lib.Traverse

/-!
# Insertions into several instances, in any order

A sequence of insertions below the instances of a list. Each instance gets the insertions that are
meant for it, in the order in which they come, and what is inserted into the others in between makes
no difference. `Attempts.groups` says this of insertions that come one instance after the other;
here an instance may be returned to.

## Main definitions

* `DataTree.share` — the insertions that are meant for one instance
* `DataTree.InstanceOf` — a node that came with its keys and holds what insertions made in it
* `DataTree.Separate` — no instance is taken for another

## Main results

* `DataTree.Attempts.interleaved` — the instances, in the order in which they are first met
* `DataTree.Attempts.find?_leaves` — of several values for a leaf, the first is kept
* `DataTree.Attempts.distinct` — where nothing is refused, no instance is made twice
-/

namespace DataTree

open FirstOccurrence (appendNew appendAllNew appendAllNew_append mem_appendAllNew
  nodup_appendAllNew)

variable {L V K : Type} [DecidableEq L] [DecidableEq V] [DecidableEq K]

theorem Attempts.append {ops₁ ops₂ : List (List (Step L V) × V)} {bs₁ bs₂ : List Bool}
    {cs ds es : List (Tree L V)} (h₁ : Attempts ops₁ bs₁ cs ds) (h₂ : Attempts ops₂ bs₂ ds es) :
    Attempts (ops₁ ++ ops₂) (bs₁ ++ bs₂) cs es := by
  induction h₁ with
  | nil => exact h₂
  | grown ho hg _ ih => exact .grown ho hg (ih h₂)
  | refused ho _ ih => exact .refused ho (ih h₂)

/-! ### One instance -/

/-- A node that came with the keys of the step, and what `ops` made in it. -/
def InstanceOf (s : Step L V) (ops : List (List (Step L V) × V)) (n : Tree L V) : Prop :=
  ∃ bs ds, n = .node s.label none ds ∧ Attempts ops bs s.keyLeaves ds

section Instance

variable {s : Step L V} {ops : List (List (Step L V) × V)} {n : Tree L V}

/-- It is found by its keys. -/
theorem InstanceOf.matches (hs : s.always = false) (h : InstanceOf s ops n) : s.Matches n := by
  obtain ⟨bs, ds, rfl, ha⟩ := h
  refine ⟨hs, rfl, fun k hk => ?_⟩
  obtain ⟨c, hc, hl, hv⟩ := ha.preserved (c := .leaf k.1 k.2)
    (List.mem_map_of_mem (f := fun k => Tree.leaf k.1 k.2) hk)
  exact ⟨c, hc, hl, hv⟩

theorem InstanceOf.append (h : InstanceOf s ops n) {op : List (Step L V) × V} {bs : List Bool}
    {ds : List (Tree L V)} (ha : Attempts [op] bs n.children ds) :
    InstanceOf s (ops ++ [op]) (n.withChildren ds) := by
  obtain ⟨bs', es, rfl, hes⟩ := h
  exact ⟨bs' ++ bs, ds, rfl, hes.append ha⟩

/-- **An insertion where the instance is there** happens inside of it. -/
theorem Attempts.into {op : List (Step L V) × V} {bs : List Bool}
    {cs cs' xs ys : List (Tree L V)} (hperm : cs.Perm (xs ++ n :: ys)) (hn : s.Matches n)
    (hother : ∀ m ∈ xs ++ ys, ¬ s.Matches m) (h : Attempts [under s op] bs cs cs') :
    ∃ ds, Attempts [op] bs n.children ds ∧ cs'.Perm (xs ++ n.withChildren ds :: ys) := by
  cases hsplit : splitAtFirst s cs with
  | none => exact absurd hn (splitAtFirst_eq_none hsplit n (hperm.symm.subset (by simp)))
  | some r =>
    obtain ⟨as, c, es⟩ := r
    obtain ⟨rfl, has, hc⟩ := splitAtFirst_eq_some hsplit
    obtain rfl : c = n := by
      rcases List.mem_append.mp (hperm.subset (by simp : c ∈ as ++ c :: es)) with hmem | hmem
      · exact absurd hc (hother c (by simp [hmem]))
      · rcases List.mem_cons.mp hmem with rfl | hmem
        · rfl
        · exact absurd hc (hother c (by simp [hmem]))
    have hrest : (as ++ es).Perm (xs ++ ys) :=
      (List.perm_middle.symm.trans (hperm.trans List.perm_middle)).cons_inv
    have hone : Attempts ([op].map (under s)) bs (as ++ c :: es) cs' := h
    obtain ⟨ds, hds, rfl⟩ := Attempts.within has hn hone
    exact ⟨ds, hds, List.perm_middle.trans ((hrest.cons _).trans List.perm_middle.symm)⟩

/-- **An insertion where the instance is not there** makes it. -/
theorem Attempts.made {op : List (Step L V) × V} (hp : op.1 ≠ []) {bs : List Bool}
    {cs cs' : List (Tree L V)} (habs : ∀ m ∈ cs, ¬ s.Matches m)
    (h : Attempts [under s op] bs cs cs') : ∃ n, InstanceOf s [op] n ∧ cs'.Perm (n :: cs) := by
  cases h with
  | refused ho _ => rw [occurs_of_absent habs] at ho; cases ho
  | grown _ hg h =>
    cases h
    obtain ⟨xs, ys, n, -, rfl, rfl, hn⟩ := Grows.create_inv habs hg
    refine ⟨n, ?_, List.perm_middle⟩
    rcases hn with ⟨hnil, -⟩ | ⟨-, hocc, rfl⟩ | ⟨ds, hds, rfl⟩
    · exact absurd hnil hp
    · exact ⟨[false], _, rfl, .refused hocc .nil⟩
    · exact ⟨[true], ds, rfl, .grown hds.not_occurs hds .nil⟩

end Instance

/-! ### Several instances -/

/-- The insertions that are meant for one instance. -/
def share (k : K) (ops : List (K × (List (Step L V) × V))) : List (List (Step L V) × V) :=
  (ops.filter fun o => o.1 = k).map Prod.snd

omit [DecidableEq L] [DecidableEq V] in
theorem share_append (k : K) (ops ops' : List (K × (List (Step L V) × V))) :
    share k (ops ++ ops') = share k ops ++ share k ops' := by
  rw [share, List.filter_append, List.map_append, share, share]

omit [DecidableEq L] [DecidableEq V] in
theorem share_of_ne {k k' : K} (h : k' ≠ k) (ops : List (K × (List (Step L V) × V)))
    (op : List (Step L V) × V) : share k (ops ++ [(k', op)]) = share k ops := by
  simp [share, h]

omit [DecidableEq L] [DecidableEq V] in
theorem share_self (k : K) (ops : List (K × (List (Step L V) × V))) (op : List (Step L V) × V) :
    share k (ops ++ [(k, op)]) = share k ops ++ [op] := by
  simp [share]

omit [DecidableEq L] [DecidableEq V] in
theorem mem_share {k : K} {ops : List (K × (List (Step L V) × V))} {op : List (Step L V) × V} :
    op ∈ share k ops ↔ (k, op) ∈ ops := by
  simp [share]

omit [DecidableEq L] [DecidableEq V] in
/-- Groups of insertions, each for one instance. -/
theorem share_flatMap {G : Type} (key : G → K) (r : G → List (List (Step L V) × V)) (k : K)
    (gs : List G) : share k (gs.flatMap fun g => (r g).map (Prod.mk (key g))) =
      (gs.filter fun g => key g = k).flatMap r := by
  induction gs with
  | nil => rfl
  | cons g gs ih =>
    rw [List.flatMap_cons, share_append, ih]
    by_cases hg : key g = k
    · have hall : share k ((r g).map (Prod.mk (key g))) = r g := by
        rw [share, List.filter_map, List.map_map]
        simp [Function.comp_def, hg]
      rw [hall, List.filter_cons_of_pos (by simpa using hg), List.flatMap_cons]
    · have hnone : share k ((r g).map (Prod.mk (key g))) = [] := by
        rw [share, List.filter_map, List.map_map]
        simp [Function.comp_def, hg]
      rw [hnone, List.filter_cons_of_neg (by simpa using hg), List.nil_append]

/-- Whatever insertions are meant for an instance, it is not taken for another. -/
def Separate (s : K → Step L V) (ops : List (K × (List (Step L V) × V))) : Prop :=
  ∀ k k', k ≠ k' → ∀ os, (∀ o ∈ os, (k, o) ∈ ops) → ∀ n, InstanceOf (s k) os n →
    ¬ (s k').Matches n

/-- **Instances that are returned to.** Each of them holds what its own insertions made, as if the
others had not been there. The induction is on the insertions made so far. -/
theorem Attempts.interleaved {s : K → Step L V} (hs : ∀ k, (s k).always = false)
    {ops : List (K × (List (Step L V) × V))} (hp : ∀ o ∈ ops, o.2.1 ≠ [])
    (hsep : Separate s ops) : ∀ {bs : List Bool} {cs' : List (Tree L V)},
    Attempts (ops.map fun o => under (s o.1) o.2) bs [] cs' →
    ∃ ns, cs'.Perm ns ∧ List.Forall₂ (fun k n => InstanceOf (s k) (share k ops) n)
      (appendAllNew [] (ops.map Prod.fst)) ns := by
  induction ops using List.reverseRecOn with
  | nil => intro bs cs' h; cases h; exact ⟨[], .refl _, .nil⟩
  | append_singleton ops o ih =>
    intro bs cs' h
    obtain ⟨k, op⟩ := o
    rw [List.map_append] at h
    obtain ⟨bs₁, bs₂, cs, -, h₁, h₂⟩ := Attempts.append_inv h
    obtain ⟨ns, hperm, hall⟩ := ih (fun o ho => hp o (by simp [ho]))
      (fun k k' hne os hos => hsep k k' hne os fun o ho => by simp [hos o ho]) h₁
    have hkeys : appendAllNew [] ((ops ++ [(k, op)]).map Prod.fst) =
        appendNew (appendAllNew [] (ops.map Prod.fst)) k := by
      rw [List.map_append, appendAllNew_append]
      rfl
    -- the instances of other keys are not concerned, and are not found
    have hkept : ∀ {ks ns}, k ∉ ks →
        List.Forall₂ (fun k n => InstanceOf (s k) (share k ops) n) ks ns →
        List.Forall₂ (fun k' n => InstanceOf (s k') (share k' (ops ++ [(k, op)])) n) ks ns ∧
          ∀ n ∈ ns, ¬ (s k).Matches n := by
      intro ks ns hk hks
      induction hks with
      | nil => exact ⟨.nil, by simp⟩
      | @cons k' n ks ns hn _ ih =>
        obtain ⟨hne, hk⟩ : k ≠ k' ∧ k ∉ ks := by simpa using hk
        obtain ⟨hrest, hnot⟩ := ih hk
        refine ⟨.cons ?_ hrest, List.forall_mem_cons.mpr ⟨?_, hnot⟩⟩
        · rwa [share_of_ne hne]
        · exact hsep k' k hne.symm _ (fun o ho => by simp [mem_share.mp ho]) n hn
    rw [hkeys, appendNew]
    by_cases hk : k ∈ appendAllNew [] (ops.map Prod.fst)
    · rw [if_pos hk]
      have hnodup : (appendAllNew [] (ops.map Prod.fst)).Nodup := nodup_appendAllNew List.nodup_nil
      obtain ⟨ks₁, ks₂, hks⟩ := List.append_of_mem hk
      rw [hks] at hall hnodup ⊢
      obtain ⟨hk₁, hk₂⟩ : k ∉ ks₁ ∧ k ∉ ks₂ := by
        have hmid := List.nodup_middle.mp hnodup
        simpa using (List.nodup_cons.mp hmid).1
      obtain ⟨ns₁, ns₂', rfl, hall₁, hall₂'⟩ := Traverse.exists_append_of_forall₂ hall
      cases hall₂' with
      | @cons _ n _ ns₂ hn hall₂ =>
        obtain ⟨hall₁', hnot₁⟩ := hkept hk₁ hall₁
        obtain ⟨hall₂', hnot₂⟩ := hkept hk₂ hall₂
        obtain ⟨ds, hds, hperm'⟩ := h₂.into hperm (hn.matches (hs k))
          fun m hm => (List.mem_append.mp hm).elim (hnot₁ m) (hnot₂ m)
        refine ⟨_, hperm', List.rel_append hall₁' (.cons ?_ hall₂')⟩
        rw [share_self]
        exact hn.append hds
    · rw [if_neg hk]
      obtain ⟨hall', hnot⟩ := hkept hk hall
      obtain ⟨n, hn, hperm'⟩ := h₂.made (hp (k, op) (by simp))
        fun m hm => hnot m (hperm.subset hm)
      have hnone : share k ops = [] := by
        refine List.eq_nil_iff_forall_not_mem.mpr fun op' hop' => hk ?_
        exact mem_appendAllNew.mpr (Or.inr (List.mem_map_of_mem (f := Prod.fst)
          (mem_share.mp hop')))
      refine ⟨ns ++ [n], ?_, List.rel_append hall' (.cons ?_ .nil)⟩
      · exact hperm'.trans ((hperm.cons n).trans (List.perm_append_singleton n ns).symm)
      · rw [share_self, hnone]
        exact hn

/-! ### Several values for a leaf -/

/-- **Of several values for a leaf the first is kept**, and one that is there already before all of
them. -/
theorem Attempts.find?_leaves {l : L} : ∀ {vs : List (L × V)} {bs : List Bool}
    {cs cs' : List (Tree L V)},
    Attempts (vs.map fun o => ([Step.ofLabel o.1], o.2)) bs cs cs' →
    cs'.find? (fun n => n.label = l) =
      (cs.find? fun n => n.label = l).or
        ((vs.find? fun o => o.1 = l).map fun o => .leaf o.1 o.2) := by
  intro vs
  induction vs with
  | nil => intro bs cs cs' h; cases h; simp
  | cons o vs ih =>
    intro bs cs cs' h
    obtain ⟨l', v⟩ := o
    rw [List.map_cons] at h
    have hmatch : ∀ n : Tree L V, (Step.ofLabel l' : Step L V).Matches n ↔ n.label = l' :=
      fun n => ⟨fun hm => hm.2.1, fun hl => ⟨rfl, hl, by simp [Step.ofLabel]⟩⟩
    cases h with
    | grown ho hg h =>
      have habs : ∀ n ∈ cs, ¬ (Step.ofLabel l' : Step L V).Matches n := by
        intro n hn hm
        cases hg with
        | leaf hpl => exact hpl.absent n hn hm
        | whole _ hp _ => exact hp rfl
        | create _ hg => exact hg.ne_nil rfl
        | descend _ _ hg => exact hg.ne_nil rfl
      obtain ⟨xs, ys, n, hpl, rfl, rfl, hn⟩ := Grows.create_inv habs hg
      obtain rfl : n = .leaf l' v := by
        rcases hn with ⟨-, rfl⟩ | ⟨hp, -⟩ | ⟨ds, hds, -⟩
        · rfl
        · exact absurd rfl hp
        · exact absurd rfl hds.ne_nil
      rw [ih h]
      by_cases hl : l' = l
      · -- there was none
        have hnone : ∀ n ∈ xs ++ ys, ¬ (decide (n.label = l)) = true := fun n hn => by
          simpa using fun heq : n.label = l => habs n hn ((hmatch n).mpr (heq.trans hl.symm))
        have hx : xs.find? (fun n => n.label = l) = none :=
          List.find?_eq_none.mpr fun n hn => hnone n (by simp [hn])
        rw [List.find?_eq_none.mpr hnone, List.find?_append, hx]
        simp [hl]
      · simp [List.find?_append, hl]
    | refused ho h =>
      rw [ih h]
      by_cases hl : l' = l
      · -- the leaf is there
        rw [occurs] at ho
        split at ho
        · rename_i n hfind
          have hsome : (cs.find? fun n => n.label = l).isSome := by
            refine List.find?_isSome.mpr ⟨n, List.mem_of_find?_eq_some hfind, ?_⟩
            have hfound := List.find?_some hfind
            simpa using ((hmatch n).mp (of_decide_eq_true hfound)).trans hl
          obtain ⟨n', hn'⟩ := Option.isSome_iff_exists.mp hsome
          rw [hn']
          rfl
        · cases ho
      · rw [List.find?_cons_of_neg (by simpa using hl)]

/-! ### When nothing is refused -/

/-- A node that is found stays, and is still found. -/
theorem Grows.present {v : V} {s : Step L V} {p : List (Step L V)} {cs cs' : List (Tree L V)}
    (hg : Grows v p cs cs') (h : ∃ n ∈ cs, s.Matches n) : ∃ n ∈ cs', s.Matches n := by
  obtain ⟨n, hn, hm⟩ := h
  have old : ∀ {xs ys : List (Tree L V)} {m : Tree L V}, n ∈ xs ++ ys →
      ∃ n ∈ xs ++ m :: ys, s.Matches n := fun hmem =>
    ⟨n, by rcases List.mem_append.mp hmem with h | h <;> simp [h], hm⟩
  cases hg with
  | leaf _ => exact old hn
  | whole _ _ _ => exact old hn
  | create _ _ => exact old hn
  | @descend t p xs ys ds d hx hd hg =>
    rcases List.mem_append.mp hn with h | h
    · exact ⟨n, by simp [h], hm⟩
    · rcases List.mem_cons.mp h with rfl | h
      · exact ⟨_, by simp, hm.grows hg⟩
      · exact ⟨n, by simp [h], hm⟩

theorem Attempts.present {s : Step L V} {ops : List (List (Step L V) × V)} {bs : List Bool}
    {cs cs' : List (Tree L V)} (ha : Attempts ops bs cs cs') (h : ∃ n ∈ cs, s.Matches n) :
    ∃ n ∈ cs', s.Matches n := by
  induction ha with
  | nil => exact h
  | grown _ hg _ ih => exact ih (hg.present h)
  | refused _ _ ih => exact ih h

/-- **Where nothing is refused, no instance is made twice**: the insertion that names its key would
find it taken. -/
theorem Attempts.distinct {G : Type} {s : G → Step L V} {f : G → L × V}
    {r : G → List (List (Step L V) × V)} : ∀ {gs : List G} {bs : List Bool}
    {cs cs' : List (Tree L V)}, (∀ g ∈ gs, (s g).always = false ∧ f g ∈ (s g).keys) →
    Attempts (gs.flatMap fun g =>
      (([Step.ofLabel (f g).1], (f g).2) :: r g).map (under (s g))) bs cs cs' →
    (∀ b ∈ bs, b = true) →
    (∀ g ∈ gs, ∀ n ∈ cs, ¬ (s g).Matches n) ∧ gs.Pairwise fun g g' => s g ≠ s g' := by
  intro gs
  induction gs with
  | nil => intro bs cs cs' _ _ _; exact ⟨by simp, .nil⟩
  | cons g gs ih =>
    intro bs cs cs' hgs h hall
    obtain ⟨hs, hf⟩ := hgs g (by simp)
    rw [List.flatMap_cons] at h
    obtain ⟨bs₁, bs₂, ds, rfl, h₁, h₂⟩ := Attempts.append_inv h
    obtain ⟨hrest, hpair⟩ := ih (fun g' hg' => hgs g' (by simp [hg'])) h₂
      fun b hb => hall b (by simp [hb])
    -- if the instance were there, so would be its key
    have hcs : ∀ n ∈ cs, ¬ (s g).Matches n := by
      intro n hn hm
      rw [List.map_cons] at h₁
      cases h₁ with
      | refused _ _ => exact absurd (hall false (by simp)) (by simp)
      | grown ho _ _ =>
        cases hsplit : splitAtFirst (s g) cs with
        | none => exact splitAtFirst_eq_none hsplit n hn hm
        | some a =>
          obtain ⟨xs, c, ys⟩ := a
          obtain ⟨rfl, hx, hc⟩ := splitAtFirst_eq_some hsplit
          exact absurd ((occurs_of_first hx hc).symm.trans ho)
            (by simp [occurs_key_of_matches hc hf])
    -- and now it is
    have hds : ∃ n ∈ ds, (s g).Matches n := by
      rw [List.map_cons] at h₁
      cases h₁ with
      | refused _ _ => exact absurd (hall false (by simp)) (by simp)
      | grown ho hg h =>
        refine Attempts.present h ?_
        have hone : Attempts [under (s g) ([Step.ofLabel (f g).1], (f g).2)] [true] cs _ :=
          .grown ho hg .nil
        obtain ⟨n, hn, hperm⟩ := hone.made (by simp) hcs
        exact ⟨n, hperm.symm.subset (by simp), hn.matches hs⟩
    obtain ⟨n, hn, hm⟩ := hds
    refine ⟨List.forall_mem_cons.mpr ⟨hcs, fun g' hg' m hmem hm' => ?_⟩,
      List.pairwise_cons.mpr ⟨fun g' hg' heq => hrest g' hg' n hn (heq ▸ hm), hpair⟩⟩
    obtain ⟨m', hm'mem, hm''⟩ := Attempts.present h₁ ⟨m, hmem, hm'⟩
    exact hrest g' hg' m' hm'mem hm''

end DataTree

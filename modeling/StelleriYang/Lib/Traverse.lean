import Mathlib.Data.List.Forall2
import Mathlib.Data.List.Perm.Basic

/-!
# Traversals that may fail

`List.mapM` in `Except` and `Option`: a run that succeeds relates the two lists element by element,
and the order of the elements does not matter to whether it succeeds.

## Main results

* `Traverse.bind_eq_ok_iff`, `Traverse.mapM_eq_ok_iff`, `Traverse.mapM_eq_some_iff`
* `Traverse.exists_mapM_of_perm`
* `Traverse.foldlM_store_eq`
-/

namespace Traverse

variable {α β γ ε : Type}

/-- A sequence of two steps succeeds if the first does, and the second from its result. -/
theorem bind_eq_ok_iff {x : Except ε α} {f : α → Except ε β} {b : β} :
    x >>= f = .ok b ↔ ∃ a, x = .ok a ∧ f a = .ok b := by
  rcases x with e | a
  · exact ⟨fun h => (by cases h), fun ⟨_, h, _⟩ => (by cases h)⟩
  · exact ⟨fun h => ⟨a, rfl, h⟩, fun ⟨_, ha, h⟩ => (by cases ha; exact h)⟩

theorem mapM_cons_eq_ok_iff {f : α → Except ε β} {x : α} {xs : List α} {zs : List β} :
    (x :: xs).mapM f = .ok zs ↔ ∃ y ys, f x = .ok y ∧ xs.mapM f = .ok ys ∧ zs = y :: ys := by
  rw [List.mapM_cons, bind_eq_ok_iff]
  refine exists_congr fun y => ?_
  rw [bind_eq_ok_iff]
  constructor
  · rintro ⟨hy, ys, hys, h⟩
    cases h
    exact ⟨ys, hy, hys, rfl⟩
  · rintro ⟨ys, hy, hys, rfl⟩
    exact ⟨hy, ys, hys, rfl⟩

theorem mapM_eq_ok_iff {f : α → Except ε β} {xs : List α} : ∀ {ys : List β},
    xs.mapM f = .ok ys ↔ List.Forall₂ (fun x y => f x = .ok y) xs ys := by
  induction xs with
  | nil =>
    intro ys
    rw [List.forall₂_nil_left_iff]
    exact ⟨fun h => (by cases h; rfl), fun h => (by rw [h]; rfl)⟩
  | cons x xs ih =>
    intro zs
    rw [mapM_cons_eq_ok_iff, List.forall₂_cons_left_iff]
    simp only [ih]

/-- A traversal that succeeds on a list succeeds on its elements in another order. -/
theorem exists_mapM_of_perm {f : α → Except ε β} {xs xs' : List α} {ys : List β}
    (hp : xs'.Perm xs) (h : xs.mapM f = .ok ys) : ∃ ys', xs'.mapM f = .ok ys' ∧ ys'.Perm ys := by
  obtain ⟨ys', hall, hperm⟩ := List.perm_comp_forall₂ hp (mapM_eq_ok_iff.mp h)
  exact ⟨ys', mapM_eq_ok_iff.mpr hall, hperm⟩

/-- A traversal of what stands for `as`, element by element. -/
theorem exists_mapM_of_forall₂ {f : α → Except ε β} {R : γ → α → Prop} {P : γ → β → Prop}
    {as : List γ} {xs : List α} (h : List.Forall₂ R as xs)
    (hread : ∀ a ∈ as, ∀ x, R a x → ∃ y, f x = .ok y ∧ P a y) :
    ∃ ys, xs.mapM f = .ok ys ∧ List.Forall₂ P as ys := by
  induction h with
  | nil => exact ⟨[], rfl, .nil⟩
  | @cons a x as xs hax _ ih =>
    obtain ⟨y, hy, hp⟩ := hread a (by simp) x hax
    obtain ⟨ys, hys, hps⟩ := ih fun b hb => hread b (by simp [hb])
    refine ⟨y :: ys, ?_, .cons hp hps⟩
    rw [mapM_eq_ok_iff] at hys ⊢
    exact .cons hy hys

/-- A traversal that succeeds on every element. -/
theorem exists_mapM {f : α → Except ε β} {P : α → β → Prop} {xs : List α}
    (h : ∀ x ∈ xs, ∃ y, f x = .ok y ∧ P x y) :
    ∃ ys, xs.mapM f = .ok ys ∧ List.Forall₂ P xs ys :=
  exists_mapM_of_forall₂ (List.forall₂_same.mpr fun x _ => Eq.refl x)
    fun x hx _ hxy => hxy ▸ h x hx

/-- A traversal that fails on an element, if it can fail in one way only. -/
theorem mapM_eq_error {f : α → Except ε β} {e : ε} {xs : List α}
    (h : ∀ x ∈ xs, (∃ y, f x = .ok y) ∨ f x = .error e) (hx : ∃ x ∈ xs, f x = .error e) :
    xs.mapM f = .error e := by
  induction xs with
  | nil =>
    obtain ⟨x, hx, -⟩ := hx
    cases hx
  | cons x xs ih =>
    rw [List.mapM_cons]
    rcases h x (by simp) with ⟨y, hy⟩ | herror
    · obtain ⟨z, hz, herror⟩ := hx
      rcases List.mem_cons.mp hz with rfl | hz
      · cases hy.symm.trans herror
      · rw [hy, ih (fun w hw => h w (by simp [hw])) ⟨z, hz, herror⟩]
        rfl
    · rw [herror]
      rfl

/-- A traversal in `Option` in which every element has an image. -/
theorem mapM_eq_some_iff {f : α → Option β} : ∀ {xs : List α} {ys : List β},
    xs.mapM f = some ys ↔ (∀ x ∈ xs, (f x).isSome) ∧ ys = xs.filterMap f := by
  intro xs
  induction xs with
  | nil => intro ys; exact ⟨fun h => (by cases h; simp), fun ⟨_, h⟩ => (by rw [h]; rfl)⟩
  | cons x xs ih =>
    intro ys
    rw [List.mapM_cons]
    cases hx : f x with
    | none => exact ⟨fun h => (by cases h), fun ⟨h, _⟩ => (by simpa [hx] using h x (by simp))⟩
    | some y =>
      rw [List.filterMap_cons_some hx]
      simp only [Option.bind_eq_bind, Option.bind_some, Option.bind_eq_some_iff, ih,
        List.mem_cons, forall_eq_or_imp, hx, Option.isSome_some, true_and]
      constructor
      · rintro ⟨_, ⟨hall, rfl⟩, heq⟩
        exact ⟨hall, (Option.some.inj heq).symm⟩
      · rintro ⟨hall, rfl⟩
        exact ⟨_, ⟨hall, rfl⟩, rfl⟩

/-- A loop that pushes every element at the end of one field of a record. -/
theorem foldl_push {push : γ → β → γ} (s : List β → γ)
    (h : ∀ bs b, push (s bs) b = s (bs ++ [b])) (bs : List β) :
    ∀ bs₀, bs.foldl push (s bs₀) = s (bs₀ ++ bs) := by
  induction bs with
  | nil => intro bs₀; rw [List.foldl_nil, List.append_nil]
  | cons b bs ih =>
    intro bs₀
    rw [List.foldl_cons, h, ih, List.append_assoc, List.singleton_append]

/-- A loop that skips some elements and stores what it makes of the others. -/
theorem foldlM_store_eq {f : α → Except ε β} {p : α → Bool} {store : γ → β → γ} (xs : List α) :
    ∀ c : γ, xs.foldlM (fun c x => if p x then (f x).map (store c) else .ok c) c =
      ((xs.filter p).mapM f).map fun ys => ys.foldl store c := by
  induction xs with
  | nil => intro c; rfl
  | cons x xs ih =>
    intro c
    rw [List.foldlM_cons]
    by_cases hp : p x = true
    · rw [if_pos hp, List.filter_cons_of_pos hp, List.mapM_cons]
      cases f x with
      | error e => rfl
      | ok y =>
        refine (ih (store c y)).trans ?_
        cases (xs.filter p).mapM f <;> rfl
    · rw [if_neg hp, List.filter_cons_of_neg hp]
      exact ih c

theorem forall₂_imp_left {R P : α → β → Prop} {xs : List α} {ys : List β}
    (h : List.Forall₂ R xs ys) (himp : ∀ x ∈ xs, ∀ y, R x y → P x y) : List.Forall₂ P xs ys := by
  induction h with
  | nil => exact .nil
  | @cons x y xs ys hxy _ ih =>
    exact .cons (himp x (by simp) y hxy) (ih fun z hz => himp z (by simp [hz]))

/-- A function that does not tell related elements apart. -/
theorem map_eq_of_forall₂ {R : α → α → Prop} {f : α → β} {xs ys : List α}
    (h : List.Forall₂ R xs ys) (hf : ∀ x y, R x y → f x = f y) : xs.map f = ys.map f := by
  induction h with
  | nil => rfl
  | @cons x y xs ys hxy _ ih => rw [List.map_cons, List.map_cons, hf x y hxy, ih]

/-- The same for something that may be missing. -/
theorem elim_eq_of_rel {R : α → α → Prop} {b : β} {f g : α → β} {o o' : Option α}
    (h : Option.Rel R o o') (hfg : ∀ x y, R x y → f x = g y) : o.elim b f = o'.elim b g := by
  cases h with
  | none => rfl
  | some hxy => exact hfg _ _ hxy

theorem bind_eq_of_rel {R : α → α → Prop} {f g : α → Option β} {o o' : Option α}
    (h : Option.Rel R o o') (hfg : ∀ x y, R x y → f x = g y) : o.bind f = o'.bind g := by
  cases h with
  | none => rfl
  | some hxy => exact hfg _ _ hxy

/-- What stands in relation to two lists in a row falls into two parts. -/
theorem exists_append_of_forall₂ {R : α → β → Prop} : ∀ {xs xs' : List α} {ys : List β},
    List.Forall₂ R (xs ++ xs') ys →
    ∃ ys₁ ys₂, ys = ys₁ ++ ys₂ ∧ List.Forall₂ R xs ys₁ ∧ List.Forall₂ R xs' ys₂ := by
  intro xs
  induction xs with
  | nil => intro xs' ys h; exact ⟨[], ys, rfl, .nil, h⟩
  | cons x xs ih =>
    intro xs' ys h
    cases h with
    | cons hxy h =>
      obtain ⟨ys₁, ys₂, rfl, h₁, h₂⟩ := ih h
      exact ⟨_ :: ys₁, ys₂, rfl, .cons hxy h₁, h₂⟩

theorem exists_of_forall₂_left {R : α → β → Prop} {xs : List α} {ys : List β}
    (h : List.Forall₂ R xs ys) : ∀ x ∈ xs, ∃ y ∈ ys, R x y := by
  induction h with
  | nil => intro x hx; cases hx
  | @cons a b as bs hab _ ih =>
    intro x hx
    rcases List.mem_cons.mp hx with rfl | hx
    · exact ⟨b, by simp, hab⟩
    · obtain ⟨y, hy, hxy⟩ := ih x hx
      exact ⟨y, by simp [hy], hxy⟩

theorem exists_of_forall₂_right {R : α → β → Prop} {xs : List α} {ys : List β}
    (h : List.Forall₂ R xs ys) : ∀ y ∈ ys, ∃ x ∈ xs, R x y :=
  fun y hy => exists_of_forall₂_left h.flip y hy

end Traverse

import Mathlib.Data.List.Basic

/-!
# Checks made one after the other

A function that may throw makes checks, in an order that its input decides, and the first check that
fails decides what is thrown. Listing the checks is a description of the function's failures that
does not mention its results: `Throws x cs` says that `x` throws what the first failing check of
`cs` throws, and returns if none of them fails.

## Main definitions

* `Check` — what a check throws if it fails, and nothing if it passes
* `failIf` — a check that fails in one way
* `First` — the first check that fails
* `Throws`

## Main results

* `first_cons`, `first_append`
* `Throws.exists_ok_iff` — a result is there exactly if all checks pass
* `throws_ite`, `throws_elim`, `Throws.bind`, `throws_mapM` — the checks of the parts of a program
-/

namespace Checks

variable {α β ε : Type}

/-- The exceptions with which a check fails. -/
abbrev Check (ε : Type) := ε → Prop

/-- The check does not fail. -/
def Passes (c : Check ε) : Prop := ∀ e, ¬ c e

/-- A check that fails in one way. -/
def failIf (p : Prop) (e₀ : ε) : Check ε := fun e => p ∧ e = e₀

/-- The first check that fails throws `e`. -/
def First (cs : List (Check ε)) (e : ε) : Prop :=
  ∃ before c after, cs = before ++ c :: after ∧ (∀ b ∈ before, Passes b) ∧ c e

theorem not_first_nil (e : ε) : ¬ First [] e := by
  rintro ⟨before, c, after, h, -⟩
  exact absurd h (List.append_ne_nil_of_right_ne_nil _ (List.cons_ne_nil c after)).symm

theorem first_cons {c : Check ε} {cs : List (Check ε)} {e : ε} :
    First (c :: cs) e ↔ c e ∨ (Passes c ∧ First cs e) := by
  constructor
  · rintro ⟨before, d, after, h, hbefore, hd⟩
    cases before with
    | nil =>
      cases h
      exact .inl hd
    | cons b before =>
      cases h
      rw [List.forall_mem_cons] at hbefore
      exact .inr ⟨hbefore.1, before, d, after, rfl, hbefore.2, hd⟩
  · rintro (hc | ⟨hc, before, d, after, rfl, hbefore, hd⟩)
    · exact ⟨[], c, cs, rfl, by simp, hc⟩
    · exact ⟨c :: before, d, after, rfl, List.forall_mem_cons.mpr ⟨hc, hbefore⟩, hd⟩

theorem first_singleton {c : Check ε} {e : ε} : First [c] e ↔ c e := by
  rw [first_cons]
  exact ⟨fun h => h.resolve_right fun ⟨_, h⟩ => not_first_nil e h, .inl⟩

theorem first_append {cs ds : List (Check ε)} {e : ε} :
    First (cs ++ ds) e ↔ First cs e ∨ ((∀ c ∈ cs, Passes c) ∧ First ds e) := by
  induction cs with
  | nil => simp [not_first_nil]
  | cons c cs ih =>
    rw [List.cons_append, first_cons, first_cons, ih, List.forall_mem_cons]
    tauto

/-- Some check is the first to fail, unless all pass. -/
theorem exists_first_iff {cs : List (Check ε)} : (∃ e, First cs e) ↔ ¬ ∀ c ∈ cs, Passes c := by
  induction cs with
  | nil => simp [not_first_nil]
  | cons c cs ih =>
    simp only [first_cons, exists_or, exists_and_left, ih, List.forall_mem_cons]
    have hc : (∃ e, c e) ↔ ¬ Passes c := by simp [Passes]
    tauto

/-- Throws what the first failing check throws, and returns if none fails. -/
def Throws (x : Except ε α) (cs : List (Check ε)) : Prop := ∀ e, x = .error e ↔ First cs e

/-- **There is a result exactly if all checks pass.** -/
theorem Throws.exists_ok_iff {x : Except ε α} {cs : List (Check ε)} (h : Throws x cs) :
    (∃ a, x = .ok a) ↔ ∀ c ∈ cs, Passes c := by
  rw [← not_iff_not, ← exists_first_iff]
  simp only [← h _]
  cases x <;> simp

theorem throws_ok (a : α) : Throws (.ok a : Except ε α) [] :=
  fun e => ⟨fun h => (by cases h), fun h => absurd h (not_first_nil e)⟩

/-- A single check. -/
theorem throws_of_iff {x : Except ε α} {c : Check ε} (h : ∀ e, x = .error e ↔ c e) :
    Throws x [c] := fun e => by rw [first_singleton, h]

/-- An exception thrown under a condition. -/
theorem throws_ite {p : Prop} [Decidable p] {x : Except ε α} {cs : List (Check ε)} (e₀ : ε)
    (hx : ¬ p → Throws x cs) : Throws (if p then .error e₀ else x) (failIf p e₀ :: cs) := by
  intro e
  rw [first_cons]
  by_cases hp : p
  · rw [if_pos hp]
    have hfails : ¬ Passes (failIf p e₀) := fun h => h e₀ ⟨hp, rfl⟩
    exact ⟨fun h => .inl ⟨hp, (Except.error.inj h).symm⟩, fun h =>
      h.elim (fun h => by rw [h.2]) fun h => absurd h.1 hfails⟩
  · rw [if_neg hp, hx hp e]
    have hpasses : Passes (failIf p e₀) := fun e h => hp h.1
    exact ⟨fun h => .inr ⟨hpasses, h⟩, fun h => h.elim (fun h => absurd h.1 hp) And.right⟩

/-- An exception thrown for something missing. -/
theorem throws_elim {b : Option β} {f : β → Except ε α} {checks : β → List (Check ε)} (e₀ : ε)
    (hf : ∀ a, b = some a → Throws (f a) (checks a)) :
    Throws (b.elim (.error e₀) f) (failIf (b = none) e₀ :: b.toList.flatMap checks) := by
  cases b with
  | none =>
    have h : Throws (if True then .error e₀ else .error e₀ : Except ε α) [failIf True e₀] :=
      throws_ite e₀ fun h => absurd trivial h
    simpa using h
  | some a =>
    have h := throws_ite (p := False) e₀ fun _ => hf a rfl
    simpa using h

/-- **The checks of a first step come first.** -/
theorem Throws.bind {x : Except ε α} {f : α → Except ε β} {cs ds : List (Check ε)}
    (hx : Throws x cs) (hf : ∀ a, x = .ok a → Throws (f a) ds) : Throws (x >>= f) (cs ++ ds) := by
  intro e
  rw [first_append, ← hx e]
  have hok := hx.exists_ok_iff
  cases x with
  | error e' =>
    have hfails : ¬ ∀ c ∈ cs, Passes c := fun h => by
      obtain ⟨a, ha⟩ := hok.mpr h
      cases ha
    constructor
    · intro h
      cases h
      exact .inl rfl
    · rintro (h | ⟨hpass, -⟩)
      · cases h
        rfl
      · exact absurd hpass hfails
  | ok a =>
    have hpass := hok.mp ⟨a, rfl⟩
    refine ⟨fun h => .inr ⟨hpass, (hf a rfl e).mp h⟩, ?_⟩
    rintro (h | ⟨-, h⟩)
    · cases h
    · exact (hf a rfl e).mpr h

/-- A last step that does not throw adds no check. -/
theorem Throws.bind_ok {x : Except ε α} {cs : List (Check ε)} (hx : Throws x cs) (f : α → β) :
    Throws (x >>= fun a => .ok (f a)) cs := by
  have h := hx.bind fun a _ => throws_ok (f a)
  rwa [List.append_nil] at h

/-- What is done with the result adds no check. -/
theorem Throws.map {x : Except ε α} {cs : List (Check ε)} (hx : Throws x cs) (f : α → β) :
    Throws (x.map f) cs := by
  have h := hx.bind_ok f
  cases x <;> exact h

/-- **A traversal makes the checks of its elements, in their order.** -/
theorem throws_mapM {f : α → Except ε β} {checks : α → List (Check ε)} {xs : List α}
    (h : ∀ x ∈ xs, Throws (f x) (checks x)) : Throws (xs.mapM f) (xs.flatMap checks) := by
  induction xs with
  | nil => exact throws_ok []
  | cons x xs ih =>
    rw [List.mapM_cons, List.flatMap_cons]
    refine (h x (by simp)).bind fun y _ => ?_
    have htail := (ih fun z hz => h z (by simp [hz])).map (y :: ·)
    exact htail

end Checks

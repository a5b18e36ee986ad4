import Mathlib.Data.List.Basic

/-!
# Runs

A state that is changed by one call after the other. What a single call preserves exactly under a
condition, a run preserves exactly if each of its calls meets the condition in the state before it.

## Main definitions

* `Runs.states` — the states of a run
* `Runs.AllMeet` — every call of a run meets a condition

## Main results

* `Runs.forall_states` — an invariant
* `Runs.forall_states_iff` — from one call to a run
-/

namespace Runs

variable {σ γ : Type} {after : σ → γ → σ} {P : σ → Prop} {meets : σ → γ → Prop}

/-- The states of a run, the first one included. -/
def states (after : σ → γ → σ) : List γ → σ → List σ
  | [], s => [s]
  | c :: calls, s => s :: states after calls (after s c)

/-- Every call meets the condition in the state before it. -/
def AllMeet (after : σ → γ → σ) (meets : σ → γ → Prop) : List γ → σ → Prop
  | [], _ => True
  | c :: calls, s => meets s c ∧ AllMeet after meets calls (after s c)

instance decidableAllMeet [∀ s c, Decidable (meets s c)] :
    ∀ calls s, Decidable (AllMeet after meets calls s)
  | [], _ => isTrue trivial
  | c :: calls, s =>
    have := decidableAllMeet calls (after s c)
    inferInstanceAs (Decidable (meets s c ∧ AllMeet after meets calls (after s c)))

theorem self_mem_states (calls : List γ) (s : σ) : s ∈ states after calls s := by
  cases calls <;> simp [states]

/-- The last state of a run is one of its states. -/
theorem foldl_mem_states : ∀ (calls : List γ) (s : σ),
    calls.foldl after s ∈ states after calls s
  | [], _ => List.mem_singleton.mpr rfl
  | c :: calls, s => List.mem_cons_of_mem s (foldl_mem_states calls (after s c))

/-- **An invariant** of the calls of a run. -/
theorem forall_states : ∀ {calls : List γ} {s : σ},
    (∀ c ∈ calls, ∀ s, P s → P (after s c)) → P s → ∀ s' ∈ states after calls s, P s' := by
  intro calls
  induction calls with
  | nil => intro s _ hs; simpa [states] using hs
  | cons c calls ih =>
    intro s hstep hs
    rw [states, List.forall_mem_cons]
    exact ⟨hs, ih (fun d hd => hstep d (by simp [hd])) (hstep c (by simp) s hs)⟩

/-- **From one call to a run.** -/
theorem forall_states_iff : ∀ {calls : List γ} {s : σ},
    (∀ c ∈ calls, ∀ s, P s → (P (after s c) ↔ meets s c)) → P s →
    ((∀ s' ∈ states after calls s, P s') ↔ AllMeet after meets calls s) := by
  intro calls
  induction calls with
  | nil => intro s _ hs; simpa [states, AllMeet] using hs
  | cons c calls ih =>
    intro s hstep hs
    have hrest : ∀ d ∈ calls, ∀ s, P s → (P (after s d) ↔ meets s d) :=
      fun d hd => hstep d (by simp [hd])
    rw [states, List.forall_mem_cons, AllMeet, ← hstep c (by simp) s hs]
    constructor
    · rintro ⟨-, hall⟩
      have hnext := hall _ (self_mem_states calls (after s c))
      exact ⟨hnext, (ih hrest hnext).mp hall⟩
    · rintro ⟨hnext, hmeet⟩
      exact ⟨hs, (ih hrest hnext).mpr hmeet⟩

end Runs

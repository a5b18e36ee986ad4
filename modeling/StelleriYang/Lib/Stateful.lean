import Mathlib.Data.List.Basic

/-!
# Programs whose state survives their exceptions

`EStateM` is a state and exceptions in which what was done before a `throw` stays done, as in a
language with mutable objects. `Ensures` is a triple with two postconditions, one for a program
that returns and one for a program that throws.

## Main definitions

* `Stateful.Ensures`, `Stateful.throwIf`
* `Stateful.outcome`, `Stateful.Yields` — a program whose outcome does not depend on the state it
  begins in

## Main results

* `Stateful.bind_of_ok`, `Stateful.bind_of_error`
* `Stateful.Ensures.bind`, `Stateful.Ensures.forM`, `Stateful.Ensures.foldlM`
* `Stateful.Yields.bind`, `Stateful.Yields.foldlM`
-/

namespace Stateful

variable {ε σ α β : Type}

/-- A guard. -/
def throwIf (c : Prop) [Decidable c] (e : ε) : EStateM ε σ Unit := if c then throw e else pure ()

theorem bind_of_ok {x : EStateM ε σ α} {f : α → EStateM ε σ β} {s s' : σ} {a : α}
    (h : x s = .ok a s') : (x >>= f) s = f a s' := by
  show EStateM.bind x f s = f a s'
  rw [EStateM.bind, h]

/-- Reading the state. -/
theorem bind_get {f : σ → EStateM ε σ β} {s : σ} :
    ((get : EStateM ε σ σ) >>= f) s = f s s := rfl

theorem bind_of_error {x : EStateM ε σ α} {f : α → EStateM ε σ β} {s s' : σ} {e : ε}
    (h : x s = .error e s') : (x >>= f) s = .error e s' := by
  show EStateM.bind x f s = .error e s'
  rw [EStateM.bind, h]

/-- Begun in a state of `P`, the program ends in `Q` if it returns and in `R` if it throws. -/
def Ensures (P : σ → Prop) (x : EStateM ε σ α) (Q : α → σ → Prop) (R : σ → Prop) : Prop :=
  ∀ s, P s → match x s with
    | .ok a s' => Q a s'
    | .error _ s' => R s'

namespace Ensures

variable {P P' : σ → Prop} {Q Q' : α → σ → Prop} {R R' : σ → Prop}

theorem of_ok {x : EStateM ε σ α} (h : Ensures P x Q R) {s s' : σ} {a : α} (hs : P s)
    (hx : x s = .ok a s') : Q a s' := by
  have hrun := h s hs
  rwa [hx] at hrun

theorem of_error {x : EStateM ε σ α} (h : Ensures P x Q R) {s s' : σ} {e : ε} (hs : P s)
    (hx : x s = .error e s') : R s' := by
  have hrun := h s hs
  rwa [hx] at hrun

theorem pure {a : α} (h : ∀ s, P s → Q a s) : Ensures P (Pure.pure a : EStateM ε σ α) Q R :=
  fun s hs => h s hs

theorem throw {e : ε} (h : ∀ s, P s → R s) : Ensures P (MonadExcept.throw e : EStateM ε σ α) Q R :=
  fun s hs => h s hs

theorem get {Q : σ → σ → Prop} (h : ∀ s, P s → Q s s) :
    Ensures P (MonadState.get : EStateM ε σ σ) Q R :=
  fun s hs => h s hs

theorem modify {f : σ → σ} {Q : PUnit → σ → Prop} (h : ∀ s, P s → Q ⟨⟩ (f s)) :
    Ensures P (modify f : EStateM ε σ PUnit) Q R :=
  fun s hs => h s hs

theorem throwIf {c : Prop} [Decidable c] {e : ε} {Q : Unit → σ → Prop} (hr : ∀ s, P s → c → R s)
    (hq : ∀ s, P s → ¬ c → Q () s) : Ensures P (throwIf c e) Q R := by
  intro s hs
  by_cases hc : c
  · rw [Stateful.throwIf, if_pos hc]
    exact hr s hs hc
  · rw [Stateful.throwIf, if_neg hc]
    exact hq s hs hc

theorem bind {x : EStateM ε σ α} {f : α → EStateM ε σ β} {Q' : β → σ → Prop}
    (hx : Ensures P x Q R) (hf : ∀ a, Ensures (Q a) (f a) Q' R) : Ensures P (x >>= f) Q' R := by
  intro s hs
  have h := hx s hs
  show match EStateM.bind x f s with | .ok a s' => Q' a s' | .error _ s' => R s'
  rw [EStateM.bind]
  cases hrun : x s with
  | ok a s' => rw [hrun] at h; exact hf a s' h
  | error e s' => rw [hrun] at h; exact h

theorem mono {x : EStateM ε σ α} (h : Ensures P x Q R) (hp : ∀ s, P' s → P s)
    (hq : ∀ a s, Q a s → Q' a s) (hr : ∀ s, R s → R' s) : Ensures P' x Q' R' := by
  intro s hs
  have hrun := h s (hp s hs)
  cases hx : x s with
  | ok a s' => rw [hx] at hrun; exact hq a s' hrun
  | error e s' => rw [hx] at hrun; exact hr s' hrun

/-- A loop, with what holds when the elements of a prefix are done. -/
theorem forM {xs : List α} {f : α → EStateM ε σ PUnit} (I : List α → σ → Prop)
    (h : ∀ a ∈ xs, ∀ done, Ensures (I done) (f a) (fun _ => I (done ++ [a])) R) :
    ∀ done, Ensures (I done) (xs.forM f) (fun _ => I (done ++ xs)) R := by
  induction xs with
  | nil => intro done; exact Ensures.pure fun s hs => by simpa using hs
  | cons a xs ih =>
    intro done
    have hrest := ih (fun b hb => h b (by simp [hb])) (done ++ [a])
    rw [List.append_assoc, List.singleton_append] at hrest
    exact bind (h a (by simp) done) fun _ => hrest

/-- A loop with an accumulator. -/
theorem foldlM {xs : List α} {f : β → α → EStateM ε σ β} (I : β → σ → Prop)
    (h : ∀ a ∈ xs, ∀ b, Ensures (I b) (f b a) I R) :
    ∀ b, Ensures (I b) (xs.foldlM f b) I R := by
  induction xs with
  | nil => intro b; exact Ensures.pure fun s hs => hs
  | cons a xs ih =>
    intro b
    rw [List.foldlM_cons]
    exact bind (h a (by simp) b) fun b' => ih (fun c hc => h c (by simp [hc])) b'

end Ensures

/-! ### Programs that do not read the state they are given -/

/-- What comes of a program, without what it leaves behind. -/
def outcome (x : EStateM ε σ α) (s : σ) : Except ε α :=
  match x s with
  | .ok a _ => .ok a
  | .error e _ => .error e

/-- The program has this outcome in every state. -/
def Yields (x : EStateM ε σ α) (r : Except ε α) : Prop := ∀ s, outcome x s = r

namespace Yields

theorem pure (a : α) : Yields (Pure.pure a : EStateM ε σ α) (.ok a) := fun _ => rfl

theorem throwIf (c : Prop) [Decidable c] (e : ε) :
    Yields (Stateful.throwIf c e : EStateM ε σ Unit) (if c then .error e else .ok ()) := by
  intro s
  rw [Stateful.throwIf]
  split <;> rfl

theorem bind_ok {x : EStateM ε σ α} {f : α → EStateM ε σ β} {a : α} {r : Except ε β}
    (hx : Yields x (.ok a)) (hf : Yields (f a) r) : Yields (x >>= f) r := by
  intro s
  have h := hx s
  rw [outcome] at h ⊢
  cases hrun : x s with
  | ok a' s' =>
    rw [hrun] at h
    cases h
    rw [bind_of_ok hrun]
    exact hf s'
  | error e s' =>
    rw [hrun] at h
    cases h

theorem bind_error {x : EStateM ε σ α} {f : α → EStateM ε σ β} {e : ε}
    (hx : Yields x (.error e)) : Yields (x >>= f) (.error e) := by
  intro s
  have h := hx s
  rw [outcome] at h ⊢
  cases hrun : x s with
  | ok a s' =>
    rw [hrun] at h
    cases h
  | error e' s' =>
    rw [hrun] at h
    cases h
    rw [bind_of_error hrun]

theorem bind {x : EStateM ε σ α} {f : α → EStateM ε σ β} {r : Except ε α}
    {g : α → Except ε β} (hx : Yields x r) (hf : ∀ a, Yields (f a) (g a)) :
    Yields (x >>= f) (r >>= g) := by
  cases r with
  | ok a => exact bind_ok hx (hf a)
  | error e => exact bind_error hx

/-- A first part whose outcome is a function of another program's. -/
theorem bind_map {γ : Type} {x : EStateM ε σ α} {f : α → EStateM ε σ β} {r : Except ε γ}
    {u : γ → α} {g : γ → Except ε β} (hx : Yields x (r.map u)) (hf : ∀ c, Yields (f (u c)) (g c)) :
    Yields (x >>= f) (r >>= g) := by
  cases r with
  | ok c => exact bind_ok hx (hf c)
  | error e => exact bind_error hx

/-- A loop none of whose rounds reads what the round before has left. -/
theorem foldlM {xs : List α} {f : β → α → EStateM ε σ β} {g : β → α → Except ε β}
    (h : ∀ b a, Yields (f b a) (g b a)) : ∀ b, Yields (xs.foldlM f b) (xs.foldlM g b) := by
  induction xs with
  | nil => exact fun b => Yields.pure b
  | cons a xs ih =>
    intro b
    rw [List.foldlM_cons, List.foldlM_cons]
    exact (h b a).bind ih

end Yields

end Stateful

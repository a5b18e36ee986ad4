import Mathlib.Algebra.Order.BigOperators.Group.List
import Mathlib.Algebra.Order.Ring.Nat

/-!
# Loops over an external cursor

`while ((a = next(&s)) != null) { … }`, where each call advances the cursor and the body may advance
it again.

## Main definitions

* `Cursor.loop` — the loop, with fuel
* `Cursor.Reads` — a cursor that is a position in a list
* `Cursor.foldUntil`, `Cursor.stride` — what the loop makes of a list, and of which elements

## Main results

* `Cursor.loop_eq` — with enough fuel, a loop that skips `k` elements each turn folds the stride
* `Cursor.sum_stride_lt` — skipping leaves something out as soon as there are two elements
-/

namespace Cursor

variable {σ α β γ : Type}

/-- The loop: `body` says whether it goes on, and `advance` is what it does to the cursor. -/
def loop (next : σ → Option α × σ) (body : β → α → ForInStep β) (advance : σ → σ) :
    ℕ → β → σ → Option β
  | 0, _, _ => none
  | fuel + 1, b, s =>
    match next s with
    | (none, _) => some b
    | (some a, s') =>
      match body b a with
      | .done b' => some b'
      | .yield b' => loop next body advance fuel b' (advance s')

/-- The same body over the elements of a list. -/
def foldUntil (body : β → α → ForInStep β) : β → List α → β
  | b, [] => b
  | b, a :: as =>
    match body b a with
    | .done b' => b'
    | .yield b' => foldUntil body b' as

/-- The first element, and then every one that stands `k + 1` places behind the one before. -/
def stride (k : ℕ) : List α → List α
  | [] => []
  | a :: as => a :: stride k (as.drop k)
termination_by as => as.length
decreasing_by
  rw [List.length_cons, List.length_drop]
  omega

/-- The cursor is a position in `as`: reading moves it by one, and past the end there is nothing. -/
structure Reads (next : ℕ → Option α × ℕ) (as : List α) : Prop where
  inside : ∀ i a, as[i]? = some a → next i = (some a, i + 1)
  past : ∀ i, as.length ≤ i → (next i).1 = none

theorem stride_nil (k : ℕ) : stride k ([] : List α) = [] := by rw [stride]

theorem stride_cons (k : ℕ) (a : α) (as : List α) :
    stride k (a :: as) = a :: stride k (as.drop k) := by rw [stride]

/-- **With enough fuel the loop folds the stride of the list.** The induction is on the fuel, which
is more than what is left of the list. -/
theorem loop_eq {next : ℕ → Option α × ℕ} {as : List α} (h : Reads next as)
    (body : β → α → ForInStep β) (k : ℕ) : ∀ (fuel : ℕ) (b : β) (i : ℕ), as.length - i < fuel →
    loop next body (· + k) fuel b i = some (foldUntil body b (stride k (as.drop i))) := by
  intro fuel
  induction fuel with
  | zero => intro b i hfuel; omega
  | succ fuel ih =>
    intro b i hfuel
    rw [loop]
    by_cases hi : i < as.length
    · rw [h.inside i as[i] (List.getElem?_eq_getElem hi), List.drop_eq_getElem_cons hi, stride_cons,
        foldUntil, List.drop_drop]
      simp only
      split
      · rfl
      · exact ih _ (i + 1 + k) (by omega)
    · have hnone := h.past i (by omega)
      rw [List.drop_eq_nil_of_le (by omega), stride_nil]
      split
      · rfl
      · rename_i hsome
        rw [hsome] at hnone
        cases hnone

theorem stride_zero (as : List α) : stride 0 as = as := by
  induction as with
  | nil => exact stride_nil 0
  | cons a as ih => rw [stride_cons, List.drop_zero, ih]

theorem stride_of_length_le_one {k : ℕ} {as : List α} (h : as.length ≤ 1) : stride k as = as := by
  cases as with
  | nil => exact stride_nil k
  | cons a as =>
    have hnil : as = [] := by
      rw [List.length_cons] at h
      exact List.length_eq_zero_iff.mp (by omega)
    rw [hnil, stride_cons, List.drop_nil, stride_nil]

theorem stride_sublist (k : ℕ) (as : List α) : (stride k as).Sublist as := by
  induction as using stride.induct (k := k) with
  | case1 => rw [stride_nil]
  | case2 a as ih =>
    rw [stride_cons]
    exact (ih.trans (List.drop_sublist k as)).cons_cons a

/-- **A loop that skips elements leaves something out as soon as there are two**: what it visits
weighs less, whatever the weights. -/
theorem sum_stride_lt {k : ℕ} (hk : 0 < k) {weight : α → ℕ} (hw : ∀ a, 0 < weight a) {as : List α}
    (h : 1 < as.length) : ((stride k as).map weight).sum < (as.map weight).sum := by
  cases as with
  | nil => exact absurd h (Nat.not_lt_zero 1)
  | cons a as =>
    have hrest : ((stride k (as.drop k)).map weight).sum ≤ ((as.drop k).map weight).sum :=
      ((stride_sublist k (as.drop k)).map weight).sum_le_sum fun _ _ => Nat.zero_le _
    have hskipped : 0 < ((as.take k).map weight).sum := by
      obtain ⟨b, hb⟩ : ∃ b, b ∈ as.take k := by
        refine List.exists_mem_of_length_pos ?_
        rw [List.length_cons] at h
        rw [List.length_take]
        omega
      exact (hw b).trans_le (List.le_sum_of_mem (List.mem_map_of_mem hb))
    have hsplit : (as.map weight).sum =
        ((as.take k).map weight).sum + ((as.drop k).map weight).sum := by
      rw [← List.sum_append, ← List.map_append, List.take_append_drop]
    rw [stride_cons, List.map_cons, List.map_cons, List.sum_cons, List.sum_cons]
    omega

/-! ### Two bodies -/

theorem foldUntil_yield (f : β → α → β) (as : List α) :
    ∀ b, foldUntil (fun b a => .yield (f b a)) b as = as.foldl f b := by
  induction as with
  | nil => intro b; rfl
  | cons a as ih => intro b; exact ih (f b a)

theorem foldUntil_find (p : α → Bool) (as : List α) :
    foldUntil (fun _ a => if p a then .done (some a) else .yield none) none as = as.find? p := by
  induction as with
  | nil => rfl
  | cons a as ih =>
    rw [foldUntil]
    by_cases ha : p a = true
    · rw [List.find?_cons_of_pos ha, if_pos ha]
    · rw [List.find?_cons_of_neg ha, if_neg ha]
      exact ih

end Cursor

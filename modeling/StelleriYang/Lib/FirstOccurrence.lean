import Mathlib.Data.List.Nodup

/-!
# Appending what is not there

A list that grows by the elements it does not have, as a register without repetition does.

## Main definitions

* `FirstOccurrence.appendNew` — one element, `FirstOccurrence.appendAllNew` — one after the other

## Main results

* `FirstOccurrence.appendAllNew_eq` — what is appended are the first occurrences of the new elements
* `FirstOccurrence.nodup_appendAllNew`, `FirstOccurrence.appendAllNew_absorb`
* `FirstOccurrence.appendAllNew_filter_eq_append_iff` — when every element is appended
-/

namespace FirstOccurrence

variable {α : Type} [DecidableEq α]

/-- `x` at the end, unless it is there already. -/
def appendNew (xs : List α) (x : α) : List α := if x ∈ xs then xs else xs ++ [x]

/-- The elements of `ys`, one after the other. -/
def appendAllNew (xs ys : List α) : List α := ys.foldl appendNew xs

@[simp] theorem appendAllNew_nil (xs : List α) : appendAllNew xs [] = xs := rfl

theorem appendAllNew_cons (xs : List α) (y : α) (ys : List α) :
    appendAllNew xs (y :: ys) = appendAllNew (appendNew xs y) ys := rfl

theorem appendAllNew_append (xs ys zs : List α) :
    appendAllNew xs (ys ++ zs) = appendAllNew (appendAllNew xs ys) zs := List.foldl_append

@[simp] theorem mem_appendNew {xs : List α} {x y : α} : x ∈ appendNew xs y ↔ x ∈ xs ∨ x = y := by
  rw [appendNew]
  split
  · rename_i h
    refine ⟨.inl, fun hx => hx.elim id fun hxy => hxy ▸ h⟩
  · simp

/-- **What is appended are the new elements, at their first occurrences.** The prefix that is
scanned grows along the way; the induction is on what is still to come. -/
theorem appendAllNew_eq : ∀ (ys xs : List α),
    appendAllNew xs ys = xs ++ (ys.filter fun y => decide (y ∉ xs)).eraseDups := by
  intro ys
  induction ys with
  | nil => intro xs; simp
  | cons y ys ih =>
    intro xs
    rw [appendAllNew_cons, ih, appendNew]
    by_cases hy : y ∈ xs
    · rw [if_pos hy, List.filter_cons_of_neg (by simpa using hy)]
    · rw [if_neg hy, List.filter_cons_of_pos (by simpa using hy), List.eraseDups_cons,
        List.filter_filter, List.append_assoc, List.singleton_append]
      congr 4
      funext z
      by_cases hzy : z = y <;> simp [hzy]

theorem mem_appendAllNew {xs ys : List α} {x : α} :
    x ∈ appendAllNew xs ys ↔ x ∈ xs ∨ x ∈ ys := by
  rw [appendAllNew_eq, List.mem_append, List.mem_eraseDups, List.mem_filter]
  by_cases hx : x ∈ xs
  · simp [hx]
  · simp [hx]

theorem nodup_appendNew {xs : List α} (x : α) (h : xs.Nodup) : (appendNew xs x).Nodup := by
  rw [appendNew]
  split
  · exact h
  · rename_i hx
    exact List.nodup_append.mpr ⟨h, by simp, fun a ha b hb => by
      rw [List.mem_singleton.mp hb]
      exact fun hab => hx (hab ▸ ha)⟩

theorem nodup_appendAllNew : ∀ {ys xs : List α}, xs.Nodup → (appendAllNew xs ys).Nodup := by
  intro ys
  induction ys with
  | nil => intro xs h; exact h
  | cons y ys ih => intro xs h; exact ih (nodup_appendNew y h)

theorem nodup_eraseDups (ys : List α) : ys.eraseDups.Nodup := by
  have h : (appendAllNew [] ys).Nodup := nodup_appendAllNew List.nodup_nil
  rw [appendAllNew_eq] at h
  simpa using h

theorem eraseDups_of_nodup : ∀ {ys : List α}, ys.Nodup → ys.eraseDups = ys := by
  intro ys
  induction ys with
  | nil => intro _; rfl
  | cons y ys ih =>
    intro h
    obtain ⟨hy, hys⟩ := List.nodup_cons.mp h
    have hfilter : (ys.filter fun z => !z == y) = ys :=
      List.filter_eq_self.mpr fun z hz => by
        simpa using fun hzy : z = y => hy (hzy ▸ hz)
    rw [List.eraseDups_cons, hfilter, ih hys]

/-- Repetitions of one element. -/
theorem appendAllNew_repeated {x : α} : ∀ {ys : List α}, ys ≠ [] → (∀ y ∈ ys, y = x) →
    ∀ xs, appendAllNew xs ys = appendNew xs x := by
  intro ys
  induction ys with
  | nil => intro h; exact absurd rfl h
  | cons y ys ih =>
    intro _ hys xs
    obtain ⟨rfl, hrest⟩ := List.forall_mem_cons.mp hys
    rw [appendAllNew_cons]
    by_cases hnil : ys = []
    · rw [hnil, appendAllNew_nil]
    · rw [ih hnil hrest, appendNew, if_pos (mem_appendNew.mpr (Or.inr rfl))]

/-- Elements that come in groups of repetitions. -/
theorem appendAllNew_flatMap {β : Type} {f : β → List α} {key : β → α} {bs : List β}
    (h : ∀ b ∈ bs, f b ≠ [] ∧ ∀ y ∈ f b, y = key b) :
    ∀ xs, appendAllNew xs (bs.flatMap f) = appendAllNew xs (bs.map key) := by
  induction bs with
  | nil => intro xs; rfl
  | cons b bs ih =>
    intro xs
    obtain ⟨⟨hne, hkey⟩, hrest⟩ := List.forall_mem_cons.mp h
    rw [List.flatMap_cons, appendAllNew_append, appendAllNew_repeated hne hkey, ih hrest,
      List.map_cons, appendAllNew_cons]

theorem appendAllNew_of_nodup {ys : List α} (h : ys.Nodup) : appendAllNew [] ys = ys := by
  rw [appendAllNew_eq, List.nil_append, List.filter_eq_self.mpr (by simp), eraseDups_of_nodup h]

theorem appendAllNew_of_subset {xs ys : List α} (h : ys ⊆ xs) : appendAllNew xs ys = xs := by
  have hnone : (ys.filter fun y => decide (y ∉ xs)) = [] :=
    List.filter_eq_nil_iff.mpr fun y hy => by simpa using h hy
  rw [appendAllNew_eq, hnone, List.eraseDups_nil, List.append_nil]

/-- **Appending to fewer elements first makes no difference.** Where an element is new to both lists
it is the first to be appended to either. -/
theorem appendAllNew_absorb : ∀ {ys ws xs : List α}, ws ⊆ xs →
    appendAllNew xs (appendAllNew ws ys) = appendAllNew xs ys := by
  intro ys
  induction ys with
  | nil => intro ws xs h; exact appendAllNew_of_subset h
  | cons y ys ih =>
    intro ws xs h
    rw [appendAllNew_cons, appendAllNew_cons, appendNew, appendNew]
    by_cases hx : y ∈ xs
    · rw [if_pos hx]
      split
      · exact ih h
      · exact ih (List.append_subset.mpr ⟨h, by simpa using hx⟩)
    · have hw : y ∉ ws := fun hw => hx (h hw)
      have hsub : ws ++ [y] ⊆ xs ++ [y] :=
        List.append_subset.mpr ⟨fun w hw => List.mem_append_left _ (h hw),
          List.subset_append_right xs [y]⟩
      have hgrow : appendAllNew xs (ws ++ [y]) = xs ++ [y] := by
        rw [appendAllNew_append, appendAllNew_of_subset h, appendAllNew_cons, appendAllNew_nil,
          appendNew, if_neg hx]
      rw [if_neg hx, if_neg hw, ← ih hsub, appendAllNew_eq ys (ws ++ [y]), appendAllNew_append,
        hgrow, appendAllNew_append (xs ++ [y]), appendAllNew_of_subset hsub]

/-- **Appending the result again changes nothing.** -/
theorem appendAllNew_idem (xs ys : List α) :
    appendAllNew xs (appendAllNew xs ys) = appendAllNew xs ys :=
  appendAllNew_absorb (List.Subset.refl xs)

/-- What is appended was offered. -/
theorem subset_of_appendAllNew_eq {xs ys zs : List α} (h : appendAllNew xs ys = xs ++ zs) :
    zs ⊆ ys := by
  intro z hz
  rw [appendAllNew_eq, List.append_cancel_left_eq] at h
  rw [← h, List.mem_eraseDups, List.mem_filter] at hz
  exact hz.1

/-- **When every element is appended, although only those of `p` are offered.** -/
theorem appendAllNew_filter_eq_append_iff {xs ys : List α} {p : α → Bool} :
    appendAllNew xs (ys.filter p) = xs ++ ys ↔
      (∀ y ∈ ys, p y = true ∧ y ∉ xs) ∧ ys.Nodup := by
  rw [appendAllNew_eq, List.append_cancel_left_eq, List.filter_filter]
  constructor
  · intro h
    refine ⟨fun y hy => ?_, h ▸ nodup_eraseDups _⟩
    rw [← h, List.mem_eraseDups, List.mem_filter] at hy
    simpa [and_comm] using hy.2
  · rintro ⟨hall, hnodup⟩
    have hself : (ys.filter fun y => decide (y ∉ xs) && p y) = ys :=
      List.filter_eq_self.mpr fun y hy => by simp [hall y hy]
    rw [hself, eraseDups_of_nodup hnodup]

end FirstOccurrence

import Mathlib.Data.List.Nodup

/-!
# Lists with a key

Elements are looked up by a key, and a loop that removes one stops at the first it finds. That is
enough exactly as long as no two elements share a key.

## Main definitions

* `KeyedList.Distinct` — no two elements share a key
* `KeyedList.removeFirst` — the loop
* `KeyedList.queue` — the elements of one key, in order

## Main results

* `KeyedList.queue_concat`, `KeyedList.queue_removeFirst` — for each key the list is a queue:
  elements are added at its end and removed at its front

* `KeyedList.distinct_concat`, `KeyedList.Distinct.removeFirst` — what keeps the keys distinct
* `KeyedList.distinct_iff` — they are distinct exactly if the loop leaves no element of any key
-/

namespace KeyedList

variable {α κ : Type} [DecidableEq κ] {key : α → κ}

/-- No two elements share a key. -/
def Distinct (key : α → κ) (as : List α) : Prop := (as.map key).Nodup

/-- Erase the first element with the key: whether there is one, and what is left. -/
def removeFirst (key : α → κ) (k : κ) : List α → Bool × List α
  | [] => (false, [])
  | a :: as =>
    if key a = k then (true, as)
    else ((removeFirst key k as).1, a :: (removeFirst key k as).2)

theorem removeFirst_cons_of_eq {k : κ} {a : α} (h : key a = k) (as : List α) :
    removeFirst key k (a :: as) = (true, as) := by
  rw [removeFirst, if_pos h]

theorem removeFirst_cons_of_ne {k : κ} {a : α} (h : key a ≠ k) (as : List α) :
    removeFirst key k (a :: as) =
      ((removeFirst key k as).1, a :: (removeFirst key k as).2) := by
  rw [removeFirst, if_neg h]

theorem removeFirst_sublist (k : κ) (as : List α) : (removeFirst key k as).2.Sublist as := by
  induction as with
  | nil => exact .slnil
  | cons a as ih =>
    by_cases ha : key a = k
    · rw [removeFirst_cons_of_eq ha]
      exact List.sublist_cons_self a as
    · rw [removeFirst_cons_of_ne ha]
      exact ih.cons_cons a

/-- The loop says whether it has found an element. -/
theorem removeFirst_fst (k : κ) (as : List α) :
    (removeFirst key k as).1 = true ↔ k ∈ as.map key := by
  induction as with
  | nil => simp [removeFirst]
  | cons a as ih =>
    rw [List.map_cons, List.mem_cons]
    by_cases ha : key a = k
    · rw [removeFirst_cons_of_eq ha]
      exact iff_of_true rfl (Or.inl ha.symm)
    · rw [removeFirst_cons_of_ne ha, ih]
      exact ⟨Or.inr, fun h => h.resolve_left fun heq => ha heq.symm⟩

/-- If there is none nothing happens. -/
theorem removeFirst_of_notMem {k : κ} {as : List α} (h : k ∉ as.map key) :
    (removeFirst key k as).2 = as := by
  induction as with
  | nil => rfl
  | cons a as ih =>
    rw [List.map_cons, List.mem_cons, not_or] at h
    rw [removeFirst_cons_of_ne fun heq => h.1 heq.symm, ih h.2]

theorem filter_of_notMem {k : κ} {as : List α} (h : k ∉ as.map key) :
    (as.filter fun a => key a ≠ k) = as := by
  refine List.filter_eq_self.mpr fun a ha => ?_
  simpa using fun heq : key a = k => h (heq ▸ List.mem_map_of_mem ha)

omit [DecidableEq κ] in
/-- A new element has to have a new key. -/
theorem distinct_concat {as : List α} {a : α} :
    Distinct key (as ++ [a]) ↔ Distinct key as ∧ key a ∉ as.map key := by
  have hperm : ((as ++ [a]).map key).Perm (key a :: as.map key) := by
    rw [List.map_append]
    exact List.perm_append_comm
  rw [Distinct, hperm.nodup_iff, List.nodup_cons, and_comm]
  rfl

theorem Distinct.removeFirst {as : List α} (h : Distinct key as) (k : κ) :
    Distinct key (removeFirst key k as).2 :=
  h.sublist ((removeFirst_sublist k as).map key)

/-! ### One queue for each key -/

/-- The elements of one key, in order. -/
def queue (key : α → κ) (k : κ) (as : List α) : List α := as.filter fun a => key a = k

theorem queue_concat (k : κ) (as : List α) (a : α) :
    queue key k (as ++ [a]) = if key a = k then queue key k as ++ [a] else queue key k as := by
  by_cases h : key a = k
  · simp [queue, h]
  · simp [queue, h]

/-- **The loop takes the front of the queue of its key**, and leaves the others alone. -/
theorem queue_removeFirst (k k' : κ) (as : List α) :
    queue key k (removeFirst key k' as).2 =
      if k' = k then (queue key k as).tail else queue key k as := by
  induction as with
  | nil => simp [queue, removeFirst]
  | cons a as ih =>
    by_cases ha : key a = k'
    · rw [removeFirst_cons_of_eq ha]
      by_cases hk : k' = k
      · rw [if_pos hk, queue, queue, List.filter_cons_of_pos (by simpa using ha.trans hk),
          List.tail_cons]
      · rw [if_neg hk, queue, queue, List.filter_cons_of_neg (by simpa [ha] using hk)]
    · rw [removeFirst_cons_of_ne ha]
      by_cases hk : key a = k
      · -- an element of another key that stays in front
        have hne : k' ≠ k := fun h => ha (hk.trans h.symm)
        rw [if_neg hne] at ih ⊢
        rw [queue, List.filter_cons_of_pos (by simpa using hk), queue,
          List.filter_cons_of_pos (by simpa using hk)]
        exact congrArg (a :: ·) ih
      · rw [queue, List.filter_cons_of_neg (by simpa using hk), queue,
          List.filter_cons_of_neg (by simpa using hk)]
        exact ih

/-- Where no two elements share a key, no queue is longer than one. -/
theorem Distinct.queue_eq {as : List α} (h : Distinct key as) {a : α} (ha : a ∈ as) :
    queue key (key a) as = [a] := by
  induction as with
  | nil => cases ha
  | cons b as ih =>
    obtain ⟨hb, has⟩ : key b ∉ as.map key ∧ Distinct key as := List.nodup_cons.mp h
    by_cases hab : key b = key a
    · obtain rfl : a = b := by
        rcases List.mem_cons.mp ha with rfl | ha
        · rfl
        · exact absurd (List.mem_map_of_mem ha) (hab ▸ hb)
      have hnone : as.filter (fun b => key b = key a) = [] :=
        List.filter_eq_nil_iff.mpr fun c hc heq =>
          hb (List.mem_map.mpr ⟨c, hc, of_decide_eq_true heq⟩)
      rw [queue, List.filter_cons_of_pos (by simp), hnone]
    · rw [queue, List.filter_cons_of_neg (by simpa using hab)]
      exact ih has ((List.mem_cons.mp ha).resolve_left fun heq => hab (heq ▸ rfl))

/-- **Removing the first removes all** exactly if no two elements share a key. -/
theorem distinct_iff {as : List α} : Distinct key as ↔
    ∀ k, (removeFirst key k as).2 = as.filter fun a => key a ≠ k := by
  induction as with
  | nil => exact iff_of_true List.nodup_nil fun _ => rfl
  | cons a as ih =>
    have hcons : Distinct key (a :: as) ↔ key a ∉ as.map key ∧ Distinct key as := List.nodup_cons
    have hdrop : ((a :: as).filter fun b => key b ≠ key a) = as.filter fun b => key b ≠ key a :=
      List.filter_cons_of_neg (by simp)
    rw [hcons]
    constructor
    · rintro ⟨hnew, hrest⟩ k
      by_cases ha : key a = k
      · rw [← ha, removeFirst_cons_of_eq rfl, hdrop, filter_of_notMem hnew]
      · rw [removeFirst_cons_of_ne ha, List.filter_cons_of_pos (by simpa using ha), ih.mp hrest k]
    · intro h
      -- the element in front is erased alone, so no other has its key
      have hnew : key a ∉ as.map key := by
        intro hmem
        obtain ⟨b, hb, hkey⟩ := List.mem_map.mp hmem
        have hself := h (key a)
        rw [removeFirst_cons_of_eq rfl, hdrop] at hself
        simpa [hkey] using List.filter_eq_self.mp hself.symm b hb
      refine ⟨hnew, ih.mpr fun k => ?_⟩
      by_cases ha : key a = k
      · rw [← ha, removeFirst_of_notMem hnew, filter_of_notMem hnew]
      · have hk := h k
        rw [removeFirst_cons_of_ne ha, List.filter_cons_of_pos (by simpa using ha)] at hk
        exact (List.cons.inj hk).2

end KeyedList

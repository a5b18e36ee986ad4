import Mathlib.Data.List.Basic
import Mathlib.Data.List.TakeWhile
import Mathlib.Tactic.NormNum

/-!
# Text: C strings, splitting at a character and reading numerals

The handful of string operations a program that handles textual values rests on: `c_str` on the
way to a C library, `find` followed by two `substr`, and the numeral readers `stoul` and `stoi` of
the C++ library.

## Main definitions

* `Text.cStr` — what a C library reads of a text
* `Text.NulFree` — a text it reads as a whole
* `Text.splitFirst` — the text before and after the first occurrence of a character
* `Text.stoul`, `Text.stoi` — decimal numerals, with the failures of the library functions
* `Text.IsNumeral`, `Text.IsSignedNumeral` — what a numeral stands for
* `Text.HasNumeral` — a text that starts with a numeral

## Main results

* `Text.cStr_eq_self_iff`, `Text.nulFree_cStr`
* `Text.splitFirst_eq_some_iff`, `Text.splitFirst_eq_none_iff`
* `Text.stoul_toUInt32`, `Text.stoi_of_isSignedNumeral` — numerals in range are read exactly
* `Text.isNumeral_repr` — a printed number is a numeral
* `Text.stoul_eq_ok_iff`, `Text.stoul_eq_error_iff`, `Text.stoi_eq_ok_iff`,
  `Text.stoi_eq_error_iff` — what the readers make of any text
-/

namespace Text

/-! ### C strings

A C string ends at the first NUL, so a text that holds one is handed over in part. -/

/-- The character with which a C string ends. -/
def nul : Char := Char.ofNat 0

/-- `c_str`, as the callee reads it: the text up to the first `nul`. -/
def cStr (s : String) : String := String.ofList (s.toList.takeWhile (· != nul))

/-- A text that is handed over whole. -/
def NulFree (s : String) : Prop := nul ∉ s.toList

instance (s : String) : Decidable (NulFree s) := inferInstanceAs (Decidable (nul ∉ s.toList))

theorem cStr_eq_self_iff {s : String} : cStr s = s ↔ NulFree s := by
  rw [cStr, ← String.toList_inj, String.toList_ofList, List.takeWhile_eq_self_iff, NulFree]
  constructor
  · intro h hnul
    simpa using h nul hnul
  · intro h c hc
    simpa using fun hnul : c = nul => h (hnul ▸ hc)

theorem NulFree.cStr_eq {s : String} (h : NulFree s) : cStr s = s := cStr_eq_self_iff.mpr h

theorem map_cStr_eq {ss : List String} (h : ∀ s ∈ ss, NulFree s) : ss.map cStr = ss :=
  (List.map_congr_left fun s hs => (h s hs).cStr_eq).trans (List.map_id ss)

theorem nulFree_cStr (s : String) : NulFree (cStr s) := by
  intro h
  rw [cStr, String.toList_ofList] at h
  simpa using List.mem_takeWhile_imp h

@[simp] theorem cStr_cStr (s : String) : cStr (cStr s) = cStr s := (nulFree_cStr s).cStr_eq

/-- A text without a zero among its bytes. -/
theorem nulFree_of_bytes {s : String} (h : 0 ∉ s.toByteArray.data.toList) : NulFree s := by
  intro hnul
  obtain ⟨front, rest, hsplit⟩ := List.append_of_mem hnul
  have hbytes : s.toByteArray.data.toList = s.toList.flatMap String.utf8EncodeChar := by
    rw [← String.utf8Encode_toList, List.utf8Encode, List.toList_data_toByteArray]
  have hzero : String.utf8EncodeChar nul = [0] := by decide
  exact h (by simp [hbytes, hsplit, hzero])

/-- What is handed over of a text that begins with a stretch without NULs. -/
theorem NulFree.cStr_append {s : String} (h : NulFree s) (t : String) :
    cStr (s ++ t) = s ++ cStr t := by
  have hall : ∀ c ∈ s.toList, (c != nul) = true := fun c hc => by
    simpa using fun hnul : c = nul => h (hnul ▸ hc)
  rw [cStr, cStr, ← String.toList_inj, String.toList_append, String.toList_append,
    String.toList_ofList, String.toList_ofList, List.takeWhile_append_of_pos hall]

theorem NulFree.append {s t : String} (hs : NulFree s) (ht : NulFree t) : NulFree (s ++ t) := by
  rw [NulFree, String.toList_append, List.mem_append, not_or]
  exact ⟨hs, ht⟩

/-! ### Splitting at the first occurrence -/

/-- `s` cut at the first `c`: what stands before it and what stands after it. -/
def splitFirst (c : Char) (s : String) : Option (String × String) :=
  match s.toList.dropWhile (· != c) with
  | _ :: b => some (String.ofList (s.toList.takeWhile (· != c)), String.ofList b)
  | [] => none

theorem splitFirst_eq_some_iff {c : Char} {s a b : String} :
    splitFirst c s = some (a, b) ↔ s.toList = a.toList ++ c :: b.toList ∧ c ∉ a.toList := by
  constructor
  · intro h
    rw [splitFirst] at h
    cases hd : s.toList.dropWhile (· != c) with
    | nil => simp [hd] at h
    | cons x rest =>
      simp only [hd, Option.some.injEq, Prod.mk.injEq] at h
      obtain ⟨rfl, rfl⟩ := h
      have hx : x = c := by
        have := List.head_dropWhile_not (p := (· != c)) (l := s.toList) (by simp [hd])
        simpa [hd] using this
      have hsplit := List.takeWhile_append_dropWhile (p := (· != c)) (l := s.toList)
      rw [hd, hx] at hsplit
      refine ⟨by simp [hsplit], fun hmem => ?_⟩
      have := List.mem_takeWhile_imp (by simpa using hmem)
      simp at this
  · rintro ⟨hs, ha⟩
    have hall : ∀ x ∈ a.toList, (x != c) = true := fun x hx => by
      simpa using fun h : x = c => ha (h ▸ hx)
    rw [splitFirst, hs, List.takeWhile_append_of_pos hall, List.dropWhile_append_of_pos hall]
    simp

theorem splitFirst_eq_none_iff {c : Char} {s : String} :
    splitFirst c s = none ↔ c ∉ s.toList := by
  constructor
  · intro h hc
    obtain ⟨a, b, hs, ha⟩ := List.eq_append_cons_of_mem hc
    have : splitFirst c s = some (String.ofList a, String.ofList b) :=
      splitFirst_eq_some_iff.mpr ⟨by simpa using hs, by simpa using ha⟩
    rw [h] at this
    cases this
  · intro h
    cases hs : splitFirst c s with
    | none => rfl
    | some p =>
      obtain ⟨hl, -⟩ := splitFirst_eq_some_iff.mp hs
      exact absurd (by rw [hl]; simp) h

/-- The parts of a text that is handed over whole. -/
theorem NulFree.splitFirst {c : Char} {s a b : String} (hs : NulFree s)
    (h : splitFirst c s = some (a, b)) : NulFree a ∧ NulFree b := by
  obtain ⟨hsplit, -⟩ := splitFirst_eq_some_iff.mp h
  rw [NulFree, hsplit, List.mem_append, List.mem_cons, not_or, not_or] at hs
  exact ⟨hs.1, hs.2.2⟩

/-! ### Numerals -/

/-- How the numeral readers fail. -/
inductive NumeralError where
  | invalidArgument
  | outOfRange
  deriving DecidableEq, Repr

/-- `isspace` in the C locale. -/
def isSpace (c : Char) : Bool := c.toNat == 32 || (9 ≤ c.toNat && c.toNat ≤ 13)

/-- An optional sign: whether it is a minus, and what follows it. -/
def sign : List Char → Bool × List Char
  | '-' :: rest => (true, rest)
  | '+' :: rest => (false, rest)
  | rest => (false, rest)

/-- Sign and absolute value of the numeral `s` starts with: blanks are skipped and reading stops
at the first character that is no digit. -/
def numeral (s : String) : Except NumeralError (Bool × ℕ) :=
  let (minus, rest) := sign (s.toList.dropWhile isSpace)
  match rest.takeWhile Char.isDigit with
  | [] => .error .invalidArgument
  | ds => .ok (minus, Nat.ofDigitChars 10 ds 0)

/-- `std::stoul` for a 64-bit `unsigned long`: a minus sign negates modulo `2 ^ 64`. -/
def stoul (s : String) : Except NumeralError UInt64 :=
  match numeral s with
  | .error e => .error e
  | .ok (minus, n) =>
    if 2 ^ 64 ≤ n then .error .outOfRange
    else .ok (if minus then - UInt64.ofNat n else UInt64.ofNat n)

/-- `std::stoi` for a 32-bit `int`. -/
def stoi (s : String) : Except NumeralError Int32 :=
  match numeral s with
  | .error e => .error e
  | .ok (minus, n) =>
    let z : ℤ := if minus then - (n : ℤ) else n
    if z < - 2 ^ 31 ∨ 2 ^ 31 ≤ z then .error .outOfRange else .ok (Int32.ofInt z)

/-- `s` consists of decimal digits, and `n` is the number they stand for. -/
structure IsNumeral (s : String) (n : ℕ) : Prop where
  digits : ∀ c ∈ s.toList, c.isDigit = true
  ne_nil : s.toList ≠ []
  value : Nat.ofDigitChars 10 s.toList 0 = n

/-- A numeral that may have a minus sign in front. -/
def IsSignedNumeral (s : String) (z : ℤ) : Prop :=
  (∃ n : ℕ, IsNumeral s n ∧ z = n) ∨ ∃ t, ∃ n : ℕ, s = "-" ++ t ∧ IsNumeral t n ∧ z = -(n : ℤ)

theorem isNumeral_repr (n : ℕ) : IsNumeral n.repr n where
  digits c hc := by
    rw [Nat.toList_repr] at hc
    exact Nat.isDigit_of_mem_toDigits (by omega) (by omega) hc
  ne_nil := by
    rw [Nat.toList_repr]
    exact Nat.toDigits_ne_nil
  value := by rw [Nat.toList_repr, Nat.ofDigitChars_ten_toDigits]

/-- The digits of a number. -/
theorem nulFree_repr (n : ℕ) : NulFree n.repr := fun h =>
  absurd ((isNumeral_repr n).digits nul h) (by decide)

theorem isSpace_of_isDigit {c : Char} (hc : c.isDigit = true) : isSpace c = false := by
  simp only [Char.isDigit, Bool.and_eq_true, decide_eq_true_eq, ge_iff_le,
    UInt32.le_iff_toNat_le] at hc
  have h48 : 48 ≤ c.toNat := hc.1
  simp only [isSpace, Bool.or_eq_false_iff, beq_eq_false_iff_ne, Bool.and_eq_false_iff,
    decide_eq_false_iff_not]
  omega

theorem takeWhile_of_isNumeral {s : String} {n : ℕ} (h : IsNumeral s n) :
    s.toList.takeWhile Char.isDigit = s.toList :=
  List.takeWhile_eq_self_iff.mpr h.digits

theorem numeral_of_isNumeral {s : String} {n : ℕ} (h : IsNumeral s n) :
    numeral s = .ok (false, n) := by
  obtain ⟨c, rest, hcr⟩ := List.exists_cons_of_ne_nil h.ne_nil
  have hc : c.isDigit = true := h.digits c (by rw [hcr]; simp)
  have hdrop : s.toList.dropWhile isSpace = s.toList := by
    rw [hcr, List.dropWhile_cons_of_neg (by simp [isSpace_of_isDigit hc])]
  have hsign : sign s.toList = (false, s.toList) := by
    rw [hcr]
    unfold sign
    split
    · rename_i heq; cases heq; exact absurd hc (by decide)
    · rename_i heq; cases heq; exact absurd hc (by decide)
    · rfl
  rw [numeral, hdrop, hsign]
  have hvalue := h.value
  simp only [takeWhile_of_isNumeral h]
  rw [hcr] at hvalue ⊢
  rw [← hvalue]

theorem numeral_minus {s : String} {n : ℕ} (h : IsNumeral s n) :
    numeral ("-" ++ s) = .ok (true, n) := by
  have hlist : ("-" ++ s).toList = '-' :: s.toList := by simp
  have hdrop : ('-' :: s.toList).dropWhile isSpace = '-' :: s.toList :=
    List.dropWhile_cons_of_neg (by decide)
  have hsign : sign ('-' :: s.toList) = (true, s.toList) := rfl
  obtain ⟨c, rest, hcr⟩ := List.exists_cons_of_ne_nil h.ne_nil
  rw [numeral, hlist, hdrop, hsign]
  have hvalue := h.value
  simp only [takeWhile_of_isNumeral h]
  rw [hcr] at hvalue ⊢
  rw [← hvalue]

theorem stoul_of_isNumeral {s : String} {n : ℕ} (h : IsNumeral s n) (hn : n < 2 ^ 64) :
    stoul s = .ok (UInt64.ofNat n) := by
  simp only [stoul, numeral_of_isNumeral h, if_neg (Nat.not_le.mpr hn)]
  rfl

/-- `static_cast<uint32_t>(std::stoul(v))` is exact on numerals of a `uint32_t`. -/
theorem stoul_toUInt32 {s : String} {k : UInt32} (h : IsNumeral s k.toNat) :
    (stoul s).map UInt64.toUInt32 = .ok k := by
  have hk : k.toNat < 2 ^ 64 := lt_of_lt_of_le k.toNat_lt (by norm_num)
  rw [stoul_of_isNumeral h hk]
  simp [Except.map]

/-- `std::stoi` is exact on numerals of an `int`. -/
theorem stoi_of_isSignedNumeral {s : String} {k : Int32} (h : IsSignedNumeral s k.toInt) :
    stoi s = .ok k := by
  have hlow := k.le_toInt
  have hhigh := k.toInt_lt
  have hrange : ¬ (k.toInt < - 2 ^ 31 ∨ 2 ^ 31 ≤ k.toInt) := by omega
  rcases h with ⟨n, hn, hz⟩ | ⟨t, n, rfl, hn, hz⟩
  · simp only [stoi, numeral_of_isNumeral hn, Bool.false_eq_true, if_false, ← hz, if_neg hrange,
      Int32.ofInt_toInt]
  · simp only [stoi, numeral_minus hn, if_true, ← hz, if_neg hrange, Int32.ofInt_toInt]

/-! ### What the numeral readers accept

Not numerals only: blanks may stand in front, one sign, and anything at all may follow the digits.
-/

/-- The sign and the absolute value, as one number. -/
def signed (minus : Bool) (n : ℕ) : ℤ := if minus then -(n : ℤ) else n

/-- A numeral stands at the beginning of `s`: blanks, a sign or none, and digits, as many as there
are. -/
def HasNumeral (s : String) (minus : Bool) (n : ℕ) : Prop :=
  ∃ blanks signs digits rest : List Char,
    s.toList = blanks ++ (signs ++ (digits ++ rest)) ∧
    (∀ c ∈ blanks, isSpace c = true) ∧
    (if minus then signs = ['-'] else signs = [] ∨ signs = ['+']) ∧
    digits ≠ [] ∧ (∀ c ∈ digits, c.isDigit = true) ∧ (∀ c ∈ rest.head?, c.isDigit = false) ∧
    Nat.ofDigitChars 10 digits 0 = n

theorem sign_eq (cs : List Char) : ∃ signs, cs = signs ++ (sign cs).2 ∧
    if (sign cs).1 then signs = ['-'] else signs = [] ∨ signs = ['+'] := by
  unfold sign
  split
  · exact ⟨['-'], rfl, rfl⟩
  · exact ⟨['+'], rfl, .inr rfl⟩
  · exact ⟨[], rfl, .inl rfl⟩

theorem sign_of_isDigit {c : Char} (hc : c.isDigit = true) (cs : List Char) :
    sign (c :: cs) = (false, c :: cs) := by
  unfold sign
  split
  · rename_i heq; cases heq; exact absurd hc (by decide)
  · rename_i heq; cases heq; exact absurd hc (by decide)
  · rfl

/-- Reading a sign in front of a digit. -/
theorem sign_append {minus : Bool} {signs : List Char} {c : Char}
    (hsigns : if minus then signs = ['-'] else signs = [] ∨ signs = ['+'])
    (hc : c.isDigit = true) (cs : List Char) :
    sign (signs ++ c :: cs) = (minus, c :: cs) ∧
      ∀ d ∈ (signs ++ c :: cs).head?, isSpace d = false := by
  cases minus with
  | true =>
    obtain rfl : signs = ['-'] := hsigns
    exact ⟨rfl, fun d hd => by cases hd; decide⟩
  | false =>
    rcases hsigns with rfl | rfl
    · exact ⟨sign_of_isDigit hc cs, fun d hd => by cases hd; exact isSpace_of_isDigit hc⟩
    · exact ⟨rfl, fun d hd => by cases hd; decide⟩

/-- What is dropped ends where the predicate fails. -/
theorem dropWhile_append_of_head? {p : Char → Bool} {as bs : List Char}
    (has : ∀ c ∈ as, p c = true) (hbs : ∀ c ∈ bs.head?, p c = false) :
    (as ++ bs).dropWhile p = bs ∧ (as ++ bs).takeWhile p = as := by
  rw [List.dropWhile_append_of_pos has, List.takeWhile_append_of_pos has]
  cases bs with
  | nil => exact ⟨rfl, List.append_nil as⟩
  | cons b bs =>
    have hb : p b = false := hbs b rfl
    rw [List.dropWhile_cons_of_neg (by simp [hb]), List.takeWhile_cons_of_neg (by simp [hb]),
      List.append_nil]
    exact ⟨rfl, rfl⟩

/-- **`numeral` reads a numeral at the beginning, if there is one.** -/
theorem numeral_eq_ok_iff {s : String} {minus : Bool} {n : ℕ} :
    numeral s = .ok (minus, n) ↔ HasNumeral s minus n := by
  constructor
  · intro h
    obtain ⟨signs, hsplit, hsigns⟩ := sign_eq (s.toList.dropWhile isSpace)
    have hs : s.toList = s.toList.takeWhile isSpace ++ (signs ++
        ((sign (s.toList.dropWhile isSpace)).2.takeWhile Char.isDigit ++
          (sign (s.toList.dropWhile isSpace)).2.dropWhile Char.isDigit)) := by
      rw [List.takeWhile_append_dropWhile, ← hsplit, List.takeWhile_append_dropWhile]
    rw [numeral] at h
    cases hdigits : (sign (s.toList.dropWhile isSpace)).2.takeWhile Char.isDigit with
    | nil =>
      simp only [hdigits] at h
      cases h
    | cons c cs =>
      simp only [hdigits, Except.ok.injEq, Prod.mk.injEq] at h
      rw [h.1] at hsigns
      rw [hdigits] at hs
      refine ⟨_, signs, _, _, hs, fun _ => List.mem_takeWhile_imp, hsigns,
        List.cons_ne_nil c cs, fun d hd => ?_, fun d hd => ?_, h.2⟩
      · rw [← hdigits] at hd
        exact List.mem_takeWhile_imp hd
      · have hrest := List.head?_dropWhile_not Char.isDigit
          (sign (s.toList.dropWhile isSpace)).2
        rw [Option.mem_def.mp hd] at hrest
        exact hrest
  · rintro ⟨blanks, signs, digits, rest, hs, hblanks, hsigns, hne, hdigits, hrest, hvalue⟩
    obtain ⟨c, cs, rfl⟩ := List.exists_cons_of_ne_nil hne
    obtain ⟨hsign, hhead⟩ := sign_append hsigns (hdigits c (by simp)) (cs ++ rest)
    rw [← List.cons_append] at hsign hhead
    rw [numeral, hs, (dropWhile_append_of_head? hblanks hhead).1, hsign]
    simp only [(dropWhile_append_of_head? hdigits hrest).2, hvalue]

/-- **It fails if there is none.** -/
theorem numeral_eq_error_iff {s : String} {e : NumeralError} :
    numeral s = .error e ↔ e = .invalidArgument ∧ ∀ minus n, ¬ HasNumeral s minus n := by
  have hfails : ∀ e, numeral s = .error e → e = .invalidArgument := by
    intro e h
    rw [numeral] at h
    cases hdigits : (sign (s.toList.dropWhile isSpace)).2.takeWhile Char.isDigit with
    | nil =>
      simp only [hdigits, Except.error.injEq] at h
      exact h.symm
    | cons c cs =>
      simp only [hdigits] at h
      cases h
  constructor
  · intro h
    refine ⟨hfails e h, fun minus n hn => ?_⟩
    cases h.symm.trans (numeral_eq_ok_iff.mpr hn)
  · rintro ⟨rfl, hnone⟩
    cases h : numeral s with
    | error e => rw [hfails e h]
    | ok p => exact absurd (numeral_eq_ok_iff.mp h) (hnone p.1 p.2)

/-- **`std::stoul` takes every numeral whose digits are in range, and negates it modulo
`2 ^ 64`.** -/
theorem stoul_eq_ok_iff {s : String} {u : UInt64} :
    stoul s = .ok u ↔ ∃ minus n, HasNumeral s minus n ∧ n < 2 ^ 64 ∧
      (u.toNat : ℤ) = signed minus n % 2 ^ 64 := by
  have hvalue : ∀ (minus : Bool) {n : ℕ}, n < 2 ^ 64 →
      ((if minus then - UInt64.ofNat n else UInt64.ofNat n).toNat : ℤ) =
        signed minus n % 2 ^ 64 := by
    intro minus n hn
    have hsize : UInt64.size = 2 ^ 64 := rfl
    cases minus with
    | true =>
      rw [if_pos rfl, UInt64.toNat_neg, UInt64.toNat_ofNat', signed, if_pos rfl, hsize]
      omega
    | false =>
      rw [if_neg Bool.false_ne_true, UInt64.toNat_ofNat', signed, if_neg Bool.false_ne_true]
      omega
  constructor
  · intro h
    rw [stoul] at h
    cases hs : numeral s with
    | error e => simp only [hs] at h; cases h
    | ok p =>
      simp only [hs] at h
      split at h
      · cases h
      · rename_i hn
        cases h
        exact ⟨p.1, p.2, numeral_eq_ok_iff.mp hs, Nat.not_le.mp hn, hvalue p.1 (Nat.not_le.mp hn)⟩
  · rintro ⟨minus, n, hs, hn, hu⟩
    simp only [stoul, numeral_eq_ok_iff.mpr hs, if_neg (Nat.not_le.mpr hn)]
    refine congrArg Except.ok (UInt64.toNat_inj.mp ?_)
    have := hvalue minus hn
    omega

theorem stoul_eq_error_iff {s : String} {e : NumeralError} :
    stoul s = .error e ↔ (e = .invalidArgument ∧ ∀ minus n, ¬ HasNumeral s minus n) ∨
      (e = .outOfRange ∧ ∃ minus n, HasNumeral s minus n ∧ 2 ^ 64 ≤ n) := by
  rw [stoul]
  cases hs : numeral s with
  | error e' =>
    obtain ⟨rfl, hnone⟩ := numeral_eq_error_iff.mp hs
    refine ⟨fun h => .inl ⟨(Except.error.inj h).symm, hnone⟩, ?_⟩
    rintro (⟨rfl, -⟩ | ⟨-, minus, n, hn, -⟩)
    · rfl
    · exact absurd hn (hnone minus n)
  | ok p =>
    have hp := numeral_eq_ok_iff.mp hs
    simp only
    constructor
    · intro h
      split at h
      · exact .inr ⟨(Except.error.inj h).symm, p.1, p.2, hp, by assumption⟩
      · cases h
    · rintro (⟨-, hnone⟩ | ⟨rfl, minus, n, hn, hrange⟩)
      · exact absurd hp (hnone p.1 p.2)
      · cases hs.symm.trans (numeral_eq_ok_iff.mpr hn)
        rw [if_pos hrange]

/-- **`std::stoi` takes every numeral that is an `int`, sign included.** -/
theorem stoi_eq_ok_iff {s : String} {k : Int32} :
    stoi s = .ok k ↔ ∃ minus n, HasNumeral s minus n ∧ k.toInt = signed minus n := by
  constructor
  · intro h
    rw [stoi] at h
    cases hs : numeral s with
    | error e => simp only [hs] at h; cases h
    | ok p =>
      simp only [hs] at h
      rw [← signed] at h
      split at h
      · cases h
      · rename_i hz
        cases h
        refine ⟨p.1, p.2, numeral_eq_ok_iff.mp hs, ?_⟩
        rw [not_or, Int.not_lt, Int.not_le] at hz
        exact Int32.toInt_ofInt_of_le hz.1 (by omega)
  · rintro ⟨minus, n, hs, hk⟩
    have hlow := k.le_toInt
    have hhigh := k.toInt_lt
    simp only [stoi, numeral_eq_ok_iff.mpr hs]
    rw [← signed, ← hk, if_neg (by omega), Int32.ofInt_toInt]

theorem stoi_eq_error_iff {s : String} {e : NumeralError} :
    stoi s = .error e ↔ (e = .invalidArgument ∧ ∀ minus n, ¬ HasNumeral s minus n) ∨
      (e = .outOfRange ∧ ∃ minus n, HasNumeral s minus n ∧
        (signed minus n < - 2 ^ 31 ∨ 2 ^ 31 ≤ signed minus n)) := by
  rw [stoi]
  cases hs : numeral s with
  | error e' =>
    obtain ⟨rfl, hnone⟩ := numeral_eq_error_iff.mp hs
    refine ⟨fun h => .inl ⟨(Except.error.inj h).symm, hnone⟩, ?_⟩
    rintro (⟨rfl, -⟩ | ⟨-, minus, n, hn, -⟩)
    · rfl
    · exact absurd hn (hnone minus n)
  | ok p =>
    have hp := numeral_eq_ok_iff.mp hs
    simp only
    rw [← signed]
    constructor
    · intro h
      split at h
      · exact .inr ⟨(Except.error.inj h).symm, p.1, p.2, hp, by assumption⟩
      · cases h
    · rintro (⟨-, hnone⟩ | ⟨rfl, minus, n, hn, hrange⟩)
      · exact absurd hp (hnone p.1 p.2)
      · cases hs.symm.trans (numeral_eq_ok_iff.mpr hn)
        rw [if_pos hrange]

end Text

import Mathlib.Data.List.Basic
import Mathlib.Data.List.Count
import Mathlib.Algebra.BigOperators.Group.List.Basic
import Mathlib.Algebra.GroupWithZero.Nat

/-!
# Paths as text

A path addresses a node of a tree of data: steps separated by `/`, each a name with an optional
qualifier in front (`qualifier:name`) and any number of predicates `[key='literal']` behind. A
literal runs up to the next apostrophe; there is no escape.

The reader is an automaton over the characters, so a text is read by folding `feed` and a fact
about a stretch of text is a fact about the states before and after it.

## Main definitions

* `PathText.Step`, `PathText.text` — the steps of a path, and their text
* `PathText.parse` — the steps a text spells, if it spells any
* `PathText.Feeds` — what the reader can do with one character

## Main results

* `PathText.parse_step` — a path is read step by step
* `PathText.parse_text` — reading a printed path whose literals hold no apostrophe
* `PathText.count_quote_of_parse` — a text that is read holds two apostrophes for each predicate
* `PathText.parse_text_iff` — so a printed path is read back exactly when its literals hold none
* `PathText.mem_text` — a printed path holds names, signs, and its literals
* `PathText.mem_of_parse` — a literal that is read stands in the text
* `PathText.parse_settled` — the steps in front of an unfinished predicate are settled
* `PathText.parse_slash_name` — a name behind the last slash is the last step
-/

namespace PathText

/-- The apostrophe. -/
def quote : Char := Char.ofNat 39

/-- The characters of a name. -/
def identChar (c : Char) : Bool := c.isAlphanum || c == '_' || c == '-' || c == '.'

/-- One step: an optional qualifier, a name, and predicates that give a literal to a key. -/
structure Step where
  qualifier : Option String := none
  name : String := ""
  preds : List (String × String) := []
  deriving DecidableEq, Repr

/-! ### Printing -/

def predText (p : String × String) : String := "[" ++ p.1 ++ "='" ++ p.2 ++ "']"

def predsText : List (String × String) → String
  | [] => ""
  | p :: ps => predText p ++ predsText ps

def qualifierText : Option String → String
  | none => ""
  | some q => q ++ ":"

def Step.text (s : Step) : String := qualifierText s.qualifier ++ s.name ++ predsText s.preds

@[simp] theorem Step.text_name (n : String) : (⟨none, n, []⟩ : Step).text = n := by
  simp [Step.text, qualifierText, predsText]

/-- The text of a path. -/
def text : List Step → String
  | [] => ""
  | [s] => s.text
  | s :: rest => s.text ++ "/" ++ text rest

theorem text_cons (s : Step) {rest : List Step} (h : rest ≠ []) :
    text (s :: rest) = s.text ++ "/" ++ text rest := by
  cases rest with
  | nil => exact absurd rfl h
  | cons s' rest => rw [text]; simp

/-! ### Reading -/

/-- What the reader is in the middle of. -/
inductive Mode where
  /-- a name, or a qualifier -/
  | name
  /-- the key of a predicate -/
  | key (key : String)
  /-- after the `=` of a predicate -/
  | equals (key : String)
  /-- the literal of a predicate -/
  | literal (key literal : String)
  /-- after the closing apostrophe of a literal -/
  | closing
  /-- after a predicate -/
  | preds
  deriving DecidableEq, Repr

/-- The reader: the steps read, the step being read, and where in it the reader stands. -/
structure State where
  done : List Step := []
  cur : Step := {}
  mode : Mode := .name
  deriving DecidableEq, Repr

/-- One character. -/
def feed : State → Char → Option State
  | ⟨done, ⟨q, n, ps⟩, .name⟩, c =>
    if identChar c then some ⟨done, ⟨q, n ++ String.singleton c, ps⟩, .name⟩
    else if n = "" then none
    else if c = ':' ∧ q = none then some ⟨done, ⟨some n, "", ps⟩, .name⟩
    else if c = '[' then some ⟨done, ⟨q, n, ps⟩, .key ""⟩
    else if c = '/' then some ⟨done ++ [⟨q, n, ps⟩], {}, .name⟩
    else none
  | ⟨done, cur, .key k⟩, c =>
    if identChar c then some ⟨done, cur, .key (k ++ String.singleton c)⟩
    else if c = '=' ∧ k ≠ "" then some ⟨done, cur, .equals k⟩
    else none
  | ⟨done, cur, .equals k⟩, c => if c = quote then some ⟨done, cur, .literal k ""⟩ else none
  | ⟨done, ⟨q, n, ps⟩, .literal k v⟩, c =>
    if c = quote then some ⟨done, ⟨q, n, ps ++ [(k, v)]⟩, .closing⟩
    else some ⟨done, ⟨q, n, ps⟩, .literal k (v ++ String.singleton c)⟩
  | ⟨done, cur, .closing⟩, c => if c = ']' then some ⟨done, cur, .preds⟩ else none
  | ⟨done, cur, .preds⟩, c =>
    if c = '[' then some ⟨done, cur, .key ""⟩
    else if c = '/' then some ⟨done ++ [cur], {}, .name⟩
    else none

/-- The end of the text. -/
def finish (st : State) : Option (List Step) :=
  match st.mode with
  | .name => if st.cur.name = "" then none else some (st.done ++ [st.cur])
  | .preds => some (st.done ++ [st.cur])
  | _ => none

/-- A stretch of text. -/
def feedAll (st : State) (s : String) : Option State := s.toList.foldlM feed st

/-- The steps `s` spells. -/
def parse (s : String) : Option (List Step) := (feedAll {} s).bind finish

/-- What one character can do. -/
inductive Feeds : State → Char → State → Prop where
  | nameChar {done q n ps c} : identChar c = true →
      Feeds ⟨done, ⟨q, n, ps⟩, .name⟩ c ⟨done, ⟨q, n ++ String.singleton c, ps⟩, .name⟩
  | qualifier {done n ps} :
      Feeds ⟨done, ⟨none, n, ps⟩, .name⟩ ':' ⟨done, ⟨some n, "", ps⟩, .name⟩
  | openName {done cur} : Feeds ⟨done, cur, .name⟩ '[' ⟨done, cur, .key ""⟩
  | slashName {done cur} : Feeds ⟨done, cur, .name⟩ '/' ⟨done ++ [cur], {}, .name⟩
  | keyChar {done cur k c} : identChar c = true →
      Feeds ⟨done, cur, .key k⟩ c ⟨done, cur, .key (k ++ String.singleton c)⟩
  | equals {done cur k} : Feeds ⟨done, cur, .key k⟩ '=' ⟨done, cur, .equals k⟩
  | openLiteral {done cur k} : Feeds ⟨done, cur, .equals k⟩ quote ⟨done, cur, .literal k ""⟩
  | closeLiteral {done q n ps k v} :
      Feeds ⟨done, ⟨q, n, ps⟩, .literal k v⟩ quote ⟨done, ⟨q, n, ps ++ [(k, v)]⟩, .closing⟩
  | literalChar {done cur k v c} : c ≠ quote →
      Feeds ⟨done, cur, .literal k v⟩ c ⟨done, cur, .literal k (v ++ String.singleton c)⟩
  | closePred {done cur} : Feeds ⟨done, cur, .closing⟩ ']' ⟨done, cur, .preds⟩
  | openPred {done cur} : Feeds ⟨done, cur, .preds⟩ '[' ⟨done, cur, .key ""⟩
  | slashPred {done cur} : Feeds ⟨done, cur, .preds⟩ '/' ⟨done ++ [cur], {}, .name⟩

private theorem feeds_of_feed {st st' : State} {c : Char} (h : feed st c = some st') :
    Feeds st c st' := by
  obtain ⟨done, ⟨q, n, ps⟩, m⟩ := st
  cases m with
  | name =>
    simp only [feed] at h
    split at h
    · rename_i hc
      cases h
      exact .nameChar hc
    · split at h
      · cases h
      · split at h
        · rename_i hc
          cases h
          obtain ⟨rfl, rfl⟩ := hc
          exact .qualifier
        · split at h
          · rename_i hc
            cases h
            exact hc ▸ .openName
          · split at h
            · rename_i hc
              cases h
              exact hc ▸ .slashName
            · cases h
  | key k =>
    simp only [feed] at h
    split at h
    · rename_i hc
      cases h
      exact .keyChar hc
    · split at h
      · rename_i hc
        cases h
        exact hc.1 ▸ .equals
      · cases h
  | equals k =>
    simp only [feed] at h
    split at h
    · rename_i hc
      cases h
      exact hc ▸ .openLiteral
    · cases h
  | literal k v =>
    simp only [feed] at h
    split at h
    · rename_i hc
      cases h
      exact hc ▸ .closeLiteral
    · rename_i hc
      cases h
      exact .literalChar hc
  | closing =>
    simp only [feed] at h
    split at h
    · rename_i hc
      cases h
      exact hc ▸ .closePred
    · cases h
  | preds =>
    simp only [feed] at h
    split at h
    · rename_i hc
      cases h
      exact hc ▸ .openPred
    · split at h
      · rename_i hc
        cases h
        exact hc ▸ .slashPred
      · cases h

theorem feedAll_append (st : State) (s t : String) :
    feedAll st (s ++ t) = (feedAll st s).bind fun st' => feedAll st' t := by
  simp [feedAll, List.foldlM_append, Option.bind_eq_bind]

@[simp] theorem feedAll_empty (st : State) : feedAll st "" = some st := rfl

/-! ### Reading what was printed -/

/-- A name: not empty, and made of the characters of a name. -/
def IsIdent (s : String) : Prop := s ≠ "" ∧ ∀ c ∈ s.toList, identChar c = true

instance (s : String) : Decidable (IsIdent s) :=
  decidable_of_iff (s ≠ "" ∧ s.toList.all identChar = true) (by rw [IsIdent, List.all_eq_true])

/-- The names of a step are names. -/
structure Step.Named (s : Step) : Prop where
  qualifier : ∀ q ∈ s.qualifier, IsIdent q
  name : IsIdent s.name
  keys : ∀ p ∈ s.preds, IsIdent p.1

/-- The literals of a path, in order. -/
def literals (steps : List Step) : List String := steps.flatMap fun s => s.preds.map Prod.snd

/-- How many predicates a path has. -/
def predCount (steps : List Step) : ℕ := (steps.map fun s => s.preds.length).sum

private theorem ofList_cons_append (a : String) (c : Char) (cs : List Char) :
    a ++ String.singleton c ++ String.ofList cs = a ++ String.ofList (c :: cs) := by
  rw [← String.toList_inj]
  simp

private theorem foldlM_name (done : List Step) (q : Option String) (ps : List (String × String)) :
    ∀ (cs : List Char) (n : String), (∀ c ∈ cs, identChar c = true) →
      cs.foldlM feed ⟨done, ⟨q, n, ps⟩, .name⟩ =
        some ⟨done, ⟨q, n ++ String.ofList cs, ps⟩, .name⟩ := by
  intro cs
  induction cs with
  | nil => intro n _; simp
  | cons c cs ih =>
    intro n hcs
    have hc : identChar c = true := hcs c (by simp)
    rw [List.foldlM_cons, feed, if_pos hc, Option.bind_eq_bind, Option.bind_some,
      ih _ fun d hd => hcs d (by simp [hd]), ofList_cons_append]

private theorem foldlM_key (done : List Step) (cur : Step) :
    ∀ (cs : List Char) (k : String), (∀ c ∈ cs, identChar c = true) →
      cs.foldlM feed ⟨done, cur, .key k⟩ = some ⟨done, cur, .key (k ++ String.ofList cs)⟩ := by
  intro cs
  induction cs with
  | nil => intro k _; simp
  | cons c cs ih =>
    intro k hcs
    have hc : identChar c = true := hcs c (by simp)
    rw [List.foldlM_cons, feed, if_pos hc, Option.bind_eq_bind, Option.bind_some,
      ih _ fun d hd => hcs d (by simp [hd]), ofList_cons_append]

private theorem foldlM_literal (done : List Step) (cur : Step) (k : String) :
    ∀ (cs : List Char) (v : String), quote ∉ cs →
      cs.foldlM feed ⟨done, cur, .literal k v⟩ =
        some ⟨done, cur, .literal k (v ++ String.ofList cs)⟩ := by
  intro cs
  induction cs with
  | nil => intro v _; simp
  | cons c cs ih =>
    intro v hcs
    have hc : c ≠ quote := fun h => hcs (by simp [h])
    rw [List.foldlM_cons, feed, if_neg hc, Option.bind_eq_bind, Option.bind_some,
      ih _ fun h => hcs (by simp [h]), ofList_cons_append]

/-- A name is read into the step. -/
theorem feedAll_name (done : List Step) (q : Option String) (ps : List (String × String))
    {s : String} (hs : IsIdent s) :
    feedAll ⟨done, ⟨q, "", ps⟩, .name⟩ s = some ⟨done, ⟨q, s, ps⟩, .name⟩ := by
  rw [feedAll, foldlM_name _ _ _ _ _ hs.2]
  simp

/-- Where a predicate may begin: behind a name, or behind a predicate. -/
def Mode.Open (m : Mode) (cur : Step) : Prop := m = .preds ∨ (m = .name ∧ cur.name ≠ "")

theorem feedAll_pred {done : List Step} {q : Option String} {n : String}
    {ps : List (String × String)} {m : Mode} (h : m.Open ⟨q, n, ps⟩) {p : String × String}
    (hk : IsIdent p.1) (hv : quote ∉ p.2.toList) :
    feedAll ⟨done, ⟨q, n, ps⟩, m⟩ (predText p) = some ⟨done, ⟨q, n, ps ++ [p]⟩, .preds⟩ := by
  have hopen : feedAll ⟨done, ⟨q, n, ps⟩, m⟩ "[" = some ⟨done, ⟨q, n, ps⟩, .key ""⟩ := by
    rcases h with rfl | ⟨rfl, hn⟩
    · simp [feedAll, feed]
    · have : identChar '[' = false := by decide
      simp [feedAll, feed, this, show n ≠ "" from hn]
  have hkey : feedAll ⟨done, ⟨q, n, ps⟩, .key ""⟩ p.1 = some ⟨done, ⟨q, n, ps⟩, .key p.1⟩ := by
    rw [feedAll, foldlM_key _ _ _ _ hk.2]
    simp
  have hequals : feedAll ⟨done, ⟨q, n, ps⟩, .key p.1⟩ "='" =
      some ⟨done, ⟨q, n, ps⟩, .literal p.1 ""⟩ := by
    have : identChar '=' = false := by decide
    simp [feedAll, feed, this, hk.1, quote]
  have hliteral : feedAll ⟨done, ⟨q, n, ps⟩, .literal p.1 ""⟩ p.2 =
      some ⟨done, ⟨q, n, ps⟩, .literal p.1 p.2⟩ := by
    rw [feedAll, foldlM_literal _ _ _ _ _ hv]
    simp
  have hclose : feedAll ⟨done, ⟨q, n, ps⟩, .literal p.1 p.2⟩ "']" =
      some ⟨done, ⟨q, n, ps ++ [p]⟩, .preds⟩ := by
    simp [feedAll, feed, quote]
  rw [predText, feedAll_append, feedAll_append, feedAll_append, feedAll_append, hopen,
    Option.bind_some, hkey, Option.bind_some, hequals, Option.bind_some, hliteral,
    Option.bind_some, hclose]

theorem feedAll_preds (done : List Step) (q : Option String) (n : String) :
    ∀ (qs ps : List (String × String)) (m : Mode), m.Open ⟨q, n, ps⟩ →
      (∀ p ∈ qs, IsIdent p.1 ∧ quote ∉ p.2.toList) →
      ∃ m' : Mode, m'.Open ⟨q, n, ps ++ qs⟩ ∧
        feedAll ⟨done, ⟨q, n, ps⟩, m⟩ (predsText qs) = some ⟨done, ⟨q, n, ps ++ qs⟩, m'⟩ := by
  intro qs
  induction qs with
  | nil => intro ps m hm _; exact ⟨m, by simpa using hm, by simp [predsText]⟩
  | cons p qs ih =>
    intro ps m hm hqs
    obtain ⟨hk, hv⟩ := hqs p (by simp)
    obtain ⟨m', hm', hread⟩ := ih (ps ++ [p]) .preds (Or.inl rfl) fun r hr => hqs r (by simp [hr])
    refine ⟨m', by simpa using hm', ?_⟩
    rw [predsText, feedAll_append, feedAll_pred hm hk hv, Option.bind_some, hread]
    simp

/-- The literals of a step hold no apostrophe. -/
def Step.Plain (s : Step) : Prop := ∀ p ∈ s.preds, quote ∉ p.2.toList

theorem feedAll_step (done : List Step) {s : Step} (hs : s.Named) (hp : s.Plain) :
    ∃ m : Mode, m.Open s ∧ feedAll ⟨done, {}, .name⟩ s.text = some ⟨done, s, m⟩ := by
  obtain ⟨q, n, ps⟩ := s
  have hname : ∀ q', feedAll ⟨done, ⟨q', "", []⟩, .name⟩ n = some ⟨done, ⟨q', n, []⟩, .name⟩ :=
    fun q' => feedAll_name done q' [] hs.name
  obtain ⟨m, hm, hpreds⟩ := feedAll_preds done q n ps [] .name
    (Or.inr ⟨rfl, hs.name.1⟩) fun p hmem => ⟨hs.keys p hmem, hp p hmem⟩
  refine ⟨m, hm, ?_⟩
  have hhead : feedAll ⟨done, {}, .name⟩ (qualifierText q ++ n) =
      some ⟨done, ⟨q, n, []⟩, .name⟩ := by
    cases q with
    | none => simpa [qualifierText] using hname none
    | some w =>
      have hw : IsIdent w := hs.qualifier w rfl
      have hcolon : feedAll ⟨done, ⟨none, w, []⟩, .name⟩ ":" =
          some ⟨done, ⟨some w, "", []⟩, .name⟩ := by
        have : identChar ':' = false := by decide
        simp [feedAll, feed, this, hw.1]
      rw [qualifierText, feedAll_append, feedAll_append, feedAll_name done none [] hw,
        Option.bind_some, hcolon, Option.bind_some, hname]
  rw [Step.text, feedAll_append, hhead, Option.bind_some, hpreds]
  simp

/-- The reader in a path that began with `d`. -/
def State.after (d : List Step) (st : State) : State := { st with done := d ++ st.done }

theorem feed_after (d : List Step) (st : State) (c : Char) :
    feed (st.after d) c = (feed st c).map (State.after d) := by
  obtain ⟨done, ⟨q, n, ps⟩, m⟩ := st
  cases m <;> simp only [State.after, feed] <;> (repeat' split) <;> simp [State.after]

theorem feedAll_after (d : List Step) (s : String) (st : State) :
    feedAll (st.after d) s = (feedAll st s).map (State.after d) := by
  simp only [feedAll]
  generalize s.toList = cs
  induction cs generalizing st with
  | nil => rfl
  | cons c cs ih =>
    rw [List.foldlM_cons, List.foldlM_cons, feed_after]
    cases hc : feed st c with
    | none => rfl
    | some st' => simpa using ih st'

theorem finish_after (d : List Step) (st : State) :
    finish (st.after d) = (finish st).map (d ++ ·) := by
  obtain ⟨done, cur, m⟩ := st
  by_cases hn : cur.name = "" <;> cases m <;> simp [State.after, finish, hn]

/-- **A path is read step by step.** -/
theorem parse_step {s : Step} (hs : s.Named) (hp : s.Plain) (t : String) :
    parse (s.text ++ "/" ++ t) = (parse t).map (s :: ·) := by
  obtain ⟨m, hm, hstep⟩ := feedAll_step [] hs hp
  have hslash : feedAll ⟨[], s, m⟩ "/" = some (State.after [s] {}) := by
    rcases hm with rfl | ⟨rfl, hne⟩
    · rfl
    · obtain ⟨q, n, ps⟩ := s
      simp [feedAll, feed, show identChar '/' = false by decide, hne, State.after]
  rw [parse, feedAll_append, feedAll_append, show ({} : State) = ⟨[], {}, .name⟩ from rfl, hstep,
    Option.bind_some, hslash, Option.bind_some, feedAll_after]
  cases h : feedAll {} t with
  | none => rw [parse, h]; rfl
  | some st =>
    rw [Option.map_some, Option.bind_some, finish_after, parse, h, Option.bind_some]
    rfl

theorem parse_singleton {s : Step} (hs : s.Named) (hp : s.Plain) : parse s.text = some [s] := by
  obtain ⟨m, hm, hread⟩ := feedAll_step [] hs hp
  rw [parse, show ({} : State) = ⟨[], {}, .name⟩ from rfl, hread, Option.bind_some]
  rcases hm with rfl | ⟨rfl, hname⟩
  · simp [finish]
  · simp [finish, hname]

/-- **Read after print.** -/
theorem parse_text : ∀ {steps : List Step}, steps ≠ [] → (∀ s ∈ steps, s.Named) →
    (∀ s ∈ steps, s.Plain) → parse (text steps) = some steps := by
  intro steps
  induction steps with
  | nil => intro h; exact absurd rfl h
  | cons s rest ih =>
    intro _ hn hp
    cases rest with
    | nil => exact parse_singleton (hn s (by simp)) (hp s (by simp))
    | cons s' rest =>
      rw [text, parse_step (hn s (by simp)) (hp s (by simp)),
        ih (by simp) (fun x hx => hn x (by simp [hx])) fun x hx => hp x (by simp [hx])]
      · rfl
      · simp

/-! ### Counting apostrophes

Every predicate read costs two apostrophes of the text, and nothing else takes one. -/

/-- The apostrophes behind the reader. -/
def State.quotes (st : State) : ℕ :=
  2 * (predCount st.done + st.cur.preds.length) +
    match st.mode with
    | .literal _ _ => 1
    | _ => 0

private theorem predCount_concat (xs : List Step) (s : Step) :
    predCount (xs ++ [s]) = predCount xs + s.preds.length := by
  simp [predCount]

private theorem ne_quote_of_identChar {c : Char} (h : identChar c = true) : c ≠ quote := by
  rintro rfl
  exact absurd h (by decide)

private theorem Feeds.quotes {st st' : State} {c : Char} (h : Feeds st c st') :
    st'.quotes = st.quotes + if c = quote then 1 else 0 := by
  cases h with
  | nameChar hc => simp [State.quotes, ne_quote_of_identChar hc]
  | qualifier => simp [State.quotes, show ':' ≠ quote by decide]
  | openName => simp [State.quotes, show '[' ≠ quote by decide]
  | slashName => simp [State.quotes, predCount, show '/' ≠ quote by decide]
  | keyChar hc => simp [State.quotes, ne_quote_of_identChar hc]
  | equals => simp [State.quotes, show '=' ≠ quote by decide]
  | openLiteral => simp [State.quotes]
  | closeLiteral =>
    simp only [State.quotes, List.length_append, List.length_cons, List.length_nil, if_true]
    omega
  | literalChar hc => simp [State.quotes, hc]
  | closePred => simp [State.quotes, show ']' ≠ quote by decide]
  | openPred => simp [State.quotes, show '[' ≠ quote by decide]
  | slashPred => simp [State.quotes, predCount, show '/' ≠ quote by decide]

private theorem quotes_of_foldlM : ∀ (cs : List Char) {st st' : State},
    cs.foldlM feed st = some st' → st'.quotes = st.quotes + cs.count quote := by
  intro cs
  induction cs with
  | nil => intro st st' h; cases h; simp
  | cons c cs ih =>
    intro st st' h
    rw [List.foldlM_cons, Option.bind_eq_bind, Option.bind_eq_some_iff] at h
    obtain ⟨st₁, hc, hcs⟩ := h
    rw [ih hcs, (feeds_of_feed hc).quotes, List.count_cons]
    simp only [beq_iff_eq]
    omega

theorem count_quote_of_parse {s : String} {steps : List Step} (h : parse s = some steps) :
    s.toList.count quote = 2 * predCount steps := by
  obtain ⟨st, hst, hfin⟩ := Option.bind_eq_some_iff.mp h
  have hq : st.quotes = 0 + s.toList.count quote := quotes_of_foldlM _ hst
  obtain ⟨done, cur, m⟩ := st
  cases m <;> simp only [finish] at hfin
  case name =>
    split at hfin
    · cases hfin
    · cases hfin
      simp only [State.quotes] at hq
      rw [predCount_concat]
      omega
  case preds =>
    cases hfin
    simp only [State.quotes] at hq
    rw [predCount_concat]
    omega
  all_goals cases hfin

private theorem count_quote_ident {s : String} (h : IsIdent s) : s.toList.count quote = 0 :=
  List.count_eq_zero.mpr fun hq => by simpa using (h.2 _ hq).symm.trans (by decide : _ = false)

private theorem count_quote_predsText {ps : List (String × String)} (hps : ∀ p ∈ ps, IsIdent p.1) :
    (predsText ps).toList.count quote =
      2 * ps.length + ((ps.map Prod.snd).map fun v => v.toList.count quote).sum := by
  induction ps with
  | nil => rfl
  | cons p ps ih =>
    have hopen : "[".toList.count quote = 0 := by decide
    have hequals : "='".toList.count quote = 1 := by decide
    have hclose : "']".toList.count quote = 1 := by decide
    simp only [predsText, predText, String.toList_append, List.count_append,
      count_quote_ident (hps p (by simp)), ih fun r hr => hps r (by simp [hr]),
      hopen, hequals, hclose, List.map_cons, List.sum_cons, List.length_cons]
    omega

/-- The apostrophes of a printed step: two for each predicate, and those of its literals. -/
theorem Step.count_quote_text {s : Step} (hs : s.Named) : s.text.toList.count quote =
    2 * s.preds.length + ((s.preds.map Prod.snd).map fun v => v.toList.count quote).sum := by
  have hqual : (qualifierText s.qualifier).toList.count quote = 0 := by
    cases hq : s.qualifier with
    | none => rfl
    | some q =>
      have hcolon : ":".toList.count quote = 0 := by decide
      rw [qualifierText, String.toList_append, List.count_append,
        count_quote_ident (hs.qualifier q hq), hcolon]
  rw [Step.text, String.toList_append, String.toList_append, List.count_append,
    List.count_append, hqual, count_quote_ident hs.name, count_quote_predsText hs.keys]
  omega

/-- The apostrophes of a printed path. -/
theorem count_quote_text : ∀ {steps : List Step}, (∀ s ∈ steps, s.Named) →
    (text steps).toList.count quote =
      2 * predCount steps + ((literals steps).map fun v => v.toList.count quote).sum := by
  intro steps
  induction steps with
  | nil => intro _; rfl
  | cons s rest ih =>
    intro hn
    have hs := Step.count_quote_text (hn s (by simp))
    have hrest := ih fun x hx => hn x (by simp [hx])
    cases rest with
    | nil => simpa [text, predCount, literals] using hs
    | cons s' rest =>
      have hslash : "/".toList.count quote = 0 := by decide
      rw [text, String.toList_append, String.toList_append, List.count_append, List.count_append,
        hs, hrest, hslash]
      · simp only [predCount, literals, List.map_cons, List.sum_cons, List.flatMap_cons,
          List.map_append, List.sum_append]
        omega
      · simp

/-- **A printed path is read back exactly when none of its literals holds an apostrophe.** -/
theorem parse_text_iff {steps : List Step} (hne : steps ≠ []) (hn : ∀ s ∈ steps, s.Named) :
    parse (text steps) = some steps ↔ ∀ v ∈ literals steps, quote ∉ v.toList := by
  constructor
  · intro h v hv hq
    have h₁ := count_quote_of_parse h
    rw [count_quote_text hn] at h₁
    have h₂ : (literals steps |>.map fun v => v.toList.count quote).sum = 0 := by omega
    have h₃ := List.sum_eq_zero_iff_forall_eq_nat.mp h₂ (v.toList.count quote)
      (List.mem_map_of_mem (f := fun v => v.toList.count quote) hv)
    exact List.count_eq_zero.mp h₃ hq
  · intro h
    refine parse_text hne hn fun s hs p hp => h p.2 ?_
    exact List.mem_flatMap.mpr ⟨s, hs, List.mem_map_of_mem hp⟩

/-- Two printed paths of the same text whose literals hold no apostrophe are the same. -/
theorem text_injective {xs ys : List Step} (hx : xs ≠ []) (hy : ys ≠ [])
    (hxn : ∀ s ∈ xs, s.Named) (hyn : ∀ s ∈ ys, s.Named)
    (hxl : ∀ v ∈ literals xs, quote ∉ v.toList) (hyl : ∀ v ∈ literals ys, quote ∉ v.toList)
    (h : text xs = text ys) : xs = ys := by
  have h₁ := (parse_text_iff hx hxn).mpr hxl
  rw [h, (parse_text_iff hy hyn).mpr hyl] at h₁
  exact (Option.some.inj h₁).symm

/-! ### The characters of literals

A literal is a stretch of the text, so a character the text does not hold is in none of them. -/

/-- A character that is in no name and is no sign of the grammar. -/
def Inert (c : Char) : Prop := identChar c = false ∧ c ∉ "/:[]='".toList

instance (c : Char) : Decidable (Inert c) :=
  inferInstanceAs (Decidable (identChar c = false ∧ c ∉ "/:[]='".toList))

private theorem Inert.notMem_ident {c : Char} (h : Inert c) {s : String} (hs : IsIdent s) :
    c ∉ s.toList := fun hc => Bool.false_ne_true (h.1.symm.trans (hs.2 c hc))

private theorem Inert.notMem_sign {c : Char} (h : Inert c) {s : String}
    (hs : s.toList ⊆ "/:[]='".toList) : c ∉ s.toList := fun hc => h.2 (hs hc)

private theorem mem_predsText {c : Char} (h : Inert c) {ps : List (String × String)}
    (hps : ∀ p ∈ ps, IsIdent p.1) (hc : c ∈ (predsText ps).toList) :
    ∃ p ∈ ps, c ∈ p.2.toList := by
  induction ps with
  | nil => cases hc
  | cons p ps ih =>
    simp only [predsText, predText, String.toList_append, List.mem_append] at hc
    rcases hc with ((((hc | hc) | hc) | hc) | hc) | hc
    · exact absurd hc (h.notMem_sign (by decide))
    · exact absurd hc (h.notMem_ident (hps p (by simp)))
    · exact absurd hc (h.notMem_sign (by decide))
    · exact ⟨p, by simp, hc⟩
    · exact absurd hc (h.notMem_sign (by decide))
    · obtain ⟨r, hr, hc⟩ := ih (fun r hr => hps r (by simp [hr])) hc
      exact ⟨r, by simp [hr], hc⟩

private theorem Step.mem_text {c : Char} (h : Inert c) {s : Step} (hs : s.Named)
    (hc : c ∈ s.text.toList) : ∃ v ∈ s.preds.map Prod.snd, c ∈ v.toList := by
  simp only [Step.text, String.toList_append, List.mem_append] at hc
  rcases hc with (hc | hc) | hc
  · cases hq : s.qualifier with
    | none =>
      rw [hq] at hc
      cases hc
    | some q =>
      rw [hq, qualifierText, String.toList_append, List.mem_append] at hc
      rcases hc with hc | hc
      · exact absurd hc (h.notMem_ident (hs.qualifier q hq))
      · exact absurd hc (h.notMem_sign (by decide))
  · exact absurd hc (h.notMem_ident hs.name)
  · obtain ⟨p, hp, hc⟩ := mem_predsText h hs.keys hc
    exact ⟨p.2, List.mem_map_of_mem hp, hc⟩

/-- **A character of a printed path** that is in no name and is no sign is in a literal. -/
theorem mem_text {c : Char} (h : Inert c) : ∀ {steps : List Step}, (∀ s ∈ steps, s.Named) →
    c ∈ (text steps).toList → ∃ v ∈ literals steps, c ∈ v.toList := by
  intro steps
  induction steps with
  | nil => intro _ hc; cases hc
  | cons s rest ih =>
    intro hn hc
    have hstep : c ∈ s.text.toList → ∃ v ∈ literals (s :: rest), c ∈ v.toList := fun hc => by
      obtain ⟨v, hv, hc⟩ := Step.mem_text h (hn s (by simp)) hc
      exact ⟨v, by simp only [literals, List.flatMap_cons, List.mem_append]; exact .inl hv, hc⟩
    cases rest with
    | nil => exact hstep hc
    | cons s' rest =>
      rw [text_cons s (List.cons_ne_nil s' rest), String.toList_append, String.toList_append,
        List.mem_append, List.mem_append] at hc
      rcases hc with (hc | hc) | hc
      · exact hstep hc
      · exact absurd hc (h.notMem_sign (by decide))
      · obtain ⟨v, hv, hc⟩ := ih (fun x hx => hn x (by simp [hx])) hc
        refine ⟨v, ?_, hc⟩
        rw [literals, List.flatMap_cons]
        exact List.mem_append_right _ hv

/-- The character is in a literal that was read, or in the one that is being read. -/
def State.Spells (c : Char) (st : State) : Prop :=
  (∃ v ∈ literals (st.done ++ [st.cur]), c ∈ v.toList) ∨
    ∃ k v, st.mode = .literal k v ∧ c ∈ v.toList

private theorem Feeds.spells {st st' : State} {c d : Char} (h : Feeds st d st')
    (hs : st'.Spells c) : st.Spells c ∨ c = d := by
  cases h with
  | closeLiteral =>
    rcases hs with ⟨v, hv, hc⟩ | ⟨k, v, hm, -⟩
    · simp only [literals, List.flatMap_append, List.mem_append, List.flatMap_singleton,
        List.map_append, List.map_singleton, List.mem_singleton] at hv
      rcases hv with hv | hv | rfl
      · exact .inl (.inl ⟨v, by simp [literals, hv], hc⟩)
      · exact .inl (.inl ⟨v, by simp [literals, hv], hc⟩)
      · exact .inl (.inr ⟨_, v, rfl, hc⟩)
    · cases hm
  | literalChar =>
    rcases hs with hv | ⟨k, v, hm, hc⟩
    · exact .inl (.inl hv)
    · cases hm
      rw [String.toList_append, List.mem_append, String.toList_singleton,
        List.mem_singleton] at hc
      exact hc.imp_left fun hc => .inr ⟨_, _, rfl, hc⟩
  | openLiteral =>
    rcases hs with hv | ⟨k, v, hm, hc⟩
    · exact .inl (.inl hv)
    · cases hm
      cases hc
  | _ =>
    rcases hs with ⟨v, hv, hc⟩ | ⟨k, v, hm, -⟩
    · exact .inl (.inl ⟨v, by simpa [literals] using hv, hc⟩)
    · cases hm

private theorem spells_of_foldlM {c : Char} : ∀ (cs : List Char) {st st' : State},
    cs.foldlM feed st = some st' → st'.Spells c → st.Spells c ∨ c ∈ cs := by
  intro cs
  induction cs with
  | nil => intro st st' h hs; cases h; exact .inl hs
  | cons d cs ih =>
    intro st st' h hs
    rw [List.foldlM_cons, Option.bind_eq_bind, Option.bind_eq_some_iff] at h
    obtain ⟨st₁, hd, hcs⟩ := h
    rcases ih hcs hs with hs | hc
    · exact ((feeds_of_feed hd).spells hs).imp_right fun hc => List.mem_cons.mpr (.inl hc)
    · exact .inr (List.mem_cons_of_mem _ hc)

/-- The steps that are read are those behind the reader at the end of the text. -/
private theorem steps_of_finish {st : State} {steps : List Step} (h : finish st = some steps) :
    steps = st.done ++ [st.cur] := by
  obtain ⟨done, cur, m⟩ := st
  cases m <;> simp only [finish] at h <;> (try split at h) <;> cases h <;> rfl

/-- **A literal that is read stands in the text**, character by character. -/
theorem mem_of_parse {s v : String} {steps : List Step} {c : Char} (h : parse s = some steps)
    (hv : v ∈ literals steps) (hc : c ∈ v.toList) : c ∈ s.toList := by
  obtain ⟨st, hst, hfin⟩ := Option.bind_eq_some_iff.mp h
  rw [steps_of_finish hfin] at hv
  rcases spells_of_foldlM _ hst (.inl ⟨v, hv, hc⟩) with hs | hmem
  · -- nothing is read yet at the beginning
    rcases hs with ⟨w, hw, -⟩ | ⟨k, w, hm, -⟩
    · cases hw
    · cases hm
  · exact hmem

/-! ### Settled steps

Once a predicate is open, the name of its step does not change any more. -/

/-- The step behind `d` has this qualifier and name, and is past its name. -/
def State.Settled (d : List Step) (q : Option String) (n : String) (st : State) : Prop :=
  (∃ ps tl, st.done = d ++ ⟨q, n, ps⟩ :: tl) ∨
    (st.done = d ∧ st.mode ≠ .name ∧ ∃ ps, st.cur = ⟨q, n, ps⟩)

/-- Reading only appends to the steps that are read. -/
private theorem Feeds.done {st st' : State} {c : Char} (h : Feeds st c st') :
    ∃ more, st'.done = st.done ++ more := by
  cases h with
  | slashName => exact ⟨_, rfl⟩
  | slashPred => exact ⟨_, rfl⟩
  | _ => exact ⟨[], (List.append_nil _).symm⟩

private theorem Feeds.settled {d : List Step} {q : Option String} {n : String} {st st' : State}
    {c : Char} (h : Feeds st c st') (hs : st.Settled d q n) : st'.Settled d q n := by
  rcases hs with ⟨ps, tl, hd⟩ | ⟨hd, hm, ps, hcur⟩
  · obtain ⟨more, hmore⟩ := h.done
    exact Or.inl ⟨ps, tl ++ more, by rw [hmore, hd]; simp⟩
  · cases h with
    | nameChar => exact absurd rfl hm
    | qualifier => exact absurd rfl hm
    | openName => exact absurd rfl hm
    | slashName => exact absurd rfl hm
    | closeLiteral =>
      cases hcur
      exact Or.inr ⟨hd, by simp, _, rfl⟩
    | slashPred =>
      cases hcur
      exact Or.inl ⟨ps, [], by rw [← hd]⟩
    | _ => exact Or.inr ⟨hd, by simp, ps, hcur⟩

private theorem settled_of_foldlM {d : List Step} {q : Option String} {n : String} :
    ∀ (cs : List Char) {st st' : State}, cs.foldlM feed st = some st' → st.Settled d q n →
      st'.Settled d q n := by
  intro cs
  induction cs with
  | nil => intro st st' h hs; cases h; exact hs
  | cons c cs ih =>
    intro st st' h hs
    rw [List.foldlM_cons, Option.bind_eq_bind, Option.bind_eq_some_iff] at h
    obtain ⟨st₁, hc, hcs⟩ := h
    exact ih hcs ((feeds_of_feed hc).settled hs)

/-- What stands in front of an open predicate is among the steps of the path. -/
theorem parse_settled {s t : String} {d : List Step} {q : Option String} {n k : String}
    {ps : List (String × String)} {steps : List Step}
    (hs : feedAll {} s = some ⟨d, ⟨q, n, ps⟩, .key k⟩) (h : parse (s ++ t) = some steps) :
    ∃ ps tl, steps = d ++ ⟨q, n, ps⟩ :: tl := by
  rw [parse, feedAll_append, hs, Option.bind_some] at h
  obtain ⟨st, hst, hfin⟩ := Option.bind_eq_some_iff.mp h
  have hsettled := settled_of_foldlM (d := d) (q := q) (n := n) _ hst
    (Or.inr ⟨rfl, by simp, ps, rfl⟩)
  have hsteps := steps_of_finish hfin
  obtain ⟨done, cur, m⟩ := st
  rcases hsettled with ⟨ps', tl, hd⟩ | ⟨hd, -, ps', hcur⟩
  · exact ⟨ps', tl ++ [cur], by rw [hsteps, show done = _ from hd]; simp⟩
  · exact ⟨ps', [], by rw [hsteps, show done = d from hd, show cur = _ from hcur]⟩

/-- A path whose first step has a predicate begins with that step, whatever its predicates turn out
to be. -/
theorem head_of_parse {q : Option String} {n k v t : String} {qs : List (String × String)}
    {steps : List Step} (hs : (⟨q, n, (k, v) :: qs⟩ : Step).Named)
    (h : parse ((⟨q, n, (k, v) :: qs⟩ : Step).text ++ t) = some steps) :
    ∃ ps tl, steps = ⟨q, n, ps⟩ :: tl := by
  have hname : (⟨q, n, []⟩ : Step).Named := ⟨hs.qualifier, hs.name, by simp⟩
  obtain ⟨m, hm, hread⟩ := feedAll_step [] hname (by simp [Step.Plain])
  have hopen : feedAll {} ((⟨q, n, []⟩ : Step).text ++ "[") = some ⟨[], ⟨q, n, []⟩, .key ""⟩ := by
    rw [feedAll_append, show ({} : State) = ⟨[], {}, .name⟩ from rfl, hread, Option.bind_some]
    rcases hm with rfl | ⟨rfl, hne⟩
    · rfl
    · simp [feedAll, feed, show identChar '[' = false by decide, show n ≠ "" from hne]
  have htext : (⟨q, n, (k, v) :: qs⟩ : Step).text ++ t =
      ((⟨q, n, []⟩ : Step).text ++ "[") ++ (k ++ "='" ++ v ++ "']" ++ predsText qs ++ t) := by
    simp [Step.text, predsText, predText, String.append_assoc]
  rw [htext] at h
  exact parse_settled hopen h

/-! ### The last step -/

private theorem Feeds.slash {st st' : State} {c : Char} (h : Feeds st c st') (hc : c = '/') :
    (∃ done, st' = ⟨done, {}, .name⟩) ∨ ∃ done cur k v, st' = ⟨done, cur, .literal k v⟩ := by
  cases h with
  | nameChar hi => subst hc; exact absurd hi (by decide)
  | keyChar hi => subst hc; exact absurd hi (by decide)
  | slashName => exact Or.inl ⟨_, rfl⟩
  | slashPred => exact Or.inl ⟨_, rfl⟩
  | literalChar _ => exact Or.inr ⟨_, _, _, _, rfl⟩
  | _ => exact absurd hc (by decide)

/-- **A name behind the last slash is the last step.** -/
theorem parse_slash_name {s n : String} {steps : List Step} (hn : IsIdent n)
    (h : parse (s ++ "/" ++ n) = some steps) : ∃ front, steps = front ++ [⟨none, n, []⟩] := by
  obtain ⟨st, hst, hfin⟩ := Option.bind_eq_some_iff.mp h
  rw [feedAll_append, feedAll_append] at hst
  obtain ⟨st₂, hst₂, hname⟩ := Option.bind_eq_some_iff.mp hst
  obtain ⟨st₁, -, hslash⟩ := Option.bind_eq_some_iff.mp hst₂
  have hfeed : feed st₁ '/' = some st₂ := by
    simpa [feedAll] using hslash
  rcases (feeds_of_feed hfeed).slash rfl with ⟨done, rfl⟩ | ⟨done, cur, k, v, rfl⟩
  · rw [feedAll_name done none [] hn] at hname
    cases hname
    rw [finish] at hfin
    simp only [if_neg hn.1] at hfin
    cases hfin
    exact ⟨done, rfl⟩
  · -- the slash belongs to a literal, which nothing in the name closes
    rw [feedAll, foldlM_literal _ _ _ _ _ fun hq => absurd (hn.2 _ hq) (by decide)] at hname
    cases hname
    cases hfin

end PathText

import StelleriYang.Lib.FirstOccurrence
import StelleriYang.Lib.Runs
import StelleriYang.Yang

/-!
# Search paths

The wrapper keeps a list of the search paths it was given, and libyang keeps the list of those it
has registered. `addSearchPath` appends to the first whatever happens to the second, and appends the
whole path, of which libyang gets the part in front of its first NUL.

## Main definitions

* `Env.RegistersDirs` — how libyang registers a directory
* `ContextCall`, `states` — a run of calls on one context object
* `YangContext.Mirrors` — the two lists are the same, without repetition
* `AllFresh` — every path that is added holds no NUL and is that of a directory not registered
  before

## Main results

* `ContextCall.after_lists` — what one call does to the two lists
* `searchPaths_mirror_iff`
-/

namespace StelleriYang

open Stateful (Ensures)
open YangContext (addSearchPath loadModuleInContext)
open FirstOccurrence (appendNew appendAllNew appendAllNew_append appendAllNew_filter_eq_append_iff)

/-! ### The directories of libyang -/

/-- There is a directory of this name. -/
def Env.found (env : Env) (path : String) : Bool :=
  match env.isSearchPath path with
  | .ok b => b
  | .error _ => false

/-- What is documented of search directories: a new context has none, and a directory is appended
if it exists and is not registered yet; otherwise the call fails and changes nothing. -/
structure Env.RegistersDirs (env : Env) : Prop where
  new_searchdirs : ∀ flags, (env.ly_ctx_new flags).1 = .LY_SUCCESS →
    ∃ c, (env.ly_ctx_new flags).2 = some c ∧ c.searchdirs = []
  registers : ∀ c path, env.found path = true → path ∉ c.searchdirs →
    env.ly_ctx_set_searchdir c path =
      (.LY_SUCCESS, { c with searchdirs := c.searchdirs ++ [path] })
  refuses : ∀ c path, env.found path = false ∨ path ∈ c.searchdirs →
    (env.ly_ctx_set_searchdir c path).1 ≠ .LY_SUCCESS ∧
      (env.ly_ctx_set_searchdir c path).2 = c
  load_searchdirs : ∀ c name rev features,
    (env.ly_ctx_load_module c name rev features).2.searchdirs = c.searchdirs

/-- The candidates that are added before a query of the file system fails. -/
def Env.foundIn (env : Env) : List String → List String
  | [] => []
  | p :: ps =>
    match env.isSearchPath p with
    | .error _ => []
    | .ok true => p :: env.foundIn ps
    | .ok false => env.foundIn ps

theorem Env.foundIn_sublist (env : Env) : ∀ ps, (env.foundIn ps).Sublist ps := by
  intro ps
  induction ps with
  | nil => exact .slnil
  | cons p ps ih =>
    rw [Env.foundIn]
    split
    · exact List.nil_sublist _
    · exact ih.cons_cons p
    · exact ih.cons p

/-! ### Runs -/

/-- A call on one context object. -/
inductive ContextCall where
  | addSearchPath (path : String)
  | getDefaultContext
  deriving DecidableEq, Repr

/-- The process after a call, whether it returns or throws. -/
def ContextCall.after (env : Env) (s : Process) : ContextCall → Process
  | .addSearchPath path =>
    match onInstance (YangContext.addSearchPath env path) s with
    | .ok _ s' => s'
    | .error _ s' => s'
  | .getDefaultContext => (event env .getDefaultContext s).after

/-- The states of a run, the first one included. -/
def states : List (Env × ContextCall) → Process → List Process :=
  Runs.states fun s c => c.2.after c.1 s

/-- The process whose one object has just been created. -/
def newProcess (value : YangContext) : Process := { instance_ := some ⟨0, value⟩, created := 1 }

/-- **`searchPaths` is the list of the registered directories**, without repetition. -/
def YangContext.Mirrors (value : YangContext) : Prop :=
  ∃ c, value.ctx_ = some c ∧ value.searchPaths = c.searchdirs ∧ c.searchdirs.Nodup

def Process.Mirrors (s : Process) : Prop := ∃ o, s.instance_ = some o ∧ o.value.Mirrors

/-- The paths a call hands to `addSearchPath`. -/
def ContextCall.adds (env : Env) (s : Process) : ContextCall → List String
  | .addSearchPath path => [path]
  | .getDefaultContext => if s.initialized then [] else env.foundIn kDefaultSearchPaths

/-- The directories registered with the context. -/
def Process.searchdirs (s : Process) : List String :=
  ((s.instance_.bind fun o => o.value.ctx_).map LyCtx.searchdirs).getD []

/-- Every path a call adds reaches libyang whole and is that of a directory that is not
registered. -/
def ContextCall.Fresh (env : Env) (s : Process) (c : ContextCall) : Prop :=
  ∀ p ∈ c.adds env s, Text.NulFree p ∧ env.found p = true ∧ p ∉ s.searchdirs

/-- Every call of a run is fresh in the state before it. -/
def AllFresh : List (Env × ContextCall) → Process → Prop :=
  Runs.AllMeet (fun s c => c.2.after c.1 s) fun s c => c.2.Fresh c.1 s

instance (env : Env) (s : Process) (c : ContextCall) : Decidable (c.Fresh env s) :=
  inferInstanceAs (Decidable (∀ p ∈ c.adds env s,
    Text.NulFree p ∧ env.found p = true ∧ p ∉ s.searchdirs))

instance (calls : List (Env × ContextCall)) (s : Process) : Decidable (AllFresh calls s) :=
  Runs.decidableAllMeet calls s

/-! ### What one call does to the two lists -/

/-- The two lists of a context. -/
def YangContext.Lists (paths dirs : List String) (value : YangContext) : Prop :=
  ∃ c, value.ctx_ = some c ∧ value.searchPaths = paths ∧ c.searchdirs = dirs

section Step

variable {env : Env} {paths dirs : List String}

theorem addSearchPath_lists (henv : env.RegistersDirs) (path : String) {R : YangContext → Prop} :
    Ensures (YangContext.Lists paths dirs) (addSearchPath env path)
      (fun _ => YangContext.Lists (paths ++ [path])
        (appendAllNew dirs (([path].map Text.cStr).filter env.found))) R := by
  refine Ensures.modify fun self h => ?_
  obtain ⟨c, hc, rfl, rfl⟩ := h
  rw [hc]
  refine ⟨_, rfl, rfl, ?_⟩
  rw [List.map_singleton]
  generalize Text.cStr path = path
  by_cases hfound : env.found path = true
  · rw [List.filter_cons_of_pos hfound]
    show _ = appendNew c.searchdirs path
    rw [appendNew]
    split
    · rename_i hmem
      rw [(henv.refuses c path (.inr hmem)).2]
    · rename_i hmem
      rw [henv.registers c path hfound hmem]
  · rw [List.filter_cons_of_neg hfound]
    rw [(henv.refuses c path (.inl (by simpa using hfound))).2]
    rfl

/-- The loop over the candidates: the induction is on those still to come, and the two lists are
those at its begin. -/
theorem foldlM_addCandidate_lists (henv : env.RegistersDirs) : ∀ (ps : List String)
    {paths dirs : List String} (added : ℕ),
    Ensures (YangContext.Lists paths dirs) (ps.foldlM (addCandidate env) added)
      (fun _ => YangContext.Lists (paths ++ env.foundIn ps)
        (appendAllNew dirs (((env.foundIn ps).map Text.cStr).filter env.found)))
      (YangContext.Lists (paths ++ env.foundIn ps)
        (appendAllNew dirs (((env.foundIn ps).map Text.cStr).filter env.found))) := by
  intro ps
  induction ps with
  | nil =>
    intro paths dirs added
    exact Ensures.pure fun s hs => by simpa [Env.foundIn] using hs
  | cons p ps ih =>
    intro paths dirs added
    rw [List.foldlM_cons, addCandidate, Env.foundIn]
    cases hp : env.isSearchPath p with
    | error e =>
      exact Ensures.bind (Q := fun _ _ => False)
        (Ensures.throw fun s hs => by simpa using hs) fun _ s hs => hs.elim
    | ok b =>
      cases b with
      | false =>
        exact Ensures.bind (Ensures.pure fun s hs => hs) fun _ => ih _
      | true =>
        have hfound : env.found p = true := by rw [Env.found, hp]
        have hpaths : paths ++ p :: env.foundIn ps = (paths ++ [p]) ++ env.foundIn ps := by simp
        have hdirs : appendAllNew dirs (((p :: env.foundIn ps).map Text.cStr).filter env.found) =
            appendAllNew (appendAllNew dirs (([p].map Text.cStr).filter env.found))
              (((env.foundIn ps).map Text.cStr).filter env.found) := by
          rw [← appendAllNew_append, ← List.filter_append, ← List.map_append, List.singleton_append]
        rw [hpaths, hdirs]
        refine Ensures.bind ?_ fun added' => ih added'
        exact (addSearchPath_lists henv p).bind fun _ => Ensures.pure fun s hs => hs

theorem setUp_lists (henv : env.RegistersDirs) :
    Ensures (YangContext.Lists paths dirs) (setUp env)
      (fun _ => YangContext.Lists (paths ++ env.foundIn kDefaultSearchPaths)
        (appendAllNew dirs (((env.foundIn kDefaultSearchPaths).map Text.cStr).filter env.found)))
      (YangContext.Lists (paths ++ env.foundIn kDefaultSearchPaths)
        (appendAllNew dirs (((env.foundIn kDefaultSearchPaths).map Text.cStr).filter env.found))) := by
  refine setUp_rule (foldlM_addCandidate_lists henv _)
    (YangContext.loadModuleInContext_keeps fun self c name rev features h hc => ?_)
  obtain ⟨c', hc', hpaths, hdirs⟩ := h
  cases hc.symm.trans hc'
  exact ⟨_, rfl, hpaths, (henv.load_searchdirs c name rev features).trans hdirs⟩

/-- **What one call does to the two lists**: the first grows by what the call adds, the second by
what is new of it. -/
theorem ContextCall.after_lists (henv : env.RegistersDirs) (c : ContextCall) {s : Process}
    {o : Object} (ho : s.instance_ = some o) (h : o.value.Lists paths dirs) :
    ∃ o', (c.after env s).instance_ = some o' ∧
      o'.value.Lists (paths ++ c.adds env s)
        (appendAllNew dirs (((c.adds env s).map Text.cStr).filter env.found)) := by
  cases c with
  | addSearchPath path =>
    have hadd := addSearchPath_lists (R := fun _ => False) henv path o.value h
    rw [ContextCall.after, ContextCall.adds]
    cases hx : YangContext.addSearchPath env path o.value with
    | ok a value =>
      rw [hx] at hadd
      rw [onInstance_of_ok ho hx]
      exact ⟨_, rfl, hadd⟩
    | error e value =>
      rw [hx] at hadd
      exact hadd.elim
  | getDefaultContext =>
    obtain ⟨s', hs', hinit, hrun⟩ := getContext_of_some env [.NoYanglibrary] ho
    rw [ContextCall.after, event_after, Call.run, getDefaultContext_eq hrun hs', hinit,
      ContextCall.adds]
    by_cases hi : s.initialized = true
    · rw [if_pos hi, if_pos hi, List.append_nil]
      exact ⟨o, hs', h⟩
    · rw [if_neg hi, if_neg hi]
      have hset := setUp_lists henv o.value h
      cases hx : setUp env o.value with
      | ok a value =>
        rw [hx] at hset
        exact ⟨_, rfl, hset⟩
      | error e value =>
        rw [hx] at hset
        exact ⟨_, rfl, hset⟩

theorem ContextCall.nodup_adds (env : Env) (s : Process) (c : ContextCall) :
    (c.adds env s).Nodup := by
  cases c with
  | addSearchPath path => exact List.nodup_singleton path
  | getDefaultContext =>
    rw [ContextCall.adds]
    split
    · exact List.nodup_nil
    · exact (by decide : kDefaultSearchPaths.Nodup).sublist (env.foundIn_sublist _)

/-- **The two lists stay equal through a call exactly if it is fresh.** -/
theorem ContextCall.mirrors_after_iff (henv : env.RegistersDirs) (c : ContextCall) {s : Process}
    (h : s.Mirrors) : (c.after env s).Mirrors ↔ c.Fresh env s := by
  obtain ⟨o, ho, ctx, hctx, hpaths, hnodup⟩ := h
  have hdirs : s.searchdirs = ctx.searchdirs := by
    rw [Process.searchdirs, ho, Option.bind_some, hctx]
    rfl
  obtain ⟨o', ho', ctx', hctx', hpaths', hdirs'⟩ :=
    c.after_lists henv ho ⟨ctx, hctx, hpaths, rfl⟩
  have hlists : (c.after env s).Mirrors ↔
      appendAllNew ctx.searchdirs (((c.adds env s).map Text.cStr).filter env.found) =
        ctx.searchdirs ++ c.adds env s := by
    constructor
    · rintro ⟨o₁, ho₁, ctx₁, hctx₁, heq, -⟩
      cases ho'.symm.trans ho₁
      cases hctx'.symm.trans hctx₁
      rw [← hdirs', ← heq, hpaths']
    · intro heq
      refine ⟨o', ho', ctx', hctx', by rw [hpaths', hdirs', heq], ?_⟩
      rw [hdirs']
      exact FirstOccurrence.nodup_appendAllNew hnodup
  rw [hlists, ContextCall.Fresh, hdirs]
  constructor
  · intro heq p hp
    -- what libyang registers has been cut, and so what it was given was whole
    have hnul : ∀ p ∈ c.adds env s, Text.NulFree p := fun p hp => by
      have hmem := FirstOccurrence.subset_of_appendAllNew_eq heq hp
      obtain ⟨q, -, rfl⟩ := List.mem_map.mp (List.mem_filter.mp hmem).1
      exact Text.nulFree_cStr q
    rw [Text.map_cStr_eq hnul] at heq
    exact ⟨hnul p hp, (appendAllNew_filter_eq_append_iff.mp heq).1 p hp⟩
  · intro h
    rw [Text.map_cStr_eq fun p hp => (h p hp).1]
    exact appendAllNew_filter_eq_append_iff.mpr ⟨fun p hp => (h p hp).2, c.nodup_adds env s⟩

end Step

/-! ### Every run -/

/-- **`searchPaths` is right in every state exactly if every path that is added, by `addSearchPath`
or by an attempt of `getDefaultContext`, holds no NUL and is that of a directory not registered
before.**

The run starts from a context that has just been created. Assumed of libyang is how it registers a
directory (`Env.RegistersDirs`); which directories there are, and which modules load, may differ
from call to call. -/
theorem searchPaths_mirror_iff {env₀ : Env} {flags : UInt32} {value : YangContext}
    (henv₀ : env₀.RegistersDirs) (hnew : YangContext.new env₀ flags = .ok value)
    {calls : List (Env × ContextCall)} (hlaw : ∀ c ∈ calls, c.1.RegistersDirs) :
    (∀ s ∈ states calls (newProcess value), s.Mirrors) ↔ AllFresh calls (newProcess value) := by
  refine Runs.forall_states_iff
    (fun c hc s hs => c.2.mirrors_after_iff (hlaw c hc) hs) ⟨_, rfl, ?_⟩
  rw [YangContext.new] at hnew
  split at hnew
  · rename_i ctx_ h
    obtain ⟨c, hc, hdirs⟩ := henv₀.new_searchdirs flags (by rw [h])
    rw [h] at hc
    cases hnew
    exact ⟨c, hc, hdirs.symm, by rw [hdirs]; exact List.nodup_nil⟩
  · cases hnew

/-- A system with these directories, on which some modules fail to load. -/
def Env.having (dirs refused : List String) : Env where
  ly_ctx_new options := (.LY_SUCCESS, some { options })
  ly_ctx_set_searchdir c path :=
    if path ∉ dirs then (.LY_EINVAL, c)
    else if path ∈ c.searchdirs then (.LY_EEXIST, c)
    else (.LY_SUCCESS, { c with searchdirs := c.searchdirs ++ [path] })
  ly_ctx_load_module := (Env.refusing refused).ly_ctx_load_module
  exists_ path := .ok (decide (path ∈ dirs))
  is_directory path := .ok (decide (path ∈ dirs))

theorem Env.found_having (dirs refused : List String) (path : String) :
    (Env.having dirs refused).found path = decide (path ∈ dirs) := by
  have hsearch : (Env.having dirs refused).isSearchPath path = .ok (decide (path ∈ dirs)) := by
    show (if decide (path ∈ dirs) = true then Except.ok (decide (path ∈ dirs)) else .ok false) = _
    split
    · rfl
    · rename_i h
      rw [Bool.eq_false_iff.mpr h]
  rw [Env.found, hsearch]

theorem Env.having_registersDirs (dirs refused : List String) :
    (Env.having dirs refused).RegistersDirs where
  new_searchdirs flags _ := ⟨_, rfl, rfl⟩
  registers c path hfound hpath := by
    rw [Env.found_having, decide_eq_true_eq] at hfound
    simp [Env.having, hfound, hpath]
  refuses c path h := by
    rw [Env.found_having, decide_eq_false_iff_not] at h
    by_cases hfound : path ∈ dirs
    · have hpath : path ∈ c.searchdirs := h.resolve_left (not_not_intro hfound)
      simp [Env.having, hfound, hpath]
    · simp [Env.having, hfound]
  load_searchdirs c name rev features := by
    simp only [Env.having, Env.refusing]
    split <;> rfl

/-- An attempt that fails while it loads a module, and its repetition, on a system with one of the
default directories: the second attempt lists the directory again. -/
theorem searchPaths_after_retry :
    let dir := "/usr/share/yang/modules/libyang/"
    let calls := [(Env.having [dir] ["ietf-ip"], ContextCall.getDefaultContext),
      (Env.having [dir] [], ContextCall.getDefaultContext)]
    ∃ value, YangContext.new (Env.having [dir] []) 0 = .ok value ∧
      (states calls (newProcess value)).map
        (fun s => s.instance_.map fun o => o.value.searchPaths) =
        [some [], some [dir], some [dir, dir]] ∧
      (states calls (newProcess value)).map Process.searchdirs = [[], [dir], [dir]] ∧
      ¬ ∀ s ∈ states calls (newProcess value), s.Mirrors := by
  intro dir calls
  refine ⟨_, rfl, by decide, by decide, fun h => ?_⟩
  obtain ⟨o, ho, c, hc, hpaths, -⟩ := h _ (List.getLast_mem (by decide))
  cases ho
  cases hc
  exact absurd hpaths (by decide)

/-- A directory of the caller's own, and then the default ones. -/
theorem searchPaths_after_addSearchPath :
    let dir := "/usr/share/yang/modules/libyang/"
    let calls := [(Env.having [dir, "/opt/yang"] [], ContextCall.addSearchPath "/opt/yang"),
      (Env.having [dir, "/opt/yang"] [], ContextCall.getDefaultContext),
      (Env.having [dir] [], ContextCall.getDefaultContext)]
    ∃ value, YangContext.new (Env.having [] []) 0 = .ok value ∧
      AllFresh calls (newProcess value) ∧
      ((∀ s ∈ states calls (newProcess value), s.Mirrors) ↔
        AllFresh calls (newProcess value)) := by
  intro dir calls
  refine ⟨_, rfl, by decide,
    searchPaths_mirror_iff (Env.having_registersDirs [] []) rfl fun c hc => ?_⟩
  simp only [calls, List.mem_cons, List.not_mem_nil, or_false] at hc
  rcases hc with rfl | rfl | rfl <;> exact Env.having_registersDirs _ _

end StelleriYang

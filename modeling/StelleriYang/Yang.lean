import StelleriYang.YangContext

/-!
# The context of the process

`Yang::getContext` and `Yang::getDefaultContext` share one context through a function-local static,
and a second static says whether the default modules are loaded into it. A run is any sequence of
calls of the two, each with its own answers from libyang and the file system; a call that throws
leaves behind what it did before.

## Main definitions

* `kDefaultModules`, `kDefaultSearchPaths`
* `Process` — the two statics
* `getContext`, `getDefaultContext`, `trace`

## Main results

* `setUp_ensures` — the modules are loaded when the set-up returns
* `event_instance` — what one call does to the context object
* `Process.Inv` — the second static says the truth; `event_inv` — every call keeps it
* `trace_sound` — and so does every run
* `trace_sameContext_and_fullyLoaded`
-/

namespace StelleriYang

open Stateful (Ensures throwIf bind_of_ok bind_of_error)
open YangContext (Holds addSearchPath loadModuleInContext)

/-! ### Defaults -/

/-- `kDefaultModules`: name, revision, features. -/
def kDefaultModules : List (String × String × Option (List String)) := [
  ("iana-if-type", "2023-01-26", none),
  ("ietf-interfaces", "2018-02-20", none),
  ("ietf-ip", "2018-02-22", none),
  ("ietf-routing", "2018-03-13", none),
  ("ietf-routing-policy", "2021-10-11", none),
  ("ietf-routing-types", "2017-12-04", none)]

/-- `kDefaultSearchPaths`. -/
def kDefaultSearchPaths : List String := [
  "/usr/local/share/yang/modules/libyang/",
  "/usr/local/share/yang/modules/yang/standard/iana/",
  "/usr/local/share/yang/modules/yang/standard/ietf/RFC/",
  "/usr/share/yang/modules/libyang/",
  "/usr/share/yang/modules/yang/standard/iana/",
  "/usr/share/yang/modules/yang/standard/ietf/RFC/"]

theorem nulFree_kDefaultModules :
    ∀ m ∈ kDefaultModules, Text.NulFree m.1 ∧ Text.NulFree m.2.1 := by decide

/-! ### The process -/

/-- A context object. Objects are numbered in the order of their creation. -/
structure Object where
  id : ℕ
  value : YangContext
  deriving DecidableEq, Repr

/-- The statics of the two functions, and how many context objects were created. -/
structure Process where
  instance_ : Option Object := none
  created : ℕ := 0
  initialized : Bool := false
  deriving DecidableEq, Repr

/-- `std::filesystem::exists(pp) && std::filesystem::is_directory(pp)`. -/
def Env.isSearchPath (env : Env) (p : String) : Except Thrown Bool := do
  if ← env.exists_ p then env.is_directory p else .ok false

/-- One candidate of the loop over the search paths. -/
def addCandidate (env : Env) (added : ℕ) (p : String) : EStateM Thrown YangContext ℕ :=
  match env.isSearchPath p with
  | .error e => throw e
  | .ok false => pure added
  | .ok true => do
    addSearchPath env p
    pure (added + 1)

/-- The part of `getDefaultContext` behind the test of `initialized`, up to the assignment to it. -/
def setUp (env : Env) : EStateM Thrown YangContext Unit := do
  let added ← kDefaultSearchPaths.foldlM (addCandidate env) 0
  throwIf (added = 0) .yangDataError
  let self ← get
  throwIf (self.ctx_ = none) .yangDataError
  kDefaultModules.forM fun pr => do
    let _ ← loadModuleInContext env pr.1 pr.2.1 pr.2.2

/-- `if (!instance) instance = std::make_shared<YangContext>(flags)`. -/
def makeInstance (env : Env) (flags : UInt32) : EStateM Thrown Process Unit := fun s =>
  match s.instance_ with
  | some _ => .ok () s
  | none =>
    match YangContext.new env flags with
    | .error e => .error e s
    | .ok value =>
      .ok () { s with instance_ := some ⟨s.created, value⟩, created := s.created + 1 }

/-- `getContext`: the shared pointer, null if there is no object. -/
def getContext (env : Env) (opts : List YangContextOption) : EStateM Thrown Process (Option ℕ) := do
  let flags := opts.foldl (fun flags o => flags ||| o.toFlags) 0
  makeInstance env flags
  let s ← get
  pure (s.instance_.map Object.id)

/-- A method of the shared context, called through a pointer that was tested not to be null. -/
def onInstance {α : Type} (op : EStateM Thrown YangContext α) : EStateM Thrown Process α := fun s =>
  match s.instance_ with
  | none => .error .runtimeError s
  | some o =>
    match op o.value with
    | .ok a value => .ok a { s with instance_ := some { o with value } }
    | .error e value => .error e { s with instance_ := some { o with value } }

/-- `getDefaultContext`. -/
def getDefaultContext (env : Env) : EStateM Thrown Process (Option ℕ) := do
  let instance_ ← getContext env [.NoYanglibrary]
  throwIf (instance_ = none) .runtimeError
  let s ← get
  if s.initialized then pure instance_
  else do
    onInstance (setUp env)
    modify fun s => { s with initialized := true }
    pure instance_

/-! ### Runs -/

inductive Call where
  | getContext (opts : List YangContextOption)
  | getDefaultContext
  deriving DecidableEq, Repr

/-- The flags a call asks for. -/
def Call.flags : Call → UInt32
  | .getContext opts => opts.foldl (fun flags o => flags ||| o.toFlags) 0
  | .getDefaultContext => YangContextOption.NoYanglibrary.toFlags

def Call.run (env : Env) : Call → EStateM Thrown Process (Option ℕ)
  | .getContext opts => StelleriYang.getContext env opts
  | .getDefaultContext => StelleriYang.getDefaultContext env

/-- A call, its outcome (the object the shared pointer points to) and the process afterwards. -/
structure Event where
  call : Call
  outcome : Except Thrown (Option ℕ)
  after : Process

def event (env : Env) (c : Call) (s : Process) : Event :=
  match c.run env s with
  | .ok r s' => ⟨c, .ok r, s'⟩
  | .error e s' => ⟨c, .error e, s'⟩

/-- The events of a sequence of calls. -/
def trace : List (Env × Call) → Process → List Event
  | [], _ => []
  | (env, c) :: calls, s => event env c s :: trace calls (event env c s).after

/-! ### What one call does to the context object -/

/-- The object a call works on: the one there is, or a new one if the constructor succeeds. -/
def Process.opened (env : Env) (flags : UInt32) (s : Process) : Option Object :=
  match s.instance_ with
  | some o => some o
  | none =>
    match YangContext.new env flags with
    | .ok value => some ⟨s.created, value⟩
    | .error _ => none

theorem Process.opened_of_ok {env : Env} {flags : UInt32} {s : Process} {value : YangContext}
    (hs : s.instance_ = none) (h : YangContext.new env flags = .ok value) :
    s.opened env flags = some ⟨s.created, value⟩ := by
  simp only [Process.opened, hs, h]

theorem Process.opened_of_error {env : Env} {flags : UInt32} {s : Process} {e : Thrown}
    (hs : s.instance_ = none) (h : YangContext.new env flags = .error e) :
    s.opened env flags = none := by
  simp only [Process.opened, hs, h]

section Instance

variable {env : Env} {P : YangContext → Prop}

/-- The set-up: the loop over the candidates, and then loads. -/
theorem setUp_rule {Q : YangContext → Prop}
    (hcandidates : ∀ added, Ensures P (kDefaultSearchPaths.foldlM (addCandidate env) added)
      (fun _ => Q) Q)
    (hload : ∀ name rev features,
      Ensures Q (loadModuleInContext env name rev features) (fun _ => Q) Q) :
    Ensures P (setUp env) (fun _ => Q) Q := by
  refine (hcandidates 0).bind fun added => ?_
  refine (Ensures.throwIf (Q := fun _ => Q) (fun s hs _ => hs) fun s hs _ => hs).bind fun _ => ?_
  refine (Ensures.get (Q := fun _ => Q) fun s hs => hs).bind fun self => ?_
  refine (Ensures.throwIf (Q := fun _ => Q) (fun s hs _ => hs) fun s hs _ => hs).bind fun _ => ?_
  exact Ensures.forM (fun _ => Q)
    (fun m _ _ => (hload _ _ _).bind fun _ => Ensures.pure fun s hs => hs) []

/-- What every method keeps, the set-up keeps. -/
theorem setUp_keeps (hadd : ∀ p, Ensures P (addSearchPath env p) (fun _ => P) P)
    (hload : ∀ name rev features,
      Ensures P (loadModuleInContext env name rev features) (fun _ => P) P) :
    Ensures P (setUp env) (fun _ => P) P := by
  refine setUp_rule (Ensures.foldlM (fun _ => P) fun p _ added => ?_) hload
  rw [addCandidate]
  rcases env.isSearchPath p with e | b
  · exact Ensures.throw fun s hs => hs
  · rcases b with _ | _
    · exact Ensures.pure fun s hs => hs
    · exact (hadd p).bind fun _ => Ensures.pure fun s hs => hs

/-- `getContext` returns the object it works on, or throws. -/
theorem getContext_cases (env : Env) (opts : List YangContextOption) (s : Process) :
    (∃ o s', s.opened env (Call.getContext opts).flags = some o ∧ s'.instance_ = some o ∧
      s'.initialized = s.initialized ∧ getContext env opts s = .ok (some o.id) s') ∨
    (s.opened env (Call.getContext opts).flags = none ∧ s.instance_ = none ∧
      ∃ e, getContext env opts s = .error e s) := by
  have hok : ∀ o s', makeInstance env (Call.getContext opts).flags s = .ok () s' →
      s'.instance_ = some o → getContext env opts s = .ok (some o.id) s' := by
    intro o s' hmake hs'
    rw [getContext]
    refine (bind_of_ok hmake).trans ?_
    show EStateM.Result.ok (s'.instance_.map Object.id) s' = .ok (some o.id) s'
    rw [hs', Option.map_some]
  rw [Process.opened]
  rw [makeInstance] at hok
  cases hs : s.instance_ with
  | some o => exact .inl ⟨o, s, rfl, hs, rfl, hok o s (by rw [hs]) hs⟩
  | none =>
    cases hnew : YangContext.new env (Call.getContext opts).flags with
    | ok value =>
      let s' : Process :=
        { s with instance_ := some ⟨s.created, value⟩, created := s.created + 1 }
      exact .inl ⟨⟨s.created, value⟩, s', rfl, rfl, rfl, hok _ s' (by rw [hs, hnew]) rfl⟩
    | error e =>
      refine .inr ⟨rfl, rfl, e, ?_⟩
      rw [getContext]
      refine bind_of_error ?_
      rw [makeInstance, hs]
      simp only [show List.foldl _ 0 opts = (Call.getContext opts).flags from rfl, hnew]

theorem getContext_of_some (env : Env) (opts : List YangContextOption) {s : Process} {o : Object}
    (ho : s.instance_ = some o) : ∃ s', s'.instance_ = some o ∧ s'.initialized = s.initialized ∧
      getContext env opts s = .ok (some o.id) s' := by
  rcases getContext_cases env opts s with ⟨o', s', ho', hs', hinit, hrun⟩ | ⟨-, hnone, -⟩
  · rw [Process.opened, ho] at ho'
    cases ho'
    exact ⟨s', hs', hinit, hrun⟩
  · cases ho.symm.trans hnone

theorem onInstance_of_ok {α : Type} {op : EStateM Thrown YangContext α} {s : Process} {o : Object}
    {a : α} {value : YangContext} (hs : s.instance_ = some o) (h : op o.value = .ok a value) :
    onInstance op s = .ok a { s with instance_ := some { o with value } } := by
  rw [onInstance, hs]
  simp only [h]

theorem onInstance_of_error {α : Type} {op : EStateM Thrown YangContext α} {s : Process}
    {o : Object} {e : Thrown} {value : YangContext} (hs : s.instance_ = some o)
    (h : op o.value = .error e value) :
    onInstance op s = .error e { s with instance_ := some { o with value } } := by
  rw [onInstance, hs]
  simp only [h]

/-- `getDefaultContext` on an object: the set-up runs on it, unless it is done. -/
theorem getDefaultContext_eq {o : Object} {s s' : Process}
    (h : getContext env [.NoYanglibrary] s = .ok (some o.id) s') (hs' : s'.instance_ = some o) :
    getDefaultContext env s =
      if s'.initialized then .ok (some o.id) s' else
        match setUp env o.value with
        | .ok _ value =>
          .ok (some o.id) { s' with instance_ := some { o with value }, initialized := true }
        | .error e value => .error e { s' with instance_ := some { o with value } } := by
  rw [getDefaultContext]
  refine (bind_of_ok h).trans ((bind_of_ok (x := throwIf _ _) (a := ()) rfl).trans ?_)
  refine (bind_of_ok (x := get) (a := s') rfl).trans ?_
  split
  · rfl
  · cases hrun : setUp env o.value with
    | ok a value => exact (bind_of_ok (onInstance_of_ok hs' hrun)).trans rfl
    | error e value => exact bind_of_error (onInstance_of_error hs' hrun)

theorem event_after (env : Env) (c : Call) (s : Process) :
    (event env c s).after = match c.run env s with
      | .ok _ s' => s'
      | .error _ s' => s' := by
  rw [event]
  cases c.run env s <;> rfl

/-- **One call leaves the object it works on**, changed at most by the set-up. -/
theorem event_instance (hsetup : Ensures P (setUp env) (fun _ => P) P) (c : Call) (s : Process) :
    match s.opened env c.flags with
    | some o => ∃ value, (event env c s).after.instance_ = some { o with value } ∧
        (P o.value → P value)
    | none => (event env c s).after.instance_ = none := by
  rw [event_after]
  cases c with
  | getContext opts =>
    rcases getContext_cases env opts s with ⟨o, s', ho, hs', -, hrun⟩ | ⟨ho, hs, e, hrun⟩
    · rw [ho, Call.run, hrun]
      exact ⟨o.value, hs', id⟩
    · rw [ho, Call.run, hrun]
      exact hs
  | getDefaultContext =>
    have hflags : Call.flags .getDefaultContext = (Call.getContext [.NoYanglibrary]).flags := rfl
    rw [hflags, Call.run]
    rcases getContext_cases env [.NoYanglibrary] s with
      ⟨o, s', ho, hs', -, hrun⟩ | ⟨ho, hs, e, hrun⟩
    · rw [ho, getDefaultContext_eq hrun hs']
      by_cases hi : s'.initialized
      · rw [if_pos hi]
        exact ⟨o.value, hs', id⟩
      · rw [if_neg hi]
        have hset := hsetup o.value
        cases hx : setUp env o.value with
        | ok a value =>
          rw [hx] at hset
          exact ⟨value, rfl, hset⟩
        | error e value =>
          rw [hx] at hset
          exact ⟨value, rfl, hset⟩
    · have hdef : getDefaultContext env s = .error e s := by
        rw [getDefaultContext]
        exact bind_of_error hrun
      rw [ho, hdef]
      exact hs

end Instance

/-! ### The invariant -/

/-- Every default module is loaded. -/
def YangContext.FullyLoaded (value : YangContext) : Prop := Holds kDefaultModules value

/-- `initialized` is set only when the context is fully loaded. -/
def Process.Inv (s : Process) : Prop :=
  s.initialized = true → ∃ o, s.instance_ = some o ∧ o.value.FullyLoaded

/-- The context object of `old`, if there is one, is that of `s`, and what was loaded is loaded. -/
def Process.Keeps (old s : Process) : Prop :=
  ∀ o, old.instance_ = some o → ∃ o', s.instance_ = some o' ∧ o'.id = o.id ∧ o.value.Keeps o'.value

theorem Process.Keeps.refl (s : Process) : s.Keeps s := fun o h => ⟨o, h, rfl, fun _ => id⟩

theorem Process.Keeps.trans {s s' s'' : Process} (h : s.Keeps s') (h' : s'.Keeps s'') :
    s.Keeps s'' := by
  intro o ho
  obtain ⟨o', ho', hid, hk⟩ := h o ho
  obtain ⟨o'', ho'', hid', hk'⟩ := h' o' ho'
  exact ⟨o'', ho'', hid'.trans hid, fun ms hms => hk' ms (hk ms hms)⟩

section Step

variable {env : Env}

theorem addCandidate_ensures (henv : env.Lawful) (old : YangContext) (p : String) (added : ℕ) :
    Ensures old.Keeps (addCandidate env added p) (fun _ => old.Keeps) old.Keeps := by
  rw [addCandidate]
  cases env.isSearchPath p with
  | error e => exact Ensures.throw fun s hs => hs
  | ok b =>
    cases b with
    | false => exact Ensures.pure fun s hs => hs
    | true =>
      exact (YangContext.addSearchPath_ensures henv p).bind fun _ => Ensures.pure fun s hs => hs

/-- **When the set-up returns, every default module is loaded**; and whether it returns or throws,
no module is lost. -/
theorem setUp_ensures (henv : env.Lawful) (old : YangContext) :
    Ensures old.Keeps (setUp env) (fun _ self => old.Keeps self ∧ self.FullyLoaded) old.Keeps := by
  refine (Ensures.foldlM (fun _ => old.Keeps)
    (fun p _ added => addCandidate_ensures henv old p added) 0).bind fun added => ?_
  refine (Ensures.throwIf (Q := fun _ => old.Keeps) (fun s hs _ => hs) fun s hs _ => hs).bind
    fun _ => ?_
  refine (Ensures.get (Q := fun r self => old.Keeps self ∧ self = r)
    fun s hs => ⟨hs, rfl⟩).bind fun self => ?_
  have hctx : Ensures (fun s => old.Keeps s ∧ s = self)
      (throwIf (self.ctx_ = none) Thrown.yangDataError)
      (fun _ s => old.Keeps s ∧ Holds [] s) old.Keeps :=
    Ensures.throwIf (fun s hs _ => hs.1) fun s ⟨hs, heq⟩ hne => by
      obtain ⟨c, hc⟩ := Option.ne_none_iff_exists'.mp hne
      exact ⟨hs, c, by rw [heq, hc], by simp⟩
  refine hctx.bind fun _ => ?_
  -- the modules that are done are loaded
  exact Ensures.forM (fun done self => old.Keeps self ∧ Holds done self)
    (fun m hm done => (YangContext.loadModuleInContext_ensures henv
      (nulFree_kDefaultModules m hm).1 (nulFree_kDefaultModules m hm).2 done).bind fun _ =>
        Ensures.pure fun s hs => hs) []

theorem makeInstance_ensures (env : Env) (flags : UInt32) (old : Process) :
    Ensures (fun s => s.Inv ∧ old.Keeps s) (makeInstance env flags)
      (fun _ s => (s.Inv ∧ old.Keeps s) ∧ s.instance_ ≠ none) (fun s => s.Inv ∧ old.Keeps s) := by
  rintro s ⟨hinv, hkeep⟩
  rw [makeInstance]
  cases hs : s.instance_ with
  | some o => exact ⟨⟨hinv, hkeep⟩, by simp [hs]⟩
  | none =>
    cases YangContext.new env flags with
    | error e => exact ⟨hinv, hkeep⟩
    | ok value =>
      -- a new object: there was none, so nothing was initialized
      refine ⟨⟨fun hi => ?_, fun o ho => ?_⟩, by simp⟩
      · obtain ⟨o, ho, -⟩ := hinv hi
        rw [hs] at ho
        cases ho
      · obtain ⟨o', ho', -⟩ := hkeep o ho
        rw [hs] at ho'
        cases ho'

theorem getContext_ensures (env : Env) (opts : List YangContextOption) (old : Process) :
    Ensures (fun s => s.Inv ∧ old.Keeps s) (getContext env opts)
      (fun r s => (s.Inv ∧ old.Keeps s) ∧ ∃ o, s.instance_ = some o ∧ r = some o.id)
      (fun s => s.Inv ∧ old.Keeps s) := by
  refine (makeInstance_ensures env _ old).bind fun _ => ?_
  refine (Ensures.get (Q := fun r s => ((s.Inv ∧ old.Keeps s) ∧ s.instance_ ≠ none) ∧ s = r)
    fun s hs => ⟨hs, rfl⟩).bind fun r => ?_
  refine Ensures.pure fun s ⟨⟨hs, hne⟩, heq⟩ => ?_
  obtain ⟨o, ho⟩ := Option.ne_none_iff_exists'.mp hne
  exact ⟨hs, o, ho, by rw [← heq, ho]; rfl⟩

/-- A method of the context, called while the modules are not known to be loaded. -/
theorem onInstance_ensures {op : EStateM Thrown YangContext Unit} {Q : YangContext → Prop}
    (old : Process) (id : Option ℕ)
    (hop : ∀ v : YangContext, Ensures v.Keeps op (fun _ self => v.Keeps self ∧ Q self) v.Keeps) :
    Ensures
      (fun s => s.initialized = false ∧ old.Keeps s ∧ ∃ o, s.instance_ = some o ∧ id = some o.id)
      (onInstance op)
      (fun _ s => old.Keeps s ∧ ∃ o, s.instance_ = some o ∧ id = some o.id ∧ Q o.value)
      (fun s => s.Inv ∧ old.Keeps s) := by
  rintro s ⟨hinit, hkeep, o, ho, hid⟩
  have hkeeps : ∀ value, o.value.Keeps value →
      old.Keeps { s with instance_ := some ⟨o.id, value⟩ } :=
    fun value hv => hkeep.trans fun o' ho' => by
      cases ho.symm.trans ho'
      exact ⟨_, rfl, rfl, hv⟩
  have hrun := hop o.value o.value fun _ h => h
  rw [onInstance, ho]
  cases hx : op o.value with
  | ok a value =>
    rw [hx] at hrun
    simp only [hx]
    exact ⟨hkeeps value hrun.1, _, rfl, hid, hrun.2⟩
  | error e value =>
    rw [hx] at hrun
    simp only [hx]
    exact ⟨fun hi => absurd (hinit.symm.trans hi) (by simp), hkeeps value hrun⟩

theorem getDefaultContext_ensures (henv : env.Lawful) (old : Process) :
    Ensures (fun s => s.Inv ∧ old.Keeps s) (getDefaultContext env)
      (fun r s => (s.Inv ∧ old.Keeps s) ∧
        ∃ o, s.instance_ = some o ∧ r = some o.id ∧ o.value.FullyLoaded)
      (fun s => s.Inv ∧ old.Keeps s) := by
  refine (getContext_ensures env _ old).bind fun id => ?_
  refine (Ensures.throwIf (c := id = none) (Q := fun _ s => (s.Inv ∧ old.Keeps s) ∧
      ∃ o, s.instance_ = some o ∧ id = some o.id)
    (fun s hs _ => hs.1) fun s hs _ => hs).bind fun _ => ?_
  refine (Ensures.get (Q := fun r s => ((s.Inv ∧ old.Keeps s) ∧
      ∃ o, s.instance_ = some o ∧ id = some o.id) ∧ s = r) fun s hs => ⟨hs, rfl⟩).bind fun r => ?_
  split
  · rename_i hinit
    refine Ensures.pure fun s ⟨⟨⟨hinv, hkeep⟩, o, ho, hid⟩, heq⟩ => ⟨⟨hinv, hkeep⟩, o, ho, hid, ?_⟩
    obtain ⟨o', ho', hfull⟩ := hinv (heq ▸ hinit)
    rwa [Option.some.inj (ho.symm.trans ho')]
  · rename_i hinit
    have honce := onInstance_ensures old id (setUp_ensures henv)
    refine Ensures.bind (honce.mono (fun s ⟨⟨⟨_, hkeep⟩, ho⟩, heq⟩ =>
      ⟨by simpa [heq] using hinit, hkeep, ho⟩) (fun _ _ hs => hs) fun _ hs => hs) fun _ => ?_
    refine (Ensures.modify (Q := fun _ s => (s.Inv ∧ old.Keeps s) ∧
      ∃ o, s.instance_ = some o ∧ id = some o.id ∧ o.value.FullyLoaded)
      fun s ⟨hkeep, o, ho, hid, hfull⟩ => ?_).bind fun _ => Ensures.pure fun s hs => hs
    exact ⟨⟨fun _ => ⟨o, ho, hfull⟩, hkeep⟩, o, ho, hid, hfull⟩

/-- **One call.** -/
theorem event_inv (henv : env.Lawful) (c : Call) {s : Process} (hs : s.Inv) :
    (event env c s).after.Inv ∧ Process.Keeps s (event env c s).after ∧
      ∀ r, (event env c s).outcome = .ok r →
        ∃ o, (event env c s).after.instance_ = some o ∧ r = some o.id ∧
          (c = .getDefaultContext → o.value.FullyLoaded) := by
  have hrun : Ensures (fun s' => s'.Inv ∧ s.Keeps s') (c.run env)
      (fun r s' => (s'.Inv ∧ s.Keeps s') ∧ ∃ o, s'.instance_ = some o ∧ r = some o.id ∧
        (c = .getDefaultContext → o.value.FullyLoaded)) (fun s' => s'.Inv ∧ s.Keeps s') := by
    cases c with
    | getContext opts =>
      exact (getContext_ensures env opts s).mono (fun _ h => h)
        (fun r s' ⟨h, o, ho, hr⟩ => ⟨h, o, ho, hr, fun hc => by cases hc⟩) fun _ h => h
    | getDefaultContext =>
      exact (getDefaultContext_ensures henv s).mono (fun _ h => h)
        (fun r s' ⟨h, o, ho, hr, hf⟩ => ⟨h, o, ho, hr, fun _ => hf⟩) fun _ h => h
  have hpre : s.Inv ∧ s.Keeps s := ⟨hs, .refl s⟩
  rw [event]
  cases hx : c.run env s with
  | ok r s' =>
    obtain ⟨⟨hinv, hkeep⟩, hret⟩ := hrun.of_ok hpre hx
    exact ⟨hinv, hkeep, fun r' hr' => by cases hr'; exact hret⟩
  | error e s' =>
    obtain ⟨hinv, hkeep⟩ := hrun.of_error hpre hx
    exact ⟨hinv, hkeep, fun r' hr' => by cases hr'⟩

end Step

/-! ### Every run -/

/-- What is true of every event of a run, seen from a state before it. -/
structure Event.Sound (old : Process) (e : Event) : Prop where
  keeps : old.Keeps e.after
  returns : ∀ r, e.outcome = .ok r → ∃ o, e.after.instance_ = some o ∧ r = some o.id ∧
    (e.call = .getDefaultContext → o.value.FullyLoaded)

theorem trace_sound : ∀ {calls : List (Env × Call)} {s : Process}, s.Inv →
    (∀ c ∈ calls, c.1.Lawful) →
    (∀ e ∈ trace calls s, e.Sound s) ∧
      (trace calls s).Pairwise fun e f => f.Sound e.after := by
  intro calls
  induction calls with
  | nil => intro s _ _; exact ⟨by simp [trace], .nil⟩
  | cons c calls ih =>
    intro s hs hlaw
    obtain ⟨env, c⟩ := c
    obtain ⟨hinv, hkeep, hret⟩ := event_inv (hlaw (env, c) (by simp)) c hs
    obtain ⟨hall, hpair⟩ := ih hinv fun d hd => hlaw d (by simp [hd])
    refine ⟨fun e he => ?_, List.pairwise_cons.mpr ⟨hall, hpair⟩⟩
    rcases List.mem_cons.mp he with rfl | he
    · refine ⟨hkeep, fun r hr => ?_⟩
      obtain ⟨o, ho, hid, hfull⟩ := hret r hr
      refine ⟨o, ho, hid, fun hc => hfull ?_⟩
      rw [← hc, event]
      cases c.run env s <;> rfl
    · exact ⟨hkeep.trans (hall e he).keeps, (hall e he).returns⟩

/-- **A default context that is returned is fully loaded, whatever failed before.** In every run of
a process: once there is a context object, every later call that returns gives that object, and a
call of `getDefaultContext` that returns gives an object with every default module loaded.

Each call has answers of its own from libyang and the file system. Assumed of them is only that no
loaded module is lost and that a load which returns a module has loaded it. -/
theorem trace_sameContext_and_fullyLoaded (calls : List (Env × Call))
    (hlaw : ∀ c ∈ calls, c.1.Lawful) :
    ((trace calls {}).Pairwise fun e f => ∀ o, e.after.instance_ = some o →
      ∀ r, f.outcome = .ok r → r = some o.id) ∧
    ∀ e ∈ trace calls {}, e.call = .getDefaultContext → ∀ r, e.outcome = .ok r →
      ∃ o, e.after.instance_ = some o ∧ r = some o.id ∧ o.value.FullyLoaded := by
  obtain ⟨hall, hpair⟩ := trace_sound (s := {}) (fun h => by cases h) hlaw
  refine ⟨hpair.imp fun {e f} hf o ho r hr => ?_, fun e he hc r hr => ?_⟩
  · obtain ⟨o', ho', hid, -⟩ := hf.keeps o ho
    obtain ⟨o'', ho'', hr', -⟩ := hf.returns r hr
    cases ho'.symm.trans ho''
    rw [hr', hid]
  · obtain ⟨o, ho, hid, hfull⟩ := (hall e he).returns r hr
    exact ⟨o, ho, hid, hfull hc⟩

/-- A context that never loses a module, on a system where some modules fail to load. -/
def Env.refusing (refused : List String) : Env where
  ly_ctx_new options := (.LY_SUCCESS, some { options })
  ly_ctx_set_searchdir c path :=
    if path ∈ c.searchdirs then (.LY_EEXIST, c)
    else (.LY_SUCCESS, { c with searchdirs := c.searchdirs ++ [path] })
  ly_ctx_load_module c name rev _ :=
    if name ∈ refused then (none, c)
    else
      let m : LysModule := ⟨name, rev.getD ""⟩
      (some m, { c with modules := c.modules ++ [m] })
  exists_ _ := .ok true
  is_directory _ := .ok true

theorem Env.refusing_lawful (refused : List String) : (Env.refusing refused).Lawful where
  searchdir_keeps c path := by
    simp only [Env.refusing]
    split <;> exact List.Subset.refl _
  load_keeps c name rev features := by
    simp only [Env.refusing]
    split
    · exact List.Subset.refl _
    · exact List.subset_append_left _ _
  load_loads c name rev features m hm := by
    simp only [Env.refusing] at hm ⊢
    split at hm
    · cases hm
    · rename_i hname
      cases hm
      rw [if_neg hname]
      exact ⟨rfl, fun r hr => by rw [hr]; rfl, by simp⟩

/-- An attempt that fails at the fourth module, a call of `getContext`, and another attempt. -/
theorem trace_after_failed_load :
    let calls := [(Env.refusing ["ietf-routing"], Call.getDefaultContext),
      (Env.refusing [], Call.getContext []), (Env.refusing [], Call.getDefaultContext)]
    (trace calls {}).map Event.outcome = [.error .yangDataError, .ok (some 0), .ok (some 0)] ∧
    ((trace calls {}).Pairwise fun e f => ∀ o, e.after.instance_ = some o →
      ∀ r, f.outcome = .ok r → r = some o.id) ∧
    ∀ e ∈ trace calls {}, e.call = .getDefaultContext → ∀ r, e.outcome = .ok r →
      ∃ o, e.after.instance_ = some o ∧ r = some o.id ∧ o.value.FullyLoaded := by
  intro calls
  refine ⟨rfl, trace_sameContext_and_fullyLoaded calls fun c hc => ?_⟩
  simp only [calls, List.mem_cons, List.not_mem_nil, or_false] at hc
  rcases hc with rfl | rfl | rfl <;> exact Env.refusing_lawful _

end StelleriYang

import StelleriYang.Yang

/-!
# The options of the default context

`getDefaultContext` asks for a context without the yang-library, and gets the context the process
already has. The options are those of the first call that created one.

## Main definitions

* `Call.flags` — the flags a call asks for
* `creates` — a call whose constructor succeeds, if it is reached
* `YangContext.CreatedWith` — the flags a context was created with

## Main results

* `runCalls_createdWith` — after any calls the context is that of the first call that creates one
* `getDefaultContext_sameFlags_iff`
-/

namespace StelleriYang

open Stateful (Ensures)
open YangContext (addSearchPath loadModuleInContext)

/-- What is documented of the options: a context has those it was created with. -/
structure Env.KeepsOptions (env : Env) : Prop where
  new_options : ∀ flags c, (env.ly_ctx_new flags).2 = some c → c.options = flags
  searchdir_options : ∀ c path, (env.ly_ctx_set_searchdir c path).2.options = c.options
  load_options : ∀ c name rev features,
    (env.ly_ctx_load_module c name rev features).2.options = c.options

/-- The wrapper and the libyang context it owns were created with these flags. -/
structure YangContext.CreatedWith (flags : UInt32) (value : YangContext) : Prop where
  options_ : value.options_ = flags
  ctx_ : ∀ c, value.ctx_ = some c → c.options = flags

/-- The constructor a call runs, if there is no context yet, succeeds. -/
def creates (c : Env × Call) : Bool := (c.1.ly_ctx_new c.2.flags).1 == .LY_SUCCESS

/-- The process after a sequence of calls. -/
def runCalls (calls : List (Env × Call)) (s : Process) : Process :=
  calls.foldl (fun s c => (event c.1 c.2 s).after) s

theorem runCalls_cons (c : Env × Call) (calls : List (Env × Call)) (s : Process) :
    runCalls (c :: calls) s = runCalls calls (event c.1 c.2 s).after := rfl

section

variable {env : Env} {flags : UInt32}

theorem YangContext.new_createdWith (henv : env.KeepsOptions) {value : YangContext}
    (h : YangContext.new env flags = .ok value) : value.CreatedWith flags := by
  rw [YangContext.new] at h
  split at h
  · rename_i ctx_ hnew
    cases h
    exact ⟨rfl, fun c hc => henv.new_options flags c (by rw [hnew]; exact hc)⟩
  · cases h

theorem YangContext.new_isOk (env : Env) (flags : UInt32) :
    (∃ value, YangContext.new env flags = .ok value) ↔
      (env.ly_ctx_new flags).1 = .LY_SUCCESS := by
  rw [YangContext.new]
  constructor
  · rintro ⟨value, h⟩
    split at h
    · rename_i hnew
      rw [hnew]
    · cases h
  · intro h
    split
    · exact ⟨_, rfl⟩
    · rename_i hne
      exact (hne _ (Prod.ext h rfl)).elim

theorem setUp_createdWith (henv : env.KeepsOptions) (flags : UInt32) :
    Ensures (YangContext.CreatedWith flags) (setUp env)
      (fun _ => YangContext.CreatedWith flags) (YangContext.CreatedWith flags) := by
  refine setUp_keeps (fun p => Ensures.modify fun self h => ?_)
    (YangContext.loadModuleInContext_keeps fun self c name rev features h hc => ?_)
  · cases hc : self.ctx_ with
    | none => exact h
    | some c =>
      refine ⟨h.options_, fun c' hc' => ?_⟩
      cases hc'
      rw [henv.searchdir_options, h.ctx_ c hc]
  · refine ⟨h.options_, fun c' hc' => ?_⟩
    cases hc'
    rw [henv.load_options, h.ctx_ c hc]

/-- One call on a context. -/
theorem event_createdWith (henv : env.KeepsOptions) (c : Call) {s : Process} {o : Object}
    (ho : s.opened env c.flags = some o) (h : o.value.CreatedWith flags) :
    ∃ o', (event env c s).after.instance_ = some o' ∧ o'.value.CreatedWith flags := by
  have hevent := event_instance (setUp_createdWith henv flags) c s
  rw [ho] at hevent
  obtain ⟨value, hafter, hkeep⟩ := hevent
  exact ⟨_, hafter, hkeep h⟩

/-- One call that finds no context. -/
theorem event_of_none (henv : env.KeepsOptions) (c : Call) {s : Process} (hs : s.instance_ = none) :
    if creates (env, c) then
      ∃ o, (event env c s).after.instance_ = some o ∧ o.value.CreatedWith c.flags
    else (event env c s).after.instance_ = none := by
  cases hnew : YangContext.new env c.flags with
  | ok value =>
    have hcreates : creates (env, c) = true :=
      beq_iff_eq.mpr ((YangContext.new_isOk env c.flags).mp ⟨value, hnew⟩)
    rw [if_pos hcreates]
    exact event_createdWith henv c (Process.opened_of_ok hs hnew)
      (YangContext.new_createdWith henv hnew)
  | error e =>
    have hcreates : ¬ creates (env, c) = true := by
      intro h
      obtain ⟨value, hvalue⟩ := (YangContext.new_isOk env c.flags).mpr (beq_iff_eq.mp h)
      rw [hnew] at hvalue
      cases hvalue
    rw [if_neg hcreates]
    have hevent := event_instance (setUp_createdWith henv c.flags) c s
    rwa [Process.opened_of_error hs hnew] at hevent

end

/-- Later calls leave the flags alone. -/
theorem runCalls_keeps {flags : UInt32} : ∀ {calls : List (Env × Call)} {s : Process} {o : Object},
    (∀ c ∈ calls, c.1.KeepsOptions) → s.instance_ = some o → o.value.CreatedWith flags →
    ∃ o', (runCalls calls s).instance_ = some o' ∧ o'.value.CreatedWith flags := by
  intro calls
  induction calls with
  | nil => intro s o _ hs ho; exact ⟨o, hs, ho⟩
  | cons c calls ih =>
    intro s o hlaw hs ho
    have hopened : s.opened c.1 c.2.flags = some o := by rw [Process.opened, hs]
    obtain ⟨o', hs', ho'⟩ := event_createdWith (hlaw c (by simp)) c.2 hopened ho
    rw [runCalls_cons]
    exact ih (fun d hd => hlaw d (by simp [hd])) hs' ho'

/-- **The context is that of the first call that creates one.** -/
theorem runCalls_createdWith : ∀ {calls : List (Env × Call)} {s : Process},
    (∀ c ∈ calls, c.1.KeepsOptions) → s.instance_ = none →
    match calls.find? creates with
    | some c => ∃ o, (runCalls calls s).instance_ = some o ∧ o.value.CreatedWith c.2.flags
    | none => (runCalls calls s).instance_ = none := by
  intro calls
  induction calls with
  | nil => intro s _ hs; exact hs
  | cons c calls ih =>
    intro s hlaw hs
    have hrest : ∀ d ∈ calls, d.1.KeepsOptions := fun d hd => hlaw d (by simp [hd])
    have hevent := event_of_none (hlaw c (by simp)) c.2 hs
    by_cases hc : creates c = true
    · rw [if_pos hc] at hevent
      obtain ⟨o, ho, hflags⟩ := hevent
      rw [List.find?_cons_of_pos hc, runCalls_cons]
      exact runCalls_keeps hrest ho hflags
    · rw [if_neg hc] at hevent
      rw [List.find?_cons_of_neg hc, runCalls_cons]
      exact ih hrest hevent

theorem runCalls_inv : ∀ {calls : List (Env × Call)} {s : Process},
    (∀ c ∈ calls, c.1.Lawful) → s.Inv → (runCalls calls s).Inv := by
  intro calls
  induction calls with
  | nil => intro s _ hs; exact hs
  | cons c calls ih =>
    intro s hlaw hs
    exact ih (fun d hd => hlaw d (by simp [hd])) (event_inv (hlaw c (by simp)) c.2 hs).1

/-- The shared pointer points to a context that was created with these flags. -/
def ReturnsCreatedWith (flags : UInt32) (r : Option ℕ) (s : Process) : Prop :=
  ∃ o c, s.instance_ = some o ∧ r = some o.id ∧ o.value.ctx_ = some c ∧ c.options = flags

theorem ReturnsCreatedWith.unique {flags flags' : UInt32} {r : Option ℕ} {s : Process}
    (h : ReturnsCreatedWith flags r s) (h' : ReturnsCreatedWith flags' r s) : flags = flags' := by
  obtain ⟨o, c, ho, -, hc, rfl⟩ := h
  obtain ⟨o', c', ho', -, hc', rfl⟩ := h'
  cases ho.symm.trans ho'
  cases hc.symm.trans hc'
  rfl

/-- A call of `getDefaultContext` that returns, after any calls. -/
theorem getDefaultContext_returns {calls : List (Env × Call)} {env : Env}
    (hlaw : ∀ c ∈ calls, c.1.Lawful ∧ c.1.KeepsOptions) (henv : env.Lawful ∧ env.KeepsOptions)
    {r : Option ℕ} {s : Process} (h : getDefaultContext env (runCalls calls {}) = .ok r s) :
    ReturnsCreatedWith
      (((calls.find? creates).map fun c => c.2.flags).getD (Call.flags .getDefaultContext)) r s := by
  set s₀ := runCalls calls {} with hs₀
  have hevent : event env .getDefaultContext s₀ = ⟨.getDefaultContext, .ok r, s⟩ := by
    rw [event, Call.run, h]
  have hinv : s₀.Inv := runCalls_inv (fun c hc => (hlaw c hc).1) fun hi => by cases hi
  -- what is returned is fully loaded, so there is a libyang context
  obtain ⟨-, -, hret⟩ := event_inv henv.1 .getDefaultContext hinv
  rw [hevent] at hret
  obtain ⟨o, ho, hid, hfull⟩ := hret r rfl
  obtain ⟨c, hc, -⟩ := hfull rfl
  refine ⟨o, c, ho, hid, hc, ?_⟩
  have hrun := runCalls_createdWith (s := {}) (fun c hc => (hlaw c hc).2) rfl
  rw [← hs₀] at hrun
  cases hfind : calls.find? creates with
  | some first =>
    rw [hfind] at hrun
    obtain ⟨o₀, ho₀, hflags⟩ := hrun
    have hopened : s₀.opened env (Call.flags .getDefaultContext) = some o₀ := by
      rw [Process.opened, ho₀]
    obtain ⟨o', ho', hflags'⟩ := event_createdWith henv.2 .getDefaultContext hopened hflags
    rw [hevent] at ho'
    cases ho.symm.trans ho'
    exact hflags'.ctx_ c hc
  | none =>
    rw [hfind] at hrun
    have hnone := event_of_none henv.2 .getDefaultContext hrun
    rw [hevent] at hnone
    split at hnone
    · obtain ⟨o', ho', hflags'⟩ := hnone
      cases ho.symm.trans ho'
      exact hflags'.ctx_ c hc
    · cases ho.symm.trans hnone

theorem Env.refusing_keepsOptions (refused : List String) :
    (Env.refusing refused).KeepsOptions where
  new_options flags c h := by
    cases h
    rfl
  searchdir_options c path := by
    simp only [Env.refusing]
    split <;> rfl
  load_options c name rev features := by
    simp only [Env.refusing]
    split <;> rfl

theorem Env.refusing_laws (refused : List String) :
    (Env.refusing refused).Lawful ∧ (Env.refusing refused).KeepsOptions :=
  ⟨Env.refusing_lawful refused, Env.refusing_keepsOptions refused⟩

/-- **The default context has the flags it has in a fresh process exactly if the context that is
there was created with these flags.**

`earlier` is any run of calls, some of which may have failed, and the call after it returns. `env₀`,
`r₀` and `s₀` are of a run in which the call is the first one. Assumed of libyang is that a context
keeps its modules and the options it was created with. -/
theorem getDefaultContext_sameFlags_iff {earlier : List (Env × Call)} {env env₀ : Env}
    (hlaw : ∀ c ∈ earlier, c.1.Lawful ∧ c.1.KeepsOptions) (henv : env.Lawful ∧ env.KeepsOptions)
    (henv₀ : env₀.Lawful ∧ env₀.KeepsOptions) {r r₀ : Option ℕ} {s s₀ : Process}
    (h : getDefaultContext env (runCalls earlier {}) = .ok r s)
    (h₀ : getDefaultContext env₀ {} = .ok r₀ s₀) :
    (∃ flags, ReturnsCreatedWith flags r₀ s₀ ∧ ReturnsCreatedWith flags r s ∧
      flags = YangContextOption.NoYanglibrary.toFlags) ↔
    ∀ c, earlier.find? creates = some c → c.2.flags = YangContextOption.NoYanglibrary.toFlags := by
  have hret := getDefaultContext_returns hlaw henv h
  have hret₀ : ReturnsCreatedWith YangContextOption.NoYanglibrary.toFlags r₀ s₀ :=
    @getDefaultContext_returns [] env₀ (by simp) henv₀ r₀ s₀ h₀
  constructor
  · rintro ⟨flags, -, hflags, rfl⟩ c hc
    rw [hc] at hret
    exact hret.unique hflags
  · intro hfirst
    refine ⟨_, hret₀, ?_, rfl⟩
    cases hfind : earlier.find? creates with
    | none => rwa [hfind] at hret
    | some c =>
      rw [hfind] at hret
      rwa [← hfirst c hfind]

/-- A context without options, then the default context: it is created by the first call. -/
theorem getDefaultContext_after_getContext :
    ∃ r s r₀ s₀,
      getDefaultContext (Env.refusing [])
        (runCalls [(Env.refusing [], Call.getContext [])] {}) = .ok r s ∧
      getDefaultContext (Env.refusing []) {} = .ok r₀ s₀ ∧
      ReturnsCreatedWith 0 r s ∧
      ReturnsCreatedWith YangContextOption.NoYanglibrary.toFlags r₀ s₀ ∧
      ¬ ∃ flags, ReturnsCreatedWith flags r₀ s₀ ∧ ReturnsCreatedWith flags r s ∧
        flags = YangContextOption.NoYanglibrary.toFlags := by
  refine ⟨_, _, _, _, rfl, rfl, ⟨_, _, rfl, rfl, rfl, rfl⟩, ⟨_, _, rfl, rfl, rfl, rfl⟩, ?_⟩
  rintro ⟨flags, -, h, rfl⟩
  exact absurd (h.unique ⟨_, _, rfl, rfl, rfl, rfl⟩) (by decide : ¬ (4 : UInt32) = 0)

/-- A first call for the same options, and an attempt that fails, change nothing. -/
theorem getDefaultContext_after_noYanglibrary :
    let earlier := [(Env.refusing [], Call.getContext [.NoYanglibrary]),
      (Env.refusing ["ietf-ip"], Call.getDefaultContext)]
    ∃ r s r₀ s₀,
      getDefaultContext (Env.refusing []) (runCalls earlier {}) = .ok r s ∧
      getDefaultContext (Env.refusing []) {} = .ok r₀ s₀ ∧
      ((∃ flags, ReturnsCreatedWith flags r₀ s₀ ∧ ReturnsCreatedWith flags r s ∧
        flags = YangContextOption.NoYanglibrary.toFlags) ↔
      ∀ c, earlier.find? creates = some c →
        c.2.flags = YangContextOption.NoYanglibrary.toFlags) := by
  intro earlier
  refine ⟨_, _, _, _, rfl, rfl,
    getDefaultContext_sameFlags_iff (fun c hc => ?_) (Env.refusing_laws []) (Env.refusing_laws [])
      rfl rfl⟩
  simp only [earlier, List.mem_cons, List.not_mem_nil, or_false] at hc
  rcases hc with rfl | rfl
  · exact Env.refusing_laws []
  · exact Env.refusing_laws ["ietf-ip"]

end StelleriYang

import StelleriYang.Libyang
import StelleriYang.Lib.Stateful

/-!
# The context wrapper

`YangContext` owns a libyang context and keeps a list of search paths of its own. What libyang and
the file system answer during one call is an `Env`: the same question may be answered in another
way during the next call. libyang is handed `c_str()` of paths and names, and so gets them up to
their first NUL.

## Main definitions

* `LyCtx` — the state of a libyang context, as far as the code depends on it
* `Env`, `Env.Lawful` — the answers of the outside, and what is documented of them
* `YangContextOption`, `YangContext`
* `YangContext.new`, `YangContext.addSearchPath`, `YangContext.loadModuleInContext`

## Main results

* `YangContext.loadModuleInContext_ensures` — a module whose load does not throw is loaded, and
  nothing that was loaded is lost
-/

namespace StelleriYang

open Stateful (Ensures)

/-! ### libyang and the file system -/

/-- `struct lys_module`. -/
structure LysModule where
  name : String
  revision : String
  deriving DecidableEq, Repr

/-- `struct ly_ctx`: the options it was created with, its search directories, its modules. -/
structure LyCtx where
  options : UInt32
  searchdirs : List String := []
  modules : List LysModule := []
  deriving DecidableEq, Repr

/-- A module is there, in the given revision if one is given. -/
def LyCtx.Loaded (c : LyCtx) (name revision : String) : Prop :=
  ∃ m ∈ c.modules, m.name = name ∧ (revision ≠ "" → m.revision = revision)

/-- The answers to the queries of one call. A query of the file system may also fail. -/
structure Env where
  ly_ctx_new : UInt32 → LyErr × Option LyCtx
  ly_ctx_set_searchdir : LyCtx → String → LyErr × LyCtx
  /-- name, revision, features; the module, null if it could not be loaded -/
  ly_ctx_load_module :
    LyCtx → String → Option String → Option (List String) → Option LysModule × LyCtx
  exists_ : String → Except Thrown Bool
  is_directory : String → Except Thrown Bool

/-- What is documented: a loaded module stays loaded, and a load that returns a module has loaded
it. -/
structure Env.Lawful (env : Env) : Prop where
  searchdir_keeps : ∀ c path, c.modules ⊆ (env.ly_ctx_set_searchdir c path).2.modules
  load_keeps : ∀ c name rev features,
    c.modules ⊆ (env.ly_ctx_load_module c name rev features).2.modules
  load_loads : ∀ c name rev features m,
    (env.ly_ctx_load_module c name rev features).1 = some m →
    m.name = name ∧ (∀ r, rev = some r → m.revision = r) ∧
      m ∈ (env.ly_ctx_load_module c name rev features).2.modules

theorem LyCtx.Loaded.mono {c c' : LyCtx} {name revision : String} (h : c.Loaded name revision)
    (hsub : c.modules ⊆ c'.modules) : c'.Loaded name revision := by
  obtain ⟨m, hm, hn, hr⟩ := h
  exact ⟨m, hsub hm, hn, hr⟩

/-! ### The wrapper -/

/-- `YangContextOptions`. -/
inductive YangContextOption where
  | None | AllImplemented | RefImplemented | NoYanglibrary | DisableSearchdirs
  | DisableSearchdirCwd | PreferSearchdirs | ExplicitCompile | SetPrivParsed | CompileObsolete
  | LybHashes | LeafrefExtended | LeafrefLinking | BuiltinPluginsOnly | StaticPluginsOnly
  | EnableImpFeatures
  deriving DecidableEq, Repr

/-- `toFlags`. -/
def YangContextOption.toFlags : YangContextOption → UInt32
  | None => 0
  | AllImplemented => 0x01
  | RefImplemented => 0x02
  | NoYanglibrary => 0x04
  | DisableSearchdirs => 0x08
  | DisableSearchdirCwd => 0x10
  | PreferSearchdirs => 0x20
  | ExplicitCompile => 0x80
  | SetPrivParsed => 0x40
  | CompileObsolete => 0x0200
  | LybHashes => 0x0400
  | LeafrefExtended => 0x0800
  | LeafrefLinking => 0x1000
  | BuiltinPluginsOnly => 0x2000
  | StaticPluginsOnly => 0x4000
  | EnableImpFeatures => 0x0100

/-- `YangContext`. -/
structure YangContext where
  ctx_ : Option LyCtx := none
  search_paths_ : List String := []
  options_ : UInt32 := 0
  deriving DecidableEq, Repr

namespace YangContext

/-- The constructor from options. -/
def new (env : Env) (options : UInt32) : Except Thrown YangContext :=
  match env.ly_ctx_new options with
  | (.LY_SUCCESS, ctx_) => .ok { ctx_, options_ := options }
  | _ => .error .yangError

/-- `addSearchPath`: the result of `ly_ctx_set_searchdir` is dropped. -/
def addSearchPath (env : Env) (path : String) : EStateM Thrown YangContext Unit :=
  modify fun self =>
    match self.ctx_ with
    | none => self
    | some c => { self with
        ctx_ := some (env.ly_ctx_set_searchdir c (Text.cStr path)).2
        search_paths_ := self.search_paths_ ++ [path] }

/-- `searchPaths`. -/
def searchPaths (self : YangContext) : List String := self.search_paths_

/-- `loadModuleInContext`: an empty revision is none. libyang refuses a null context. -/
def loadModuleInContext (env : Env) (name revision : String) (features : Option (List String)) :
    EStateM Thrown YangContext LysModule := fun self =>
  let rev := if revision = "" then none else some (Text.cStr revision)
  match self.ctx_ with
  | none => .error .yangDataError self
  | some c =>
    let (mod, c') := env.ly_ctx_load_module c (Text.cStr name) rev features
    match mod with
    | none => .error .yangDataError { self with ctx_ := some c' }
    | some m => .ok m { self with ctx_ := some c' }

/-- The modules of a list are loaded. -/
def Holds (modules : List (String × String × Option (List String))) (self : YangContext) : Prop :=
  ∃ c, self.ctx_ = some c ∧ ∀ m ∈ modules, c.Loaded m.1 m.2.1

/-- What was loaded in `old` is loaded. -/
def Keeps (old self : YangContext) : Prop := ∀ modules, Holds modules old → Holds modules self

variable {env : Env} {old : YangContext}

theorem addSearchPath_ensures (henv : env.Lawful) (path : String) :
    Ensures (Keeps old) (addSearchPath env path) (fun _ => Keeps old) (Keeps old) := by
  refine Ensures.modify fun self hself modules h => ?_
  obtain ⟨c, hc, hm⟩ := hself modules h
  rw [hc]
  exact ⟨_, rfl, fun m hmem => (hm m hmem).mono (henv.searchdir_keeps c (Text.cStr path))⟩

/-- Whatever the answer, a load changes the libyang context alone. -/
theorem loadModuleInContext_keeps {P : YangContext → Prop}
    (h : ∀ self c name rev features, P self → self.ctx_ = some c →
      P { self with ctx_ := some (env.ly_ctx_load_module c name rev features).2 })
    (name revision : String) (features : Option (List String)) :
    Ensures P (loadModuleInContext env name revision features) (fun _ => P) P := by
  intro self hself
  rw [loadModuleInContext]
  cases hc : self.ctx_ with
  | none => exact hself
  | some c =>
    have hnext := h self c (Text.cStr name)
      (if revision = "" then none else some (Text.cStr revision)) features hself hc
    generalize (if revision = "" then none else some (Text.cStr revision)) = rev at hnext ⊢
    cases hmod : (env.ly_ctx_load_module c (Text.cStr name) rev features).1 with
    | none => simpa only [hmod] using hnext
    | some m => simpa only [hmod] using hnext

/-- **A load that returns has loaded its module**, and no load loses one. -/
theorem loadModuleInContext_ensures (henv : env.Lawful)
    {m : String × String × Option (List String)} (hname : Text.NulFree m.1)
    (hrevision : Text.NulFree m.2.1)
    (modules : List (String × String × Option (List String))) :
    Ensures (fun self => Keeps old self ∧ Holds modules self)
      (loadModuleInContext env m.1 m.2.1 m.2.2)
      (fun _ self => Keeps old self ∧ Holds (modules ++ [m]) self) (Keeps old) := by
  obtain ⟨name, revision, features⟩ := m
  rintro self ⟨hself, c, hc, hm⟩
  rw [loadModuleInContext, hc, hname.cStr_eq, hrevision.cStr_eq]
  generalize hrev : (if revision = "" then none else some revision) = rev
  -- whatever the answer, the context afterwards has the modules it had
  have hkeep : ∀ n r, c.Loaded n r → (env.ly_ctx_load_module c name rev features).2.Loaded n r :=
    fun n r h => h.mono (henv.load_keeps c name rev features)
  have hold :
      Keeps old { self with ctx_ := some (env.ly_ctx_load_module c name rev features).2 } := by
    intro ms h
    obtain ⟨c', hc', hms⟩ := hself ms h
    cases hc.symm.trans hc'
    exact ⟨_, rfl, fun m hmem => hkeep _ _ (hms m hmem)⟩
  cases hmod : (env.ly_ctx_load_module c name rev features).1 with
  | none =>
    simp only [hmod]
    exact hold
  | some mod =>
    simp only [hmod]
    obtain ⟨hmodName, hmodRevision, hmem⟩ := henv.load_loads _ _ _ _ _ hmod
    refine ⟨hold, _, rfl, fun m hm' => ?_⟩
    rcases List.mem_append.mp hm' with hm' | hm'
    · exact hkeep _ _ (hm m hm')
    · obtain rfl := List.mem_singleton.mp hm'
      exact ⟨mod, hmem, hmodName, fun hne => hmodRevision revision (hrev.symm.trans (if_neg hne))⟩

end YangContext

end StelleriYang

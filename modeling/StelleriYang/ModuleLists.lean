import StelleriYang.Lib.Cursor
import StelleriYang.Lib.Traverse
import StelleriYang.YangContext

/-!
# The modules of a context, listed and looked up

The text of an exception ends with the names of the modules of the context, and
`GetLoadedModuleByName` looks a module up by its name. Both go through
`ly_ctx_get_module_iter`, which moves the index by itself; the loop of `what` moves it once more.

Names are not null here, as those of libyang's modules are not. The index is a number without a
bound, and a loop takes fuel, of which the number of modules and one more is enough.

## Main definitions

* `GetModuleIter`, `GetModuleIter.Lawful` — the iteration libyang offers
* `YangDataError.what`, `YangContext.GetLoadedModuleByName`
* `ModuleListsAgree` — the names in the text are those that are found, and they are all there

## Main results

* `listedModules_eq`, `GetLoadedModuleByName_eq` — which modules the two loops visit
* `moduleListsAgree_iff`
-/

namespace StelleriYang

open Cursor (stride stride_zero stride_of_length_le_one sum_stride_lt foldUntil_yield
  foldUntil_find)

/-- `ly_ctx_get_module_iter(ctx, &idx)`: the module, null if there is none, and the index
afterwards. -/
abbrev GetModuleIter := LyCtx → ℕ → Option LysModule × ℕ

/-- What is documented: the module at the index, which is moved to the next one; null at the end. -/
def GetModuleIter.Lawful (ly_ctx_get_module_iter : GetModuleIter) : Prop :=
  ∀ c, Cursor.Reads (ly_ctx_get_module_iter c) c.modules

/-- The modules of the context a wrapper holds. -/
def YangContext.modules (self : YangContext) : List LysModule :=
  (self.ctx_.map LyCtx.modules).getD []

theorem modules_of_none {self : YangContext} (h : self.ctx_ = none) : self.modules = [] := by
  rw [YangContext.modules, h, Option.map_none, Option.getD_none]

theorem modules_of_some {self : YangContext} {raw : LyCtx} (h : self.ctx_ = some raw) :
    self.modules = raw.modules := by
  rw [YangContext.modules, h, Option.map_some, Option.getD_some]

/-! ### The text of an exception -/

/-- `struct ly_err_item`. -/
structure LyErrItem where
  msg : Option String := none
  data_path : Option String := none
  schema_path : Option String := none
  line : UInt64 := 0
  apptag : Option String := none
  deriving DecidableEq, Repr

/-- `YangDataError`. Its context is an argument of `what`: the exception only points to it. -/
structure YangDataError where
  error_ : Option LyErrItem := none
  what_buf_ : String := ""
  deriving DecidableEq, Repr

/-- A part of the text that is left out if there is nothing to say. -/
def labelled (label text close : String) : String :=
  if text = "" then "" else label ++ text ++ close

/-- The loop in `what`, whatever it writes to. -/
def appendModules {β : Type} (ly_ctx_get_module_iter : GetModuleIter) (write : β → String → β)
    (fuel : ℕ) (ss : β) (ctx_ : LyCtx) : Option β :=
  -- the module iterator has moved the index already
  Cursor.loop (ly_ctx_get_module_iter ctx_) (fun ss m => .yield (write ss m.name)) (· + 1) fuel ss 0

namespace YangDataError

/-- `getModuleName`, which is not overridden. -/
def getModuleName (_ : YangDataError) : String := ""

/-- `getError`. -/
def getError (ly_last_logmsg : String) (self : YangDataError) : String :=
  (self.error_.bind LyErrItem.msg).getD ly_last_logmsg

/-- `getDataPath`. -/
def getDataPath (self : YangDataError) : String := (self.error_.bind LyErrItem.data_path).getD ""

/-- `getSchemaPath`. -/
def getSchemaPath (self : YangDataError) : String :=
  (self.error_.bind LyErrItem.schema_path).getD ""

/-- `getLine`: the line number is cut to an `int`. -/
def getLine (self : YangDataError) : Int :=
  (self.error_.map fun item => item.line.toUInt32.toInt32.toInt).getD (-1)

/-- `getAppTag`. -/
def getAppTag (self : YangDataError) : String := (self.error_.bind LyErrItem.apptag).getD ""

/-- `getExpr`, which is not overridden. -/
def getExpr (_ : YangDataError) : String := ""

/-- What `what` writes before the modules. -/
def report (ly_last_logmsg : String) (self : YangDataError) : String :=
  labelled "[" self.getModuleName "] " ++ self.getError ly_last_logmsg ++
    labelled "\nData path: " self.getDataPath "" ++
    labelled "\nSchema path: " self.getSchemaPath "" ++
    (if self.getLine ≥ 0 then "\nLine: " ++ toString self.getLine else "") ++
    labelled "\nApp tag: " self.getAppTag "" ++ labelled "\nExpr: " self.getExpr ""

/-- One line of the list of modules. -/
def writeModule (ss name : String) : String := ss ++ "\n - " ++ name

/-- The text with these modules listed at its end. -/
def withModules (ly_last_logmsg : String) (ctx_ : YangContext) (self : YangDataError)
    (names : List String) : String :=
  match ctx_.ctx_ with
  | none => self.report ly_last_logmsg
  | some _ => names.foldl writeModule
      (self.report ly_last_logmsg ++ "\nXXX this might be problematic: Loaded modules:")

/-- `what`: the text is kept for the next call. -/
def what (ly_ctx_get_module_iter : GetModuleIter) (ly_last_logmsg : String) (fuel : ℕ)
    (ctx_ : YangContext) (self : YangDataError) : Option (String × YangDataError) :=
  if self.what_buf_ ≠ "" then some (self.what_buf_, self)
  else do
    let ss := self.report ly_last_logmsg
    let ss ← match ctx_.ctx_ with
      | none => some ss
      | some raw =>
        appendModules ly_ctx_get_module_iter writeModule fuel
          (ss ++ "\nXXX this might be problematic: Loaded modules:") raw
    some (ss, { self with what_buf_ := ss })

end YangDataError

/-- The names the loop in `what` writes. -/
def listedModules (ly_ctx_get_module_iter : GetModuleIter) (fuel : ℕ) (ctx_ : YangContext) :
    Option (List String) :=
  match ctx_.ctx_ with
  | none => some []
  | some raw =>
    appendModules ly_ctx_get_module_iter (fun names name => names ++ [name]) fuel [] raw

/-- `GetLoadedModuleByName`. -/
def YangContext.GetLoadedModuleByName (ly_ctx_get_module_iter : GetModuleIter) (fuel : ℕ)
    (self : YangContext) (name : String) : Option (Option LysModule) :=
  match self.ctx_ with
  | none => some none
  | some ctx_ =>
    Cursor.loop (ly_ctx_get_module_iter ctx_)
      (fun _ m => if m.name == name then .done (some m) else .yield none) id fuel none 0

/-! ### Which modules the loops visit -/

section Loops

variable {ly_ctx_get_module_iter : GetModuleIter} {fuel : ℕ} {ctx_ : YangContext}

theorem appendModules_eq (hiter : ly_ctx_get_module_iter.Lawful) {β : Type}
    (write : β → String → β) (ss : β) {raw : LyCtx} (hraw : ctx_.ctx_ = some raw)
    (hfuel : ctx_.modules.length < fuel) :
    appendModules ly_ctx_get_module_iter write fuel ss raw =
      some (((stride 1 ctx_.modules).map LysModule.name).foldl write ss) := by
  rw [modules_of_some hraw] at hfuel ⊢
  rw [appendModules, Cursor.loop_eq (hiter raw) _ 1 fuel ss 0 (by omega), List.drop_zero,
    foldUntil_yield, List.foldl_map]

/-- **The loop in `what` visits the first module and every second one behind it.** -/
theorem listedModules_eq (hiter : ly_ctx_get_module_iter.Lawful)
    (hfuel : ctx_.modules.length < fuel) :
    listedModules ly_ctx_get_module_iter fuel ctx_ =
      some ((stride 1 ctx_.modules).map LysModule.name) := by
  rw [listedModules]
  split
  · rename_i hnone
    rw [modules_of_none hnone, Cursor.stride_nil, List.map_nil]
  · rename_i raw hraw
    rw [appendModules_eq hiter _ [] hraw hfuel]
    exact congrArg some (Traverse.foldl_push id (fun _ _ => rfl) _ [])

/-- The text ends with the names the loop visits. -/
theorem what_eq (hiter : ly_ctx_get_module_iter.Lawful) (hfuel : ctx_.modules.length < fuel)
    (ly_last_logmsg : String) (error_ : Option LyErrItem) :
    (YangDataError.what ly_ctx_get_module_iter ly_last_logmsg fuel ctx_ { error_ }).map Prod.fst =
      some (YangDataError.withModules ly_last_logmsg ctx_ { error_ }
        ((stride 1 ctx_.modules).map LysModule.name)) := by
  rw [YangDataError.what, if_neg (not_not_intro rfl), YangDataError.withModules]
  cases hraw : ctx_.ctx_ with
  | none => rfl
  | some raw =>
    simp only [appendModules_eq hiter _ _ hraw hfuel]
    rfl

/-- **The loop in `GetLoadedModuleByName` visits every module up to the one it looks for.** -/
theorem GetLoadedModuleByName_eq (hiter : ly_ctx_get_module_iter.Lawful)
    (hfuel : ctx_.modules.length < fuel) (name : String) :
    ctx_.GetLoadedModuleByName ly_ctx_get_module_iter fuel name =
      some (ctx_.modules.find? fun m => m.name == name) := by
  rw [YangContext.GetLoadedModuleByName]
  split
  · rename_i hnone
    rw [modules_of_none hnone, List.find?_nil]
  · rename_i raw hraw
    rw [modules_of_some hraw] at hfuel ⊢
    have hloop := Cursor.loop_eq (hiter raw)
      (fun _ m => if m.name == name then .done (some m) else .yield none) 0 fuel none 0 (by omega)
    rw [List.drop_zero, stride_zero, foldUntil_find] at hloop
    exact hloop

/-! ### Agreement -/

/-- **The two loops agree**: the names `what` lists are those `GetLoadedModuleByName` finds, and
its text lists every module once, in the order of the context. -/
structure ModuleListsAgree (ly_ctx_get_module_iter : GetModuleIter) (ly_last_logmsg : String)
    (fuel : ℕ) (ctx_ : YangContext) (error_ : Option LyErrItem) : Prop where
  listed_iff_found : ∀ n,
    (∃ names, listedModules ly_ctx_get_module_iter fuel ctx_ = some names ∧ n ∈ names) ↔
      ∃ m, ctx_.GetLoadedModuleByName ly_ctx_get_module_iter fuel n = some (some m)
  all_listed :
    (YangDataError.what ly_ctx_get_module_iter ly_last_logmsg fuel ctx_ { error_ }).map Prod.fst =
      some (YangDataError.withModules ly_last_logmsg ctx_ { error_ }
        (ctx_.modules.map LysModule.name))

theorem length_foldl_writeModule (names : List String) : ∀ ss,
    (names.foldl YangDataError.writeModule ss).length =
      ss.length + (names.map fun name => 4 + name.length).sum := by
  induction names with
  | nil => intro ss; rfl
  | cons name names ih =>
    intro ss
    rw [List.foldl_cons, ih, YangDataError.writeModule, String.length_append, String.length_append,
      List.map_cons, List.sum_cons, show "\n - ".length = 4 from rfl]
    omega

/-- **The two loops agree exactly if the context holds at most one module.** The iterator of libyang
yields the modules of the context one after the other, and the fuel is enough for both loops. -/
theorem moduleListsAgree_iff (hiter : ly_ctx_get_module_iter.Lawful)
    (hfuel : ctx_.modules.length < fuel) (ly_last_logmsg : String) (error_ : Option LyErrItem) :
    ModuleListsAgree ly_ctx_get_module_iter ly_last_logmsg fuel ctx_ error_ ↔
      ctx_.modules.length ≤ 1 := by
  constructor
  · rintro ⟨-, hall⟩
    by_contra hlen
    obtain ⟨raw, hraw⟩ : ∃ raw, ctx_.ctx_ = some raw := by
      refine Option.ne_none_iff_exists'.mp fun hnone => hlen ?_
      rw [modules_of_none hnone]
      exact Nat.zero_le 1
    rw [what_eq hiter hfuel, Option.some_inj, YangDataError.withModules,
      YangDataError.withModules, hraw] at hall
    have htext := congrArg String.length hall
    simp only [length_foldl_writeModule, List.map_map] at htext
    have hskip : ((stride 1 ctx_.modules).map fun m => 4 + m.name.length).sum <
        (ctx_.modules.map fun m => 4 + m.name.length).sum :=
      sum_stride_lt (by omega) (fun m => by omega) (by omega)
    simp only [Function.comp_def] at htext
    omega
  · intro hlen
    have hstride := stride_of_length_le_one (k := 1) hlen
    refine ⟨fun n => ?_, by rw [what_eq hiter hfuel, hstride]⟩
    rw [listedModules_eq hiter hfuel, GetLoadedModuleByName_eq hiter hfuel, hstride]
    simp only [Option.some.injEq, exists_eq_left', List.mem_map]
    rw [← Option.isSome_iff_exists, List.find?_isSome]
    simp only [beq_iff_eq]

end Loops

/-- An iteration over the modules, as documented. -/
def nextModule : GetModuleIter := fun c idx =>
  match c.modules[idx]? with
  | none => (none, idx)
  | some m => (some m, idx + 1)

theorem nextModule_lawful : GetModuleIter.Lawful nextModule := by
  intro c
  refine ⟨fun i m hm => by rw [nextModule, hm], fun i hi => ?_⟩
  rw [nextModule, List.getElem?_eq_none hi]

/-- A context as it is when nothing has been loaded into it yet. -/
def internalModules : YangContext where
  ctx_ := some
    { options := 0x04
      modules := [⟨"ietf-yang-metadata", "2016-08-05"⟩, ⟨"yang", "2022-06-16"⟩,
        ⟨"ietf-inet-types", "2013-07-15"⟩, ⟨"ietf-yang-types", "2013-07-15"⟩] }
  options_ := 0x04

/-- Of four modules two are listed, and `yang`, which is found, is not among them. -/
theorem listedModules_internalModules : GetModuleIter.Lawful nextModule ∧
    listedModules nextModule 5 internalModules = some ["ietf-yang-metadata", "ietf-inet-types"] ∧
    internalModules.GetLoadedModuleByName nextModule 5 "yang" = some (some ⟨"yang", "2022-06-16"⟩) ∧
    ¬ ModuleListsAgree nextModule "" 5 internalModules (some { msg := some "Not found." }) := by
  have hlisted : listedModules nextModule 5 internalModules =
      some ["ietf-yang-metadata", "ietf-inet-types"] := by decide
  have hfound : internalModules.GetLoadedModuleByName nextModule 5 "yang" =
      some (some ⟨"yang", "2022-06-16"⟩) := by decide
  refine ⟨nextModule_lawful, hlisted, hfound, fun h => ?_⟩
  obtain ⟨names, hnames, hmem⟩ := (h.listed_iff_found "yang").mpr ⟨_, hfound⟩
  cases hlisted.symm.trans hnames
  exact absurd hmem (by decide)

/-- With a single module there is nothing to skip. -/
theorem moduleListsAgree_singleModule :
    ModuleListsAgree nextModule "" 2
      { ctx_ := some { options := 0, modules := [⟨"yang", "2022-06-16"⟩] } } none :=
  (moduleListsAgree_iff nextModule_lawful (by decide) "" none).mpr (by decide)

end StelleriYang

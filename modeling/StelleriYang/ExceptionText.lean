import StelleriYang.ContextRuns

/-!
# The text of an exception, while the process goes on

A `YangDataError` points to the context it was thrown for and to an error item of libyang, and the
text is put together when `what` is called for the first time. In the meantime both may have
changed: the modules that are listed are those of the context at the first reading and not those at
the throw, the item is read as it is by then, and the message is the last one libyang has logged, if
the item has none. From the first reading on the text stays what it is, whatever is loaded and
logged later.

## Main definitions

* `Process.shared` — the context an exception of the process points to
* `Moment`, `readings` — calls in the process and readings of the text, in any order

## Main results

* `readings_kept` — a text that is there is read again and again
* `text_settles`
-/

namespace StelleriYang

open Cursor (stride)

/-- The context the process shares, one without a libyang context if there is none. -/
def Process.shared (s : Process) : YangContext := (s.instance_.map Object.value).getD {}

/-- What happens while an exception is kept: a call in the process, or `what`, with the last message
libyang has logged and the error item as they are then. -/
inductive Moment where
  | call (env : Env) (c : ProcessCall)
  | what (ly_last_logmsg : String) (error_ : Option LyErrItem)

/-- A reading of the text. -/
def Moment.isWhat : Moment → Bool
  | .call _ _ => false
  | .what _ _ => true

/-- The texts that are read, one after the other. Of the exception itself only the text it keeps
changes. -/
def readings (ly_ctx_get_module_iter : GetModuleIter) :
    List Moment → Process → String → List (Option String)
  | [], _, _ => []
  | .call env c :: ms, s, what_buf_ => readings ly_ctx_get_module_iter ms (c.after env s) what_buf_
  | .what ly_last_logmsg error_ :: ms, s, what_buf_ =>
    match YangDataError.what ly_ctx_get_module_iter ly_last_logmsg (s.shared.modules.length + 1)
      s.shared { error_, what_buf_ } with
    | none => none :: readings ly_ctx_get_module_iter ms s what_buf_
    | some (text, e) => some text :: readings ly_ctx_get_module_iter ms s e.what_buf_

section Readings

variable {ly_ctx_get_module_iter : GetModuleIter}

/-- **A text that is there is not put together again.** -/
theorem readings_kept {what_buf_ : String} (hbuf : what_buf_ ≠ "") :
    ∀ (ms : List Moment) (s : Process), readings ly_ctx_get_module_iter ms s what_buf_ =
      List.replicate (ms.countP Moment.isWhat) (some what_buf_) := by
  intro ms
  induction ms with
  | nil => intro s; rfl
  | cons m ms ih =>
    intro s
    cases m with
    | call env c =>
      rw [readings, ih, List.countP_cons_of_neg (by simp [Moment.isWhat])]
    | what ly_last_logmsg error_ =>
      have hwhat : YangDataError.what ly_ctx_get_module_iter ly_last_logmsg
          (s.shared.modules.length + 1) s.shared { error_, what_buf_ } =
            some (what_buf_, { error_, what_buf_ }) := by rw [YangDataError.what, if_pos hbuf]
      rw [readings, hwhat, List.countP_cons_of_pos (by rfl), List.replicate_succ]
      simp only [ih]

theorem readings_calls (calls : List (Env × ProcessCall)) (ms : List Moment) (what_buf_ : String) :
    ∀ s : Process,
      readings ly_ctx_get_module_iter (calls.map (fun c => .call c.1 c.2) ++ ms) s what_buf_ =
        readings ly_ctx_get_module_iter ms (runProcess calls s) what_buf_ := by
  induction calls with
  | nil => intro s; rfl
  | cons c calls ih => intro s; exact ih (c.2.after c.1 s)

/-- The first reading: the text is returned, and kept. -/
theorem what_first (hiter : ly_ctx_get_module_iter.Lawful) {fuel : ℕ} {ctx_ : YangContext}
    (hfuel : ctx_.modules.length < fuel) (ly_last_logmsg : String) (error_ : Option LyErrItem) :
    YangDataError.what ly_ctx_get_module_iter ly_last_logmsg fuel ctx_ { error_ } =
      some (YangDataError.withModules ly_last_logmsg ctx_ { error_ }
          ((stride 1 ctx_.modules).map LysModule.name),
        { error_
          what_buf_ := YangDataError.withModules ly_last_logmsg ctx_ { error_ }
            ((stride 1 ctx_.modules).map LysModule.name) }) := by
  rw [YangDataError.what, if_neg (not_not_intro rfl), YangDataError.withModules]
  cases hraw : ctx_.ctx_ with
  | none => rfl
  | some raw =>
    simp only [appendModules_eq hiter _ _ hraw hfuel]
    rfl

/-- The text of an exception for a libyang context is not empty. -/
theorem withModules_ne_empty {ctx_ : YangContext} (h : ctx_.ctx_ ≠ none) (ly_last_logmsg : String)
    (self : YangDataError) (names : List String) :
    YangDataError.withModules ly_last_logmsg ctx_ self names ≠ "" := by
  obtain ⟨raw, hraw⟩ := Option.ne_none_iff_exists'.mp h
  intro hempty
  have hlength := congrArg String.length hempty
  rw [YangDataError.withModules, hraw] at hlength
  simp only [length_foldl_writeModule, String.length_append] at hlength
  have hheader : "\nXXX this might be problematic: Loaded modules:".length = 47 := by decide
  have hnothing : "".length = 0 := rfl
  omega

/-- **The first reading decides**: it lists modules of the context as it is then, after all that has
been loaded since the throw, with the error item as it is then, and no later reading differs from
it. Whatever is loaded, thrown or logged afterwards makes no difference; there is a context at the
first reading. -/
theorem text_settles (hiter : ly_ctx_get_module_iter.Lawful) (s : Process)
    (between : List (Env × ProcessCall)) (ly_last_logmsg : String) (error_ : Option LyErrItem)
    (later : List Moment) (hctx : (runProcess between s).shared.ctx_ ≠ none) :
    readings ly_ctx_get_module_iter
        (between.map (fun c => .call c.1 c.2) ++ .what ly_last_logmsg error_ :: later) s "" =
      List.replicate (later.countP Moment.isWhat + 1)
        (some (YangDataError.withModules ly_last_logmsg (runProcess between s).shared { error_ }
          ((stride 1 (runProcess between s).shared.modules).map LysModule.name))) := by
  rw [readings_calls, readings, what_first hiter (Nat.lt_succ_self _)]
  simp only
  rw [readings_kept (withModules_ne_empty hctx _ _ _), List.replicate_succ]

end Readings

/-- The first attempt fails at a module. The exception is read after the second, which succeeds, and
again after another module was asked for in vain. -/
theorem text_settles_retry :
    let item (name : String) : LyErrItem := { msg := some ("Loading \"" ++ name ++ "\" failed.") }
    let failed := runProcess [(Env.refusing ["ietf-routing"], .call .getDefaultContext)] {}
    failed.shared.modules.map LysModule.name = ["iana-if-type", "ietf-interfaces", "ietf-ip"] ∧
    readings nextModule [.call (Env.refusing []) (.call .getDefaultContext),
        .what "" (some (item "ietf-routing")),
        .call (Env.refusing ["vendor"]) (.loadModuleInContext "vendor" "" none),
        .what "" (some (item "vendor"))] failed "" =
      List.replicate 2 (some (YangDataError.withModules ""
        (runProcess [(Env.refusing [], .call .getDefaultContext)] failed).shared
        { error_ := some (item "ietf-routing") }
        ["iana-if-type", "ietf-ip", "ietf-interfaces", "ietf-routing", "ietf-routing-types"])) := by
  intro item failed
  have hsettles := text_settles nextModule_lawful failed
    [(Env.refusing [], .call .getDefaultContext)] "" (some (item "ietf-routing"))
    [.call (Env.refusing ["vendor"]) (.loadModuleInContext "vendor" "" none),
      .what "" (some (item "vendor"))] (by decide)
  have hmodules : (runProcess [(Env.refusing [], .call .getDefaultContext)] failed).shared.modules =
      [⟨"iana-if-type", "2023-01-26"⟩, ⟨"ietf-interfaces", "2018-02-20"⟩, ⟨"ietf-ip", "2018-02-22"⟩,
        ⟨"iana-if-type", "2023-01-26"⟩, ⟨"ietf-interfaces", "2018-02-20"⟩,
        ⟨"ietf-ip", "2018-02-22"⟩, ⟨"ietf-routing", "2018-03-13"⟩,
        ⟨"ietf-routing-policy", "2021-10-11"⟩, ⟨"ietf-routing-types", "2017-12-04"⟩] := by decide
  rw [hmodules] at hsettles
  simp only [Cursor.stride_cons, Cursor.stride_nil, List.drop_succ_cons, List.drop_zero,
    List.drop_nil, List.map_cons, List.map_nil] at hsettles
  exact ⟨by decide, hsettles⟩

end StelleriYang

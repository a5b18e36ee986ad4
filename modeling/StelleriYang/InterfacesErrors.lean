import Mathlib.Data.List.Basic
import StelleriYang.IetfInterfaces

/-!
# Errors during the serialization of interfaces

`IetfInterfaces::serialize` looks at the result of its first `lyd_new_path` call and drops the
results of all others. So an error there does not reach the caller, who gets a tree in which a
leaf is missing.

The calls are watched through a libyang that answers them from a list of result codes: its trees
are the logs of the calls made, and what a tree holds are the calls of the log that succeeded.

## Main definitions

* `scripted` — `lyd_new_path` with prescribed result codes
* `NeverSilent` — the model throws, or all calls succeeded and cover the model
* `callCount` — how many calls a model takes after the one for the root

## Main results

* `serialize_scripted` — the log of a run
* `neverSilent_iff` — errors stay silent exactly when the root is made and a later call fails
-/

namespace StelleriYang

/-- A call of `lyd_new_path` and its result. -/
structure LoggedCall where
  path : String
  value : Option String
  result : LyErr
  deriving DecidableEq, Repr

/-- The `n`-th call returns `outcomes n`. The tree is the log of the calls; without a root there
is none. -/
def scripted (outcomes : ℕ → LyErr) : NewPath (List LoggedCall)
  | none, path, value =>
    (outcomes 0, if outcomes 0 = .LY_SUCCESS then some [⟨path, value, .LY_SUCCESS⟩] else none)
  | some log, path, value =>
    (outcomes log.length, some (log ++ [⟨path, value, outcomes log.length⟩]))

/-- `serialize` throws `YangDataError`, or every call it made succeeded; then each part of the
model was written, as far as its texts reach libyang. -/
def NeverSilent (outcomes : ℕ → LyErr) (m : IetfInterfaces) : Prop :=
  m.serialize (scripted outcomes) = .error .yangDataError ∨
    ∃ log, m.serialize (scripted outcomes) = .ok (some log) ∧
      (∀ c ∈ log, c.result = .LY_SUCCESS) ∧
      log.map (fun c => (c.path, c.value)) =
        ("/ietf-interfaces:interfaces", none) ::
          (m.ifs_.flatMap interfaceCalls).map fun c => ((cCall c).1, some (cCall c).2)

/-! ### The number of calls -/

def addressCallCount (addr : String) : ℕ := if (splitAddress addr).2 = "" then 1 else 2

def ipCallCount (ip : IetfIp) : ℕ :=
  (ip.address.map addressCallCount).sum + if ip.mtu.isSome then 1 else 0

/-- One call for the name, and one for each part that is present. -/
def interfaceCallCount (it : IetfInterface) : ℕ :=
  1 + (if it.description.isSome then 1 else 0) + (if it.enabled then 0 else 1) +
    (if it.type.isSome then 1 else 0) + (it.ipv4.toList.map ipCallCount).sum +
    (it.ipv6.toList.map ipCallCount).sum

/-- The calls after the one for the root. -/
def callCount (m : IetfInterfaces) : ℕ := (m.ifs_.map interfaceCallCount).sum

theorem length_addressCalls (name family addr : String) :
    (addressCalls name family addr).length = addressCallCount addr := by
  simp only [addressCalls, addressCallCount]
  split <;> rfl

theorem length_ipCalls (name family : String) (ip : IetfIp) :
    (ipCalls name family ip).length = ipCallCount ip := by
  rw [ipCalls, ipCallCount, List.length_append, List.length_flatMap]
  simp only [length_addressCalls]
  cases ip.mtu <;> rfl

theorem length_interfaceCalls (it : IetfInterface) :
    (interfaceCalls it).length = interfaceCallCount it := by
  have hip : ∀ family (ip : Option IetfIp),
      (ip.toList.flatMap (ipCalls it.name family)).length = (ip.toList.map ipCallCount).sum := by
    intro family ip
    cases ip <;> simp [length_ipCalls]
  rw [interfaceCalls, interfaceCallCount, List.length_cons, List.length_append, List.length_append,
    List.length_append, List.length_append, hip, hip]
  cases it.description <;> cases it.enabled <;> cases it.type <;> simp <;> omega

theorem length_calls (m : IetfInterfaces) :
    (m.ifs_.flatMap interfaceCalls).length = callCount m := by
  rw [List.length_flatMap, callCount]
  simp only [length_interfaceCalls]

/-! ### A run -/

/-- The entries that calls add to a log of length `n`. -/
def logFrom (outcomes : ℕ → LyErr) (n : ℕ) (calls : List (String × String)) : List LoggedCall :=
  calls.mapIdx fun i c => ⟨(cCall c).1, some (cCall c).2, outcomes (n + i)⟩

theorem callAll_scripted (outcomes : ℕ → LyErr) : ∀ (calls : List (String × String))
    (log : List LoggedCall), callAll (scripted outcomes) (some log) calls =
      some (log ++ logFrom outcomes log.length calls) := by
  intro calls
  induction calls with
  | nil => intro log; simp [callAll, logFrom]
  | cons c calls ih =>
    intro log
    have hcons : callAll (scripted outcomes) (some log) (c :: calls) =
        callAll (scripted outcomes)
          (some (log ++ [⟨(cCall c).1, some (cCall c).2, outcomes log.length⟩])) calls := rfl
    rw [hcons, ih, logFrom, logFrom, List.mapIdx_cons, List.length_append, List.length_singleton]
    simp only [List.append_assoc, List.singleton_append, Nat.add_zero, Nat.add_assoc,
      Nat.add_comm 1]

/-- The log of a run whose root is made. -/
theorem serialize_scripted {outcomes : ℕ → LyErr} (h : outcomes 0 = .LY_SUCCESS)
    (m : IetfInterfaces) : m.serialize (scripted outcomes) =
      .ok (some (⟨"/ietf-interfaces:interfaces", none, .LY_SUCCESS⟩ ::
        logFrom outcomes 1 (m.ifs_.flatMap interfaceCalls))) := by
  have hroot : scripted outcomes none "/ietf-interfaces:interfaces" none =
      (.LY_SUCCESS, some [⟨"/ietf-interfaces:interfaces", none, .LY_SUCCESS⟩]) := by
    simp [scripted, h]
  rw [m.serialize_eq hroot, callAll_scripted]
  rfl

theorem serialize_scripted_error {outcomes : ℕ → LyErr} (h : outcomes 0 ≠ .LY_SUCCESS)
    (m : IetfInterfaces) : m.serialize (scripted outcomes) = .error .yangDataError := by
  simp [IetfInterfaces.serialize, scripted, h]

theorem forall_mem_logFrom {outcomes : ℕ → LyErr} {n : ℕ} {calls : List (String × String)} :
    (∀ c ∈ logFrom outcomes n calls, c.result = .LY_SUCCESS) ↔
      ∀ k < calls.length, outcomes (n + k) = .LY_SUCCESS := by
  simp only [logFrom, List.mem_mapIdx, forall_exists_index]
  constructor
  · intro h k hk
    exact h _ k hk rfl
  · rintro h c k hk rfl
    exact h k hk

/-- **When an error reaches the caller.** `serialize` throws or leaves nothing out exactly when the
first call fails, or none of the later ones does. `outcomes` are any result codes, in the order of
the calls, and nothing is assumed of the model. -/
theorem neverSilent_iff (outcomes : ℕ → LyErr) (m : IetfInterfaces) :
    NeverSilent outcomes m ↔
      outcomes 0 ≠ .LY_SUCCESS ∨ ∀ k < callCount m, outcomes (1 + k) = .LY_SUCCESS := by
  by_cases h0 : outcomes 0 = .LY_SUCCESS
  · have hrun := serialize_scripted h0 m
    have hmap : (logFrom outcomes 1 (m.ifs_.flatMap interfaceCalls)).map
          (fun c => (c.path, c.value)) =
        (m.ifs_.flatMap interfaceCalls).map fun c => ((cCall c).1, some (cCall c).2) := by
      rw [logFrom, List.mapIdx_eq_zipIdx_map, List.map_map]
      conv_rhs => rw [← List.zipIdx_map_fst 0 (m.ifs_.flatMap interfaceCalls), List.map_map]
      rfl
    rw [← length_calls, ← forall_mem_logFrom]
    constructor
    · rintro (h | ⟨log, h, hall, -⟩)
      · rw [hrun] at h
        cases h
      · rw [hrun] at h
        cases h
        exact Or.inr fun c hc => hall c (by simp [hc])
    · rintro (h | h)
      · exact absurd h0 h
      · refine Or.inr ⟨_, hrun, ?_, by rw [List.map_cons, hmap]⟩
        simpa using h
  · exact ⟨fun _ => Or.inl h0, fun _ => Or.inl (serialize_scripted_error h0 m)⟩

/-- The third call, the one for the type of the first interface, is turned down. -/
def typeRefused (n : ℕ) : LyErr := if n = 2 then .LY_EVALID else .LY_SUCCESS

/-- The caller gets a tree without the type. -/
theorem silent_on_type :
    ¬ NeverSilent typeRefused ⟨[{ name := "eth0", type := some .ethernetCsmacd }]⟩ := by
  have hroot : typeRefused 0 = .LY_SUCCESS := rfl
  have hrun := serialize_scripted hroot ⟨[{ name := "eth0", type := some .ethernetCsmacd }]⟩
  rintro (h | ⟨log, h, hall, -⟩)
  · rw [hrun] at h
    cases h
  · rw [hrun] at h
    cases h
    have := hall ⟨interfacePath "eth0" "type", some ("ianaift:" ++ "ethernetCsmacd"), .LY_EVALID⟩
      (by decide)
    cases this

end StelleriYang

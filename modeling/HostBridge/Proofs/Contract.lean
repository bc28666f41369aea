import HostBridge.Proofs.Evaluation

/-! # The contract of a native

A native refuses its call before any body runs, or it runs the body of its method once, on just what
it was given, and answers by how that body ended. What leaves it as an exception is always a runtime
error that keeps what went wrong.
-/
namespace HostBridge

/-! ## Failures -/

/-- What a runtime error keeps of the native call that it reports. -/
inductive NativeFailure where
  | illegalAccess (method : String)
  | targetRaised (cause : Exception)
deriving DecidableEq, Repr

namespace Exception

def failure? : Exception → Option NativeFailure
  | illegalAccess method => some (.illegalAccess method)
  | targetRaised cause => some (.targetRaised cause)
  | raised _ _ => none

structure Reports (e : Exception) (failure : NativeFailure) : Prop where
  kind : e.kind = .runtimeError
  failure : e.failure? = some failure

theorem reports_illegalAccess (method : String) :
    (illegalAccess method).Reports (.illegalAccess method) := ⟨rfl, rfl⟩

theorem reports_targetRaised (cause : Exception) :
    (targetRaised cause).Reports (.targetRaised cause) := ⟨rfl, rfl⟩

end Exception

open Exception (reports_illegalAccess reports_targetRaised)

/-- A native never hands on an exception as it is. -/
theorem HostOutcome.reports_of_answer {ended : HostOutcome} {e : Exception}
    (h : ended.answer = .raised e) : ∃ failure, e.Reports failure := by
  cases ended with
  | denied method => cases h; exact ⟨_, reports_illegalAccess method⟩
  | raised cause => cases h; exact ⟨_, reports_targetRaised cause⟩
  | returned | panicked | overflowed => cases h

/-- How a native answers when the body of its method has ended. -/
def NativeSettings.Answers (settings : NativeSettings) : Outcome → Outcome → Prop
  | .returned v, answer => answer = .returned v
  | .raised e, answer => ∃ x, answer = .raised x ∧ x.Reports (.targetRaised e)
  | .panicked p, answer =>
    if settings.catchPanics then
      ∃ x message, answer = .raised x ∧ x.Reports (.targetRaised (.raised .systemError message))
    else answer = .panicked p
  | .overflowed, answer => answer = .overflowed

theorem Method.answers_take (m : Method) (settings : NativeSettings) (ended : Outcome) :
    settings.Answers ended (m.take settings ended).answer := by
  cases ended with
  | returned v => rfl
  | raised e => exact ⟨_, rfl, reports_targetRaised e⟩
  | panicked p =>
    cases hc : settings.catchPanics with
    | true =>
      have hp : ∃ message, m.panicException p = .raised .systemError message := by
        cases p <;> exact ⟨_, rfl⟩
      obtain ⟨message, hm⟩ := hp
      have ht : m.take settings (.panicked p) = .raised (.raised .systemError message) := by
        simp [Method.take, hc, hm]
      simp only [NativeSettings.Answers, hc, if_true, ht]
      exact ⟨_, message, rfl, reports_targetRaised _⟩
    | false =>
      have ht : m.take settings (.panicked p) = .panicked p := by simp [Method.take, hc]
      simp only [NativeSettings.Answers, hc, Bool.false_eq_true, if_false, ht]
      rfl
  | overflowed => rfl

/-! ## The native of a method -/

theorem Method.isAccessible_iff {m : Method} :
    m.isAccessible = true ↔ m.visibility = .isPublic ∨ m.exempt = true := by
  simp [Method.isAccessible]

theorem World.wrap_of_isStatic {m : Method} (hs : m.isStatic = true) (settings : NativeSettings)
    (w : World) :
    w.wrap m settings =
      (.ok (Value.ofCallable (.native w.constructions.size m)),
        (w.construct (.native m settings)).2) := by
  simp [World.wrap, World.construct, hs]

/-- Constructions are only ever added, so a native keeps its settings. -/
theorem World.settings_of_prefix {w₀ w : World} {m : Method} {settings : NativeSettings}
    (hw : (w₀.construct (.native m settings)).2.constructions.toList <+: w.constructions.toList) :
    w.settings w₀.constructions.size = settings := by
  have hlen : w₀.constructions.size <
      (w₀.construct (.native m settings)).2.constructions.toList.length := by
    simp [World.construct]
  have hget := List.prefix_iff_getElem?.mp hw w₀.constructions.size hlen
  have hc : w.constructions[w₀.constructions.size]? = some (.native m settings) := by
    simpa [World.construct] using hget
  simp only [World.settings, hc]

section
variable (handle : Handle) (m : Method) (settings : NativeSettings) (args : List Value)
variable (kwargs : Keywords) (w : World)

/-- From the application of the native the machine comes to the body of its method, on just these
arguments and with the native waiting below, and from the end of the body to the answer. So this
body runs once, and no other but at its own wish. -/
def RunsOnce (ended : Outcome) (after : World) (called : Outcome × World) : Prop :=
  ∀ frames, ∃ inside,
    Point.step ⟨.apply (.native handle m) args kwargs, frames, w⟩ =
      some ([.invoked handle m args kwargs],
        ⟨(w.announce m args kwargs).start m.body args kwargs, .native settings m :: frames,
          w.announce m args kwargs⟩) ∧
    Runs ⟨(w.announce m args kwargs).start m.body args kwargs, .native settings m :: frames,
      w.announce m args kwargs⟩ inside ⟨.finish ended, .native settings m :: frames, after⟩ ∧
    Point.step ⟨.finish ended, .native settings m :: frames, after⟩ =
      some ([.ended settings m (m.take settings ended)], ⟨.finish called.1, frames, called.2⟩)

/-- What a caller of the native of a method can rely on. -/
structure Contract (limit : Nat) (called : Outcome × World) : Prop where
  /-- Out of reach: the machine comes from the application to the answer in one step. -/
  refused : m.visibility ≠ .isPublic → m.exempt = false →
    (∃ x, called.1 = .raised x ∧ x.Reports (.illegalAccess m.text) ∧
      x.message = "Illegal access to host static method " ++ m.text) ∧
    w.Undisturbed called.2 ∧
    ∀ frames, Point.step ⟨.apply (.native handle m) args kwargs, frames, w⟩ =
      some ([.invoked handle m args kwargs, .ended settings m (.denied m.text)],
        ⟨.finish called.1, frames, called.2⟩)
  ran : m.visibility = .isPublic ∨ m.exempt = true → ∃ ended after,
    runBody (Value.callWithin limit) m.body args kwargs (w.announce m args kwargs) =
      (ended, after) ∧
    settings.Answers ended called.1 ∧ after.Undisturbed called.2 ∧
    (ended ≠ .overflowed → RunsOnce handle m settings args kwargs w ended after called)
  failure : ∀ x, called.1 = .raised x → ∃ failure, x.Reports failure

end

section
variable {handle : Handle} {m : Method} {args : List Value} {kwargs : Keywords} {w : World}
variable {limit : Nat}

theorem contract_of_denied (hm : m.isAccessible = false) :
    Contract handle m (w.settings handle) args kwargs w limit
      (callNative (Value.callWithin limit) handle m args kwargs w) := by
  rw [callNative_of_denied hm]
  have hreach : ¬ (m.visibility = .isPublic ∨ m.exempt = true) := by
    rw [← Method.isAccessible_iff, hm]
    exact Bool.false_ne_true
  refine ⟨fun _ _ => ⟨?_, ?_, fun frames => ?_⟩, fun h => absurd h hreach, fun x hx => ?_⟩
  · rw [leave_answer]
    exact ⟨_, rfl, reports_illegalAccess m.text, rfl⟩
  · exact (World.Undisturbed.announce m args kwargs w).trans (.leave ..)
  · exact congrArg some (Callable.step_of_denied hm)
  · rw [leave_answer] at hx
    exact HostOutcome.reports_of_answer hx

theorem runsOnce_of_accessible {ended : Outcome} {after : World} (hm : m.isAccessible = true)
    (hr : runBody (Value.callWithin limit) m.body args kwargs (w.announce m args kwargs) =
      (ended, after)) (ho : ended ≠ .overflowed) :
    RunsOnce handle m (w.settings handle) args kwargs w ended after
      (leave (w.settings handle) m (m.take (w.settings handle) ended) after) := by
  obtain ⟨is, inside, -, hruns⟩ := runBody_follows (callWithin_follows limit) hr ho
  intro frames
  refine ⟨inside, ?_, hruns _, rfl⟩
  exact congrArg some (Callable.step_of_accessible hm)

theorem contract_of_accessible (hm : m.isAccessible = true) :
    Contract handle m (w.settings handle) args kwargs w limit
      (callNative (Value.callWithin limit) handle m args kwargs w) := by
  rcases hr : runBody (Value.callWithin limit) m.body args kwargs (w.announce m args kwargs) with
    ⟨ended, after⟩
  rw [callNative_of_accessible hm hr]
  refine ⟨fun hv he => ?_, fun _ => ⟨ended, after, hr, ?_, ?_, ?_⟩, fun x hx => ?_⟩
  · rcases Method.isAccessible_iff.mp hm with h | h
    · exact absurd h hv
    · exact absurd (h.symm.trans he) (by decide)
  · rw [leave_answer]
    exact m.answers_take (w.settings handle) ended
  · exact World.Undisturbed.leave ..
  · exact runsOnce_of_accessible hm hr
  · rw [leave_answer] at hx
    exact HostOutcome.reports_of_answer hx

end

/-- The native of any static method keeps the contract, under any settings, in every world from its
construction on, and for all arguments. -/
theorem native_keeps_contract {m : Method} (hs : m.isStatic = true) (settings : NativeSettings)
    (w₀ : World) :
    ∃ handle made,
      w₀.wrap m settings = (.ok (Value.ofCallable (.native handle m)), made) ∧
      ∀ w, made.constructions.toList <+: w.constructions.toList → ∀ limit args kwargs,
        Contract handle m settings args kwargs w limit
          ((Value.ofCallable (.native handle m)).callWithin (limit + 1) args kwargs w) := by
  refine ⟨_, _, World.wrap_of_isStatic hs settings w₀, fun w hw limit args kwargs => ?_⟩
  have hsettings := World.settings_of_prefix hw
  rw [← hsettings]
  cases hm : m.isAccessible with
  | false => exact contract_of_denied hm
  | true => exact contract_of_accessible hm

/-! A method out of public reach, but with its access checks lifted: its body counts its runs and
panics, which its native catches. -/

def ticking : Method := ⟨"demo.Host", "tick", .isPackage, true, true, 0⟩

def tickingWorld : World :=
  { World.initial with
    bodies := #[fun _ _ => .fetch 0 fun kept =>
      .keep 0 (Value.ofInt (kept.asInt.getD 0 + 1)) (.panic (.other 0))] }

theorem native_keeps_contract_ticking :
    ∃ handle made, tickingWorld.wrap ticking {} =
        (.ok (Value.ofCallable (.native handle ticking)), made) ∧
      let called := (Value.ofCallable (.native handle ticking)).callWithin 1 [] .empty made
      (∃ x message, called.1 = .raised x ∧
        x.Reports (.targetRaised (.raised .systemError message))) ∧
      called.2.memory = [(0, Value.ofInt 1)] := by
  obtain ⟨handle, made, hwrap, hcontract⟩ :=
    native_keeps_contract (m := ticking) rfl {} tickingWorld
  refine ⟨handle, made, hwrap, ?_⟩
  cases hwrap
  obtain ⟨ended, after, hr, hanswers, hsame, -⟩ :=
    (hcontract _ List.prefix_rfl 0 [] .empty).ran (Or.inr rfl)
  cases hr
  exact ⟨hanswers, hsame.memory⟩

end HostBridge

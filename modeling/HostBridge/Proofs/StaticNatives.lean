import HostBridge.Proofs.Laws

/-! # Natives wrap static methods only

No method that takes a receiver is ever wrapped: the attempt raises a type error and leaves the world
as it was. So whatever native is called in a run, its method is static, and when the call is refused
the method is named as a static one that is neither public nor exempt from access checks.
-/
namespace HostBridge

open Program (uses_andThen uses_call_finish uses_give uses_wrap)

/-- The method of a native takes no receiver. -/
def receiverless : Law True where
  holds _ v := ∀ handle m, v.payload = .callable (.native handle m) → m.isStatic = true
  grows := by
    intro made v hv more
    exact hv
  kept := by
    intro made
    constructor
    · intro p hp handle m he
      cases p <;> cases he
      cases hp
    · intro v c hc hv handle m he
      exact hv handle m (hc.trans he)
    · exact fun _ v type hv => hv
  fresh := by
    intro made c hc handle m he
    cases c with
    | native m' settings => cases he; exact hc
    | closure | object => cases he

theorem Run.isStatic_of_makes {r : Run} {n : Nat} {c : Construction} (h : r.makes n = some c) :
    c.isStatic = true := by
  obtain ⟨t, -, hc⟩ := Option.bind_eq_some_iff.mp h
  exact Control.isStatic_of_makes hc

/-! ## Refused calls -/

theorem Method.take_ne_denied (settings : NativeSettings) (m : Method) (o : Outcome) (text : String) :
    m.take settings o ≠ .denied text := by
  unfold Method.take
  cases o with
  | returned | raised | overflowed => exact nofun
  | panicked p => dsimp only; split <;> exact nofun

theorem HostOutcome.eq_denied_of_answer {how : HostOutcome} {text : String}
    (h : how.answer = .raised (.illegalAccess text)) : how = .denied text := by
  cases how <;> cases h
  rfl

/-- A call is refused only where a native of a method out of reach is applied. -/
theorem Point.step_denied {x y : Point} {history : History} (he : x.step = some (history, y))
    {settings : NativeSettings} {m : Method} {text : String}
    (hm : .ended settings m (.denied text) ∈ history) :
    ∃ handle args kwargs, x.control = .apply (.native handle m) args kwargs ∧
      m.isAccessible = false ∧ text = m.text := by
  rcases x with ⟨control, frames, w⟩
  cases control with
  | call target args kwargs =>
    simp only [Point.step, Option.some.injEq] at he
    split at he <;> cases he <;> cases hm
  | apply c args kwargs =>
    have hs : c.step frames args kwargs w = (history, y) := Option.some.inj he
    cases c with
    | native handle m' =>
      cases hreach : m'.isAccessible with
      | true =>
        rw [Callable.step_of_accessible hreach] at hs
        cases hs
        cases List.mem_singleton.mp hm
      | false =>
        rw [Callable.step_of_denied hreach] at hs
        cases hs
        rcases List.mem_pair.mp hm with hm | hm
        · cases hm
        · cases hm
          exact ⟨handle, args, kwargs, rfl, hreach, rfl⟩
    | bound | closure => cases hs; cases hm
  | perform p =>
    have hs : p.step frames w = (history, y) := Option.some.inj he
    cases p with
    | finish answer => cases answer <;> cases hs <;> cases hm
    | reset => cases hs; cases List.mem_singleton.mp hm
    | panic | call | look | count | fetch | keep | makeObject | makeBody | makeClosure | wrap =>
      cases hs; cases hm
  | finish o =>
    cases frames with
    | nil => cases he
    | cons frame rest =>
      have hs : frame.step rest w o = (history, y) := Option.some.inj he
      cases frame with
      | body next => cases o <;> cases hs <;> cases hm
      | native settings' m' =>
        -- Whatever the body of a native comes to, it is not taken for a refusal.
        cases hs
        have hd := List.mem_singleton.mp hm
        simp only [Happening.ended.injEq] at hd
        exact absurd hd.2.2.symm (m'.take_ne_denied settings' o text)

theorem Worker.step_denied {t t' : Worker} {w w' : World} {history : History}
    (he : t.step w = some (history, t', w')) {settings : NativeSettings} {m : Method}
    {text : String} (hm : .ended settings m (.denied text) ∈ history) :
    ∃ handle args kwargs, t.control = .apply (.native handle m) args kwargs ∧
      m.isAccessible = false ∧ text = m.text := by
  rcases Worker.step_cases he with ⟨hx, -⟩ | ⟨o, p, -, -, -, rfl, -⟩
  · exact Point.step_denied hx hm
  · cases hm

/-- The refused native occurs in the stage. -/
theorem Run.occurs_of_denied {r : Run} {n : Nat} {settings : NativeSettings} {m : Method}
    {text : String} (hm : .ended settings m (.denied text) ∈ r.history n) :
    ∃ handle, (r.stage n).Occurs (Value.ofCallable (.native handle m)) ∧
      m.isAccessible = false ∧ text = m.text := by
  unfold Run.history at hm
  rcases (r.stage n).turn_cases (r.schedule n) with ⟨h, -⟩ | ⟨t, t', history, w, ht, hs, h⟩
  · rw [h] at hm
    cases hm
  · rw [h] at hm
    obtain ⟨handle, args, kwargs, hc, hreach, htext⟩ := Worker.step_denied hs hm
    refine ⟨handle, .moved (List.mem_of_getElem? ht) ?_, hreach, htext⟩
    rw [hc]
    exact List.mem_cons_self

/-- How a static method is named that is neither public nor exempt. -/
theorem Method.text_of_refused {m : Method} (hstatic : m.isStatic = true)
    (hreach : m.isAccessible = false) :
    m.text = m.visibility.word ++ " static " ++ m.owner ++ "." ++ m.name ++ "(*args, **kwargs)" ∧
      m.visibility.word ∈ ["protected", "package", "private"] ∧ m.exempt = false := by
  have hout : m.visibility ≠ .isPublic ∧ m.exempt = false := by
    simpa [Method.isAccessible] using hreach
  refine ⟨?_, ?_, hout.2⟩
  · have hword : " static " = " " ++ "static " := rfl
    simp only [Method.text, Method.qualifiedName, hstatic, if_true, hword, String.append_assoc]
  · cases hv : m.visibility with
    | isPublic => exact absurd hv hout.1
    | isProtected | isPackage | isPrivate => simp [Visibility.word]

/-! ## Refused methods -/

/-- A method that takes a receiver is not wrapped: nothing is made, and whoever tried gets a type
error. -/
theorem Run.wrap_of_receiver {r : Run} {n : Nat} {t : Worker} {m : Method}
    {settings : NativeSettings} {next : Answer → Program}
    (ht : (r.stage n).workers[r.schedule n]? = some t)
    (hc : t.control = .perform (.wrap m settings next)) (hm : m.isStatic = false) :
    r.makes n = none ∧ (r.stage (n + 1)).world = (r.stage n).world ∧
      ∃ e : Exception, e.kind = .typeError ∧ (r.stage (n + 1)).workers[r.schedule n]? =
        some { t with control := .perform (next (.error e)) } := by
  rcases t with ⟨control, frames, after⟩
  cases hc
  have hstep : Worker.step ⟨.perform (.wrap m settings next), frames, after⟩ (r.stage n).world =
      some ([], ⟨.perform (next (.error (World.takesReceiver m))), frames, after⟩,
        (r.stage n).world) := by
    simp [Worker.step, Point.step, Program.step, World.wrap, hm]
  obtain ⟨hlt, -⟩ := List.getElem?_eq_some_iff.mp ht
  refine ⟨?_, ?_, World.takesReceiver m, rfl, ?_⟩
  · simp [Run.makes, ht, Control.makes, hm]
  · rw [Run.stage, Stage.turn_of_step ht hstep]
  · rw [Run.stage, Stage.turn_of_step ht hstep]
    exact List.getElem?_set_self hlt

/-- In every run of any workers, whatever they pass on, nest, convert and keep: every native that
occurs, in memory, in motion, captured by code or inside of another value, has a static method, and so
has every native that was made. An attempt to wrap any other method makes nothing and raises a type
error. So every invocation that ends with an illegal access names its method as a static one that is
neither public nor exempt. -/
theorem natives_are_static {r : Run} (hr : r.Uses True) :
    (∀ n v handle m, (r.stage n).Occurs v → v.payload = .callable (.native handle m) →
      m.isStatic = true) ∧
    (∀ n m settings, .native m settings ∈ (r.stage n).world.made → m.isStatic = true) ∧
    (∀ n t m settings next, (r.stage n).workers[r.schedule n]? = some t →
      t.control = .perform (.wrap m settings next) → m.isStatic = false →
        r.makes n = none ∧ (r.stage (n + 1)).world = (r.stage n).world ∧
          ∃ e : Exception, e.kind = .typeError ∧ (r.stage (n + 1)).workers[r.schedule n]? =
            some { t with control := .perform (next (.error e)) }) ∧
    ∀ n settings m how text, .ended settings m how ∈ r.history n →
      how.answer = .raised (.illegalAccess text) →
        text = m.visibility.word ++ " static " ++ m.owner ++ "." ++ m.name ++ "(*args, **kwargs)" ∧
          m.visibility.word ∈ ["protected", "package", "private"] ∧ m.exempt = false := by
  have hstatic : ∀ n v handle m, (r.stage n).Occurs v →
      v.payload = .callable (.native handle m) → m.isStatic = true :=
    fun n v handle m hv hp => receiverless.holds_of_occurs hr hv handle m hp
  refine ⟨hstatic, fun n m settings hm => ?_,
    fun n t m settings next ht hc hm => Run.wrap_of_receiver ht hc hm,
    fun n settings m how text hm hanswer => ?_⟩
  · rw [r.made_eq] at hm
    obtain ⟨i, -, hi⟩ := List.mem_filterMap.mp hm
    exact Run.isStatic_of_makes hi
  · obtain rfl := HostOutcome.eq_denied_of_answer hanswer
    obtain ⟨handle, hv, hreach, rfl⟩ := Run.occurs_of_denied hm
    exact Method.text_of_refused (hstatic n _ handle m hv rfl) hreach

/-! A client tries to wrap a method that takes a receiver. After the type error it wraps a private
static method instead, and calls it. -/

def receiving : Method := ⟨"demo.Host", "receive", .isPublic, false, false, 0⟩

def hidden : Method := ⟨"demo.Host", "hide", .isPrivate, false, true, 0⟩

def wrappingInstead : Answer → Program
  | .ok native => .give native
  | .error _ => .wrap hidden {} <| .andThen fun native => .call native [] .empty .finish

def refusedRun : Run :=
  Client.run (.perform (.wrap receiving {} wrappingInstead) fun _ => .done)

theorem uses_refusedRun : refusedRun.Uses True := by
  have hcall : ∀ answer : Answer,
      (wrappingInstead answer).Uses True (∅ ∪ {u | u ∈ answer.values}) := by
    intro answer
    cases answer with
    | ok native => exact uses_give (.held (.inr List.mem_cons_self))
    | error e =>
      refine uses_wrap (uses_andThen fun native => uses_call_finish fun v hv => ?_)
      exact .held (.inr hv)
  intro client hc
  cases List.mem_singleton.mp hc
  exact ⟨uses_wrap hcall, fun _ => trivial⟩

theorem natives_are_static_refused :
    (refusedRun.makes 1 = none ∧ (refusedRun.stage 2).world = (refusedRun.stage 1).world) ∧
    hidden.isStatic = true ∧ hidden.text = "private static demo.Host.hide(*args, **kwargs)" := by
  obtain ⟨hstatic, -, hwrap, hdenied⟩ := natives_are_static uses_refusedRun
  have hnative : (refusedRun.stage 3).Occurs (Value.ofCallable (.native 0 hidden)) :=
    .moved (List.mem_of_getElem? (i := 0) rfl) List.mem_cons_self
  obtain ⟨hnone, hworld, -⟩ := hwrap 1 _ receiving {} wrappingInstead rfl rfl rfl
  have htext := hdenied 5 {} hidden (.denied hidden.text) hidden.text
    (List.mem_cons_of_mem _ List.mem_cons_self) rfl
  exact ⟨⟨hnone, hworld⟩, hstatic 3 _ 0 hidden hnative rfl, htext.1⟩

end HostBridge

import HostBridge.Proofs.History

/-! # Runs step by step

The evaluator of calls gives the end of a call. The machine here passes through every point on the
way: what is done next, what waits for its outcome, and the world at that moment. It puts no limit on
the bodies in progress, so every finite beginning of a call has its points, also of a call that never
ends. Each step says what it adds to the history.
-/
namespace HostBridge

/-- What waits for an outcome: a body in the middle of a call, or a native for its method. -/
inductive Frame where
  | body (next : Answer → Program)
  | native (settings : NativeSettings) (method : Method)

inductive Control where
  | call (target : Value) (args : List Value) (kwargs : Keywords)
  | apply (c : Callable) (args : List Value) (kwargs : Keywords)
  | perform (p : Program)
  | finish (o : Outcome)

structure Point where
  control : Control
  /-- The innermost frame comes first. -/
  frames : List Frame
  world : World

/-- A body about to run; one that nobody made has nothing to do. -/
def World.start (w : World) (body : BodyId) (args : List Value) (kwargs : Keywords) : Control :=
  match w.bodies[body]? with
  | some behaviour => .perform (behaviour args kwargs)
  | none => .finish (.returned Value.none)

def Program.step (frames : List Frame) : Program → World → History × Point
  | finish (.ok v), w => ([], ⟨.finish (.returned v), frames, w⟩)
  | finish (.error e), w => ([], ⟨.finish (.raised e), frames, w⟩)
  | panic p, w => ([], ⟨.finish (.panicked p), frames, w⟩)
  | call target args kwargs next, w => ([], ⟨.call target args kwargs, .body next :: frames, w⟩)
  | look next, w => ([], ⟨.perform (next w.statistics.snapshot), frames, w⟩)
  | count method next, w => ([], ⟨.perform (next (w.statistics.methodCalls method)), frames, w⟩)
  | reset next, w => ([.cleared], ⟨.perform next, frames, w.resetStatistics⟩)
  | fetch cell next, w => ([], ⟨.perform (next (w.fetch cell)), frames, w⟩)
  | keep cell value next, w => ([], ⟨.perform next, frames, w.keep cell value⟩)
  | makeObject type next, w =>
    ([], ⟨.perform (next (w.makeObject type).1), frames, (w.makeObject type).2⟩)
  | makeBody body next, w => ([], ⟨.perform (next (w.makeBody body).1), frames, (w.makeBody body).2⟩)
  | makeClosure name body next, w =>
    ([], ⟨.perform (next (w.makeClosure name body).1), frames, (w.makeClosure name body).2⟩)
  | wrap method settings next, w =>
    ([], ⟨.perform (next (w.wrap method settings).1), frames, (w.wrap method settings).2⟩)

def Callable.step (frames : List Frame) (args : List Value) (kwargs : Keywords) (w : World) :
    Callable → History × Point
  | native handle m =>
    if m.isAccessible then
      ([.invoked handle m args kwargs],
        ⟨(w.announce m args kwargs).start m.body args kwargs,
          .native (w.settings handle) m :: frames, w.announce m args kwargs⟩)
    else
      let left := leave (w.settings handle) m (.denied m.text) (w.announce m args kwargs)
      ([.invoked handle m args kwargs, .ended (w.settings handle) m (.denied m.text)],
        ⟨.finish left.1, frames, left.2⟩)
  | bound receiver f => ([], ⟨.apply f (receiver :: args) kwargs, frames, w⟩)
  | closure _ _ body => ([], ⟨w.start body args kwargs, frames, w⟩)

section
variable {handle : Handle} {m : Method} {frames : List Frame} {args : List Value}
variable {kwargs : Keywords} {w : World}

theorem Callable.step_of_accessible (hm : m.isAccessible = true) :
    (native handle m).step frames args kwargs w =
      ([.invoked handle m args kwargs],
        ⟨(w.announce m args kwargs).start m.body args kwargs,
          .native (w.settings handle) m :: frames, w.announce m args kwargs⟩) := by
  rw [Callable.step, if_pos hm]

theorem Callable.step_of_denied (hm : m.isAccessible = false) :
    (native handle m).step frames args kwargs w =
      ([.invoked handle m args kwargs, .ended (w.settings handle) m (.denied m.text)],
        ⟨.finish (.raised (.illegalAccess m.text)), frames,
          (leave (w.settings handle) m (.denied m.text) (w.announce m args kwargs)).2⟩) := by
  rw [Callable.step, if_neg (by simp [hm])]
  rfl

end

/-- One step of what waited for an outcome. A body goes on with an answer and is left by anything
else. -/
def Frame.step (frames : List Frame) (w : World) : Frame → Outcome → History × Point
  | body next, .returned v => ([], ⟨.perform (next (.ok v)), frames, w⟩)
  | body next, .raised e => ([], ⟨.perform (next (.error e)), frames, w⟩)
  | body _, .panicked p => ([], ⟨.finish (.panicked p), frames, w⟩)
  | body _, .overflowed => ([], ⟨.finish .overflowed, frames, w⟩)
  | native settings m, o =>
    let left := leave settings m (m.take settings o) w
    ([.ended settings m (m.take settings o)], ⟨.finish left.1, frames, left.2⟩)

/-- One step and what it adds to the history. Only an outcome that nothing waits for has no next
step. -/
def Point.step : Point → Option (History × Point)
  | ⟨.call target args kwargs, frames, w⟩ => some (match target.payload with
    | .callable c => ([], ⟨.apply c args kwargs, frames, w⟩)
    | _ => ([], ⟨.finish (.raised target.notCallable), frames, w⟩))
  | ⟨.apply c args kwargs, frames, w⟩ => some (c.step frames args kwargs w)
  | ⟨.perform p, frames, w⟩ => some (p.step frames w)
  | ⟨.finish o, frame :: frames, w⟩ => some (frame.step frames w o)
  | ⟨.finish _, [], _⟩ => none

/-! ## What a step does to the statistics and the events -/

/-- A history accounts for what two worlds differ in as to statistics and events. -/
structure Tells (w : World) (history : History) (w' : World) : Prop where
  statistics : w'.statistics = history.foldl Statistics.after w.statistics
  events : w'.events.toList = w.events.toList ++ history.flatMap Happening.events

namespace Tells

theorem silent {w w' : World} (hs : w'.statistics = w.statistics) (he : w'.events = w.events) :
    Tells w [] w' := ⟨hs, by simp [he]⟩

theorem trans {u v w : World} {h k : History} (huv : Tells u h v) (hvw : Tells v k w) :
    Tells u (h ++ k) w where
  statistics := by rw [hvw.statistics, huv.statistics, List.foldl_append]
  events := by rw [hvw.events, huv.events, List.flatMap_append, List.append_assoc]

theorem announce (handle : Handle) (m : Method) (args : List Value) (kwargs : Keywords)
    (w : World) : Tells w [.invoked handle m args kwargs] (w.announce m args kwargs) :=
  ⟨rfl, by simp [Happening.events]⟩

theorem leave (settings : NativeSettings) (m : Method) (how : HostOutcome) (w : World) :
    Tells w [.ended settings m how] (leave settings m how w).2 :=
  ⟨by simp [Statistics.after], by simp [Happening.events]⟩

end Tells

theorem Program.step_tells (frames : List Frame) (p : Program) (w : World) :
    Tells w (p.step frames w).1 (p.step frames w).2.world := by
  cases p with
  | finish answer => cases answer <;> exact .silent rfl rfl
  | reset next => exact ⟨rfl, by simp [Program.step, Happening.events, World.resetStatistics]⟩
  | wrap method settings next =>
    have hw : Tells w [] (w.wrap method settings).2 := by
      unfold World.wrap
      split <;> exact .silent rfl rfl
    exact hw
  | panic | call | look | count | fetch | keep | makeObject | makeBody | makeClosure =>
    exact .silent rfl rfl

theorem Callable.step_tells (frames : List Frame) (c : Callable) (args : List Value)
    (kwargs : Keywords) (w : World) :
    Tells w (c.step frames args kwargs w).1 (c.step frames args kwargs w).2.world := by
  cases c with
  | native handle m =>
    have ha := Tells.announce handle m args kwargs w
    cases hm : m.isAccessible with
    | true => rw [step_of_accessible hm]; exact ha
    | false => rw [step_of_denied hm]; exact ha.trans (.leave ..)
  | bound | closure => exact .silent rfl rfl

theorem Frame.step_tells (frames : List Frame) (frame : Frame) (w : World) (o : Outcome) :
    Tells w (frame.step frames w o).1 (frame.step frames w o).2.world := by
  cases frame with
  | body next => cases o <;> exact .silent rfl rfl
  | native settings m => exact .leave ..

theorem Point.step_tells {x y : Point} {h : History} (he : x.step = some (h, y)) :
    Tells x.world h y.world := by
  rcases x with ⟨control, frames, w⟩
  cases control with
  | call target args kwargs =>
    simp only [Point.step, Option.some.injEq] at he
    split at he <;> cases he <;> exact .silent rfl rfl
  | apply c args kwargs =>
    simp only [Point.step, Option.some.injEq] at he
    have ht := c.step_tells frames args kwargs w
    rwa [he] at ht
  | perform p =>
    simp only [Point.step, Option.some.injEq] at he
    have ht := p.step_tells frames w
    rwa [he] at ht
  | finish o =>
    cases frames with
    | nil => cases he
    | cons frame rest =>
      simp only [Point.step, Option.some.injEq] at he
      have ht := frame.step_tells rest w o
      rwa [he] at ht

/-! ## Many steps -/

inductive Runs : Point → History → Point → Prop where
  | refl (x : Point) : Runs x [] x
  | step {x y z : Point} {h k : History} (he : x.step = some (h, y)) (hr : Runs y k z) :
    Runs x (h ++ k) z

namespace Runs

theorem trans {x y z : Point} {h k : History} (hxy : Runs x h y) (hyz : Runs y k z) :
    Runs x (h ++ k) z := by
  induction hxy with
  | refl => exact hyz
  | step he _ ih => rw [List.append_assoc]; exact .step he (ih hyz)

theorem silent {x y z : Point} {h : History} (he : x.step = some ([], y)) (hr : Runs y h z) :
    Runs x h z := .step he hr

theorem single {x y : Point} {h : History} (he : x.step = some (h, y)) : Runs x h y := by
  simpa using Runs.step he (.refl y)

theorem tells {x y : Point} {h : History} (hr : Runs x h y) : Tells x.world h y.world := by
  induction hr with
  | refl x => exact .silent rfl rfl
  | step he _ ih => exact (Point.step_tells he).trans ih

end Runs

end HostBridge

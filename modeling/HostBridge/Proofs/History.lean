import HostBridge.Proofs.Native

/-! # Histories and invocations

A history lists what a run does that the statistics and the events can tell of: natives are invoked,
their methods end, the statistics are cleared. An invocation is one native call together with the
native calls that its body makes. A history spans invocations when it is made of them, in order and
nested as they are.
-/
namespace HostBridge

inductive Happening where
  | invoked (handle : Handle) (method : Method) (args : List Value) (kwargs : Keywords)
  | ended (settings : NativeSettings) (method : Method) (how : HostOutcome)
  | cleared

abbrev History := List Happening

namespace Happening

def events : Happening → List Event
  | invoked _ m args kwargs => m.opening args kwargs
  | ended _ m how => how.report m.qualifiedName ++ m.closing
  | cleared => []

end Happening

def Statistics.after (s : Statistics) : Happening → Statistics
  | .invoked .. => s
  | .ended settings m how => s.note (m.entry settings how)
  | .cleared => s.reset

/-! ## Invocations -/

inductive Invocation where
  /-- The method was out of reach, so nothing ran. -/
  | refused (method : Method) (args : List Value) (kwargs : Keywords)
  /-- The method ended with an answer; a caught panic is one. -/
  | answered (method : Method) (args : List Value) (kwargs : Keywords) (nested : List Invocation)
      (answer : Answer)
  /-- A panic left the native uncaught. -/
  | abandoned (method : Method) (args : List Value) (kwargs : Keywords) (nested : List Invocation)
      (payload : Panic)

namespace Invocation

def method : Invocation → Method
  | refused m _ _ | answered m _ _ _ _ | abandoned m _ _ _ _ => m

def args : Invocation → List Value
  | refused _ args _ | answered _ args _ _ _ | abandoned _ args _ _ _ => args

def kwargs : Invocation → Keywords
  | refused _ _ kwargs | answered _ _ kwargs _ _ | abandoned _ _ kwargs _ _ => kwargs

def nested : Invocation → List Invocation
  | refused .. => []
  | answered _ _ _ nested _ | abandoned _ _ _ nested _ => nested

def how : Invocation → HostOutcome
  | refused m _ _ => .denied m.text
  | answered _ _ _ _ (.ok v) => .returned v
  | answered _ _ _ _ (.error cause) => .raised cause
  | abandoned _ _ _ _ p => .panicked p

def result (i : Invocation) : Outcome := i.how.answer

/-- The event that tells a result, if it is an answer: an exception is told by its message, and the
refusal of a method by the method. -/
def outcomeEvent (q : String) : Outcome → List Event
  | .returned _ => [.returned q]
  | .raised (.illegalAccess method) => [.denied method]
  | .raised e => [.raised q e.message]
  | .panicked _ | .overflowed => []

mutual

def events : Invocation → List Event
  | refused m args kwargs =>
    m.opening args kwargs ++ outcomeEvent m.qualifiedName (refused m args kwargs).result ++ m.closing
  | answered m args kwargs nested answer =>
    m.opening args kwargs ++ eventsOf nested ++
      outcomeEvent m.qualifiedName (answered m args kwargs nested answer).result ++ m.closing
  | abandoned m args kwargs nested _ => m.opening args kwargs ++ eventsOf nested ++ m.closing

def eventsOf : List Invocation → List Event
  | [] => []
  | i :: rest => i.events ++ eventsOf rest

end

theorem outcomeEvent_answer (q : String) (how : HostOutcome) :
    outcomeEvent q how.answer = how.report q := by
  cases how <;> rfl

end Invocation

/-! ## Histories made of invocations -/

open Invocation (answered eventsOf how outcomeEvent outcomeEvent_answer result)

inductive Spans : History → List Invocation → Prop where
  | nil : Spans [] []
  | cleared {history : History} {is : List Invocation} (rest : Spans history is) :
      Spans (.cleared :: history) is
  | refused {history : History} {is : List Invocation} {m : Method} (handle : Handle)
      (settings : NativeSettings) (args : List Value) (kwargs : Keywords)
      (reach : m.isAccessible = false) (rest : Spans history is) :
      Spans (.invoked handle m args kwargs :: .ended settings m (.denied m.text) :: history)
        (.refused m args kwargs :: is)
  | answered {inside history : History} {js is : List Invocation} {m : Method} (handle : Handle)
      (settings : NativeSettings) (args : List Value) (kwargs : Keywords) (answer : Answer)
      (reach : m.isAccessible = true) (inner : Spans inside js) (rest : Spans history is) :
      Spans (.invoked handle m args kwargs ::
          (inside ++ .ended settings m (answered m args kwargs js answer).how :: history))
        (.answered m args kwargs js answer :: is)
  | abandoned {inside history : History} {js is : List Invocation} {m : Method} (handle : Handle)
      (settings : NativeSettings) (args : List Value) (kwargs : Keywords) (p : Panic)
      (reach : m.isAccessible = true) (inner : Spans inside js) (rest : Spans history is) :
      Spans (.invoked handle m args kwargs :: (inside ++ .ended settings m (.panicked p) :: history))
        (.abandoned m args kwargs js p :: is)

theorem Spans.append {h k : History} {is js : List Invocation} (hi : Spans h is) (hj : Spans k js) :
    Spans (h ++ k) (is ++ js) := by
  induction hi with
  | nil => exact hj
  | cleared _ ih => exact .cleared ih
  | refused handle settings args kwargs reach _ ih =>
    exact .refused handle settings args kwargs reach ih
  | answered handle settings args kwargs answer reach inner _ _ ih =>
    rw [List.cons_append, List.append_assoc]
    exact .answered handle settings args kwargs answer reach inner ih
  | abandoned handle settings args kwargs p reach inner _ _ ih =>
    rw [List.cons_append, List.append_assoc]
    exact .abandoned handle settings args kwargs p reach inner ih

theorem Spans.events {h : History} {is : List Invocation} (hs : Spans h is) :
    h.flatMap Happening.events = eventsOf is := by
  induction hs with
  | nil => rfl
  | cleared _ ih => exact ih
  | refused handle settings args kwargs reach _ ih =>
    simp [Happening.events, eventsOf, Invocation.events, ih, outcomeEvent, result, how,
      HostOutcome.answer, HostOutcome.report]
  | answered handle settings args kwargs answer reach _ _ ihinner ih =>
    simp [Happening.events, eventsOf, Invocation.events, ih, ihinner, result, outcomeEvent_answer]
  | abandoned handle settings args kwargs p reach _ _ ihinner ih =>
    simp [Happening.events, eventsOf, Invocation.events, ih, ihinner, HostOutcome.report]

end HostBridge

import HostBridge.Call.Invoke

/-! # One call of a native

A native announces its call, runs its method, and takes its leave. What the end of a method means for
the answer, the statistics and the events is said once for each ending; nothing after this module
opens a native call.
-/
namespace HostBridge

/-! ## What the end of a method means -/

namespace HostOutcome

def answer : HostOutcome → Outcome
  | returned v => .returned v
  | denied method => .raised (.illegalAccess method)
  | raised cause => .raised (.targetRaised cause)
  | panicked p => .panicked p
  | overflowed => .overflowed

/-- How the call is counted. What passes through the native uncaught is not. -/
def ending? : HostOutcome → Option Ending
  | returned _ => some .returned
  | denied _ => some .denied
  | raised _ => some .raised
  | panicked _ | overflowed => none

def report (q : String) : HostOutcome → List Event
  | returned _ => [.returned q]
  | denied method => [.denied method]
  | raised cause => [.raised q cause.text]
  | panicked _ | overflowed => []

end HostOutcome

namespace Method

/-- The end of a body as its native takes it: with panics caught, a panic is an exception. -/
def take (m : Method) (settings : NativeSettings) : Outcome → HostOutcome
  | .returned v => .returned v
  | .raised e => .raised e
  | .panicked p => if settings.catchPanics then .raised (m.panicException p) else .panicked p
  | .overflowed => .overflowed

def entry (m : Method) (settings : NativeSettings) (ended : HostOutcome) :
    Option (String × Ending) :=
  if settings.trackStatistics then ended.ending?.map (m.qualifiedName, ·) else none

def opening (m : Method) (args : List Value) (kwargs : Keywords) : List Event :=
  [.entered m.qualifiedName, .called m.qualifiedName args.length kwargs.size]

def closing (m : Method) : List Event := [.completed m.qualifiedName, .exited]

end Method

def Statistics.note (s : Statistics) : Option (String × Ending) → Statistics
  | some entry => s.record entry.1 entry.2
  | none => s

def World.announce (w : World) (m : Method) (args : List Value) (kwargs : Keywords) : World :=
  (w.emit (.entered m.qualifiedName)).emit (.called m.qualifiedName args.length kwargs.size)

@[simp] theorem World.announce_events (w : World) (m : Method) (args : List Value)
    (kwargs : Keywords) :
    (w.announce m args kwargs).events.toList = w.events.toList ++ m.opening args kwargs := by
  simp [World.announce, World.emit, Method.opening]

/-! ## Taking leave -/

/-- What a native answers and leaves behind once its method has ended. -/
def leave (settings : NativeSettings) (m : Method) (ended : HostOutcome) (w : World) :
    Outcome × World :=
  let settled := settle settings m.qualifiedName ended w
  (settled.1, (settled.2.emit (.completed m.qualifiedName)).emit .exited)

section
variable (settings : NativeSettings) (m : Method) (ended : HostOutcome) (w : World)

@[simp] theorem leave_answer : (leave settings m ended w).1 = ended.answer := by
  cases ended <;> rfl

@[simp] theorem leave_statistics :
    (leave settings m ended w).2.statistics = w.statistics.note (m.entry settings ended) := by
  cases ended <;> cases ht : settings.trackStatistics <;>
    simp [leave, settle, World.record, World.emit, Method.entry, HostOutcome.ending?,
      Statistics.note, ht]

@[simp] theorem leave_events :
    (leave settings m ended w).2.events.toList =
      w.events.toList ++ (ended.report m.qualifiedName ++ m.closing) := by
  cases ended <;> cases ht : settings.trackStatistics <;>
    simp [leave, settle, World.record, World.emit, HostOutcome.report, Method.closing, ht]

end

/-! ## What a native leaves as it is -/

/-- Everything that bodies keep is the same: only statistics and events may differ. -/
structure World.Undisturbed (w w' : World) : Prop where
  constructions : w'.constructions = w.constructions
  bodies : w'.bodies = w.bodies
  memory : w'.memory = w.memory

namespace World.Undisturbed

theorem trans {u v w : World} (huv : u.Undisturbed v) (hvw : v.Undisturbed w) :
    u.Undisturbed w where
  constructions := hvw.constructions.trans huv.constructions
  bodies := hvw.bodies.trans huv.bodies
  memory := hvw.memory.trans huv.memory

theorem announce (m : Method) (args : List Value) (kwargs : Keywords) (w : World) :
    w.Undisturbed (w.announce m args kwargs) := ⟨rfl, rfl, rfl⟩

theorem record (settings : NativeSettings) (q : String) (ending : Ending) (w : World) :
    w.Undisturbed (w.record settings q ending) := by
  unfold World.record
  split <;> exact ⟨rfl, rfl, rfl⟩

theorem emit (e : Event) (w : World) : w.Undisturbed (w.emit e) := ⟨rfl, rfl, rfl⟩

theorem settle (settings : NativeSettings) (q : String) (ended : HostOutcome) (w : World) :
    w.Undisturbed (settle settings q ended w).2 := by
  cases ended with
  | returned | denied | raised => exact (record ..).trans (emit ..)
  | panicked | overflowed => exact ⟨rfl, rfl, rfl⟩

theorem leave (settings : NativeSettings) (m : Method) (ended : HostOutcome) (w : World) :
    w.Undisturbed (leave settings m ended w).2 :=
  (settle ..).trans ((emit ..).trans (emit ..))

end World.Undisturbed

/-! ## The call itself -/

section
variable {call : Caller} {m : Method} {args : List Value} {kwargs : Keywords}

/-- Whether panics are caught shows only in what the native takes the end of its body for. -/
theorem callNative_of_accessible {handle : Handle} {w after : World} {ended : Outcome}
    (hm : m.isAccessible = true)
    (hr : runBody call m.body args kwargs (w.announce m args kwargs) = (ended, after)) :
    callNative call handle m args kwargs w =
      leave (w.settings handle) m (m.take (w.settings handle) ended) after := by
  unfold World.announce at hr
  unfold callNative Method.callCatching Method.call
  simp only [if_pos hm, hr]
  cases hc : (w.settings handle).catchPanics <;> cases ended <;> simp [leave, Method.take, hc]

theorem callNative_of_denied {handle : Handle} {w : World} (hm : m.isAccessible = false) :
    callNative call handle m args kwargs w =
      leave (w.settings handle) m (.denied m.text) (w.announce m args kwargs) := by
  unfold callNative Method.callCatching Method.call
  cases hc : (w.settings handle).catchPanics <;> simp [leave, World.announce, hm]

end

end HostBridge

import HostBridge.Call.World

/-! # Calls

Calling a value: a bound method puts its receiver in front of the arguments, a closure runs its
body, and a native runs the body of its method inside a span. Whatever comes of it is counted,
reported, and handed on as a value or an exception of the runtime. Bodies in progress are limited in
number; a call beyond the limit overflows, which nothing catches.
-/
namespace HostBridge

inductive Outcome where
  | returned (v : Value)
  | raised (e : Exception)
  | panicked (p : Panic)
  | overflowed

inductive HostOutcome where
  | returned (v : Value)
  | denied (method : String)
  | raised (cause : Exception)
  | panicked (p : Panic)
  | overflowed

/-- The text of a failure, which is not yet an exception of the dynamic runtime. -/
def HostOutcome.failureText : HostOutcome → Option String
  | denied method => some ("cannot access " ++ method)
  | raised cause => some ("invocation target raised " ++ cause.text)
  | returned _ | panicked _ | overflowed => none

abbrev Caller := Value → List Value → Keywords → World → Outcome × World

def Program.perform (call : Caller) : Program → World → Outcome × World
  | finish (.ok v), w => (.returned v, w)
  | finish (.error e), w => (.raised e, w)
  | panic p, w => (.panicked p, w)
  | .call target args kwargs next, w =>
    match call target args kwargs w with
    | (.returned v, w) => (next (.ok v)).perform call w
    | (.raised e, w) => (next (.error e)).perform call w
    | (.panicked p, w) => (.panicked p, w)
    | (.overflowed, w) => (.overflowed, w)
  | look next, w => (next w.statistics.snapshot).perform call w
  | count method next, w => (next (w.statistics.methodCalls method)).perform call w
  | reset next, w => next.perform call w.resetStatistics
  | fetch cell next, w => (next (w.fetch cell)).perform call w
  | keep cell value next, w => next.perform call (w.keep cell value)
  | makeObject type next, w =>
    match w.makeObject type with
    | (v, w) => (next v).perform call w
  | makeBody body next, w =>
    match w.makeBody body with
    | (id, w) => (next id).perform call w
  | makeClosure name body next, w =>
    match w.makeClosure name body with
    | (v, w) => (next v).perform call w
  | wrap method settings next, w =>
    match w.wrap method settings with
    | (answer, w) => (next answer).perform call w

/-- Runs a body on arguments. A body that nobody made does nothing. -/
def runBody (call : Caller) (body : BodyId) (args : List Value) (kwargs : Keywords) (w : World) :
    Outcome × World :=
  match w.bodies[body]? with
  | some behaviour => (behaviour args kwargs).perform call w
  | none => (.returned Value.none, w)

namespace Method

def panicException (m : Method) : Panic → Exception
  | .text message => .raised .systemError message
  | .other _ => .raised .systemError (m.qualifiedName ++ " panicked")

def call (m : Method) (caller : Caller) (args : List Value) (kwargs : Keywords) (w : World) :
    HostOutcome × World :=
  if m.isAccessible then
    match runBody caller m.body args kwargs w with
    | (.returned v, w) => (.returned v, w)
    | (.raised e, w) => (.raised e, w)
    | (.panicked p, w) => (.panicked p, w)
    | (.overflowed, w) => (.overflowed, w)
  else (.denied m.text, w)

def callCatching (m : Method) (caller : Caller) (args : List Value) (kwargs : Keywords)
    (w : World) : HostOutcome × World :=
  match m.call caller args kwargs w with
  | (.panicked p, w) => (.raised (m.panicException p), w)
  | other => other

end Method

/-- What a native does once its method has ended: count, report, and answer. A panic or an overflow
that leaves the method leaves the native as well, uncounted and unreported. -/
def settle (settings : NativeSettings) (q : String) : HostOutcome → World → Outcome × World
  | .returned v, w => (.returned v, (w.record settings q .returned).emit (.returned q))
  | .denied method, w =>
    (.raised (.illegalAccess method), (w.record settings q .denied).emit (.denied method))
  | .raised cause, w =>
    (.raised (.targetRaised cause), (w.record settings q .raised).emit (.raised q cause.text))
  | .panicked p, w => (.panicked p, w)
  | .overflowed, w => (.overflowed, w)

/-- Calls a native. Whatever happens inside, the operation is reported and the span closed. -/
def callNative (caller : Caller) (handle : Handle) (m : Method) (args : List Value)
    (kwargs : Keywords) (w : World) : Outcome × World :=
  let q := m.qualifiedName
  let settings := w.settings handle
  let opened := (w.emit (.entered q)).emit (.called q args.length kwargs.size)
  let ended :=
    if settings.catchPanics then m.callCatching caller args kwargs opened
    else m.call caller args kwargs opened
  let settled := settle settings q ended.1 ended.2
  (settled.1, (settled.2.emit (.completed q)).emit .exited)

def Callable.apply (caller : Caller) (c : Callable) (args : List Value) (kwargs : Keywords)
    (w : World) : Outcome × World :=
  match c with
  | .native handle method => callNative caller handle method args kwargs w
  | .bound receiver function => function.apply caller (receiver :: args) kwargs w
  | .closure _ _ body => runBody caller body args kwargs w
termination_by structural c

namespace Value

def notCallable (v : Value) : Exception :=
  .typeError ("'" ++ v.typeName ++ "' object is not callable")

/-- Calls a value with at most that many bodies in progress. -/
def callWithin : Nat → Caller
  | 0, _, _, _, w => (.overflowed, w)
  | limit + 1, v, args, kwargs, w =>
    match v.payload with
    | .callable c => c.apply (callWithin limit) args kwargs w
    | _ => (.raised v.notCallable, w)

def bodyLimit : Nat := 1000000

def call : Caller := callWithin bodyLimit

end Value

def callTimes (v : Value) (args : List Value) (kwargs : Keywords) : Nat → World →
    List Outcome × World
  | 0, w => ([], w)
  | n + 1, w =>
    match v.call args kwargs w with
    | (outcome, w) =>
      match callTimes v args kwargs n w with
      | (outcomes, w) => (outcome :: outcomes, w)

end HostBridge

import HostBridge.Call.Event
import HostBridge.Call.Program

/-! # The world of a run

Everything that outlives a call: the statistics, what was constructed under which handle, the
bodies, the values that bodies keep, and the events so far. A handle is a position among the
constructions, so a new one differs from all before it.
-/
namespace HostBridge

inductive Construction where
  | native (method : Method) (settings : NativeSettings)
  | closure (name : String) (body : BodyId)
  | object (type : HostType)
deriving DecidableEq, Repr

structure World where
  statistics : Statistics
  constructions : Array Construction
  bodies : Array Behaviour
  memory : List (Cell × Value)
  events : Array Event

namespace World

def initial : World := ⟨.zero, #[], #[], [], #[]⟩

def emit (w : World) (e : Event) : World := { w with events := w.events.push e }

def settings (w : World) (handle : Handle) : NativeSettings :=
  match w.constructions[handle]? with
  | some (.native _ settings) => settings
  | _ => {}

def record (w : World) (settings : NativeSettings) (method : String) (ending : Ending) : World :=
  if settings.trackStatistics then { w with statistics := w.statistics.record method ending } else w

def resetStatistics (w : World) : World := { w with statistics := w.statistics.reset }

def fetch (w : World) (cell : Cell) : Value := (w.memory.lookup cell).getD Value.none

def keep (w : World) (cell : Cell) (value : Value) : World :=
  { w with memory := (cell, value) :: w.memory.filter fun kept => kept.1 != cell }

def construct (w : World) (c : Construction) : Handle × World :=
  (w.constructions.size, { w with constructions := w.constructions.push c })

def makeBody (w : World) (b : Behaviour) : BodyId × World :=
  (w.bodies.size, { w with bodies := w.bodies.push b })

def makeObject (w : World) (type : HostType) : Value × World :=
  let (handle, w) := w.construct (.object type)
  (Value.ofObject handle type, w)

def makeClosure (w : World) (name : String) (body : BodyId) : Value × World :=
  let (handle, w) := w.construct (.closure name body)
  (Value.ofCallable (.closure handle name body), w)

def nativeDebug (m : Method) (settings : NativeSettings) : String :=
  Text.record "StaticNativeCallable" [⟨"method", m.debug⟩, ⟨"config", settings.debug⟩]

def takesReceiver (m : Method) : Exception :=
  .typeError ("cannot wrap " ++ m.text ++ " as a static native callable: method takes a receiver")

def wrap (w : World) (m : Method) (settings : NativeSettings) : Answer × World :=
  if m.isStatic then
    let (handle, w) := w.construct (.native m settings)
    (.ok (Value.ofCallable (.native handle m)), w)
  else (.error (takesReceiver m), w)

end World

end HostBridge

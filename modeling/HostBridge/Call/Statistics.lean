/-! # Call statistics

How often natives were called and how the calls ended. Several threads share the counters, so every
operation is a list of atomic updates or loads of single counters; only single updates are
indivisible. Counters are 64 bits wide and wrap.
-/
namespace HostBridge

inductive Ending where
  | returned
  | denied
  | raised
deriving DecidableEq, Repr

structure Statistics where
  calls : UInt64
  denied : UInt64
  raised : UInt64
  /-- Calls by qualified name, in the order of the first call. -/
  byMethod : List (String × UInt64)
deriving DecidableEq, Repr

structure Snapshot where
  calls : UInt64
  denied : UInt64
  raised : UInt64
deriving DecidableEq, Repr

/-- One more for a name; a name that is not there yet starts at zero. -/
def bump (name : String) : List (String × UInt64) → List (String × UInt64)
  | [] => [(name, 1)]
  | entry :: rest =>
    if name = entry.1 then (entry.1, entry.2 + 1) :: rest else entry :: bump name rest

def tally (name : String) : List (String × UInt64) → UInt64
  | [] => 0
  | entry :: rest => if name = entry.1 then entry.2 else tally name rest

theorem tally_bump (name other : String) (counts : List (String × UInt64)) :
    tally other (bump name counts) = tally other counts + if other = name then 1 else 0 := by
  induction counts with
  | nil => by_cases h : other = name <;> simp [bump, tally, h]
  | cons entry rest ih =>
    by_cases hn : name = entry.1
    · by_cases ho : other = name
      · simp [bump, tally, hn, ho]
      · simp [bump, tally, hn, hn ▸ ho]
    · by_cases ho : other = entry.1
      · have hne : entry.1 ≠ name := fun h => hn h.symm
        simp [bump, tally, hn, ho, hne]
      · simp [bump, tally, hn, ho, ih]

/-- The updates that other threads can see one by one. -/
inductive Update where
  | countCall
  | countDenied
  | countRaised
  | countMethod (name : String)
  | clearCalls
  | clearDenied
  | clearRaised
  | clearMethods
deriving DecidableEq, Repr

inductive Counter where
  | calls
  | denied
  | raised
deriving DecidableEq, Repr

namespace Statistics

def zero : Statistics := ⟨0, 0, 0, []⟩

def apply (s : Statistics) : Update → Statistics
  | .countCall => { s with calls := s.calls + 1 }
  | .countDenied => { s with denied := s.denied + 1 }
  | .countRaised => { s with raised := s.raised + 1 }
  | .countMethod name => { s with byMethod := bump name s.byMethod }
  | .clearCalls => { s with calls := 0 }
  | .clearDenied => { s with denied := 0 }
  | .clearRaised => { s with raised := 0 }
  | .clearMethods => { s with byMethod := [] }

def load (s : Statistics) : Counter → UInt64
  | .calls => s.calls
  | .denied => s.denied
  | .raised => s.raised

/-- The updates that record one call, in order: the call itself comes before how it ended. -/
def recording (method : String) (ending : Ending) : List Update :=
  .countCall :: (match ending with
    | .returned => []
    | .denied => [.countDenied]
    | .raised => [.countRaised]) ++ [.countMethod method]

def resetting : List Update := [.clearCalls, .clearDenied, .clearRaised, .clearMethods]

def loading : List Counter := [.calls, .denied, .raised]

def applyAll (s : Statistics) (updates : List Update) : Statistics := updates.foldl apply s

def record (s : Statistics) (method : String) (ending : Ending) : Statistics :=
  s.applyAll (recording method ending)

def reset (s : Statistics) : Statistics := s.applyAll resetting

def ofLoads : List UInt64 → Snapshot
  | calls :: denied :: raised :: _ => ⟨calls, denied, raised⟩
  | _ => ⟨0, 0, 0⟩

def snapshot (s : Statistics) : Snapshot := ofLoads (loading.map s.load)

def methodCalls (s : Statistics) (name : String) : UInt64 := tally name s.byMethod

end Statistics

end HostBridge

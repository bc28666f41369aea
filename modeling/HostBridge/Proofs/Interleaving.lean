import HostBridge.Call.Statistics

/-! # Threads that share the statistics

Several threads record calls, clear the counters and look at them, all at the same time. Only a single
update or load is indivisible, and all threads see these steps in one order: a schedule says whose turn
it is. Whatever the schedule, what the threads have done and what they still have to do is together
what they had to do from the start.
-/
namespace HostBridge

/-- One indivisible step on the shared counters. -/
inductive Action where
  | update (u : Update)
  | load (c : Counter)
deriving DecidableEq, Repr

namespace Action

def apply (a : Action) (s : Statistics) : Statistics :=
  match a with
  | update u => s.apply u
  | load _ => s

def loaded (a : Action) (s : Statistics) : List UInt64 :=
  match a with
  | update _ => []
  | load c => [s.load c]

end Action

inductive Operation where
  | record (method : String) (ending : Ending)
  | reset
  | observe
deriving DecidableEq, Repr

def Operation.actions : Operation → List Action
  | record method ending => (Statistics.recording method ending).map .update
  | reset => Statistics.resetting.map .update
  | observe => Statistics.loading.map .load

structure Thread where
  /-- What is left of the operation in progress. -/
  actions : List Action
  /-- What this operation has loaded so far. -/
  loads : List UInt64
  /-- The operations to come. -/
  operations : List Operation
deriving DecidableEq, Repr

namespace Thread

/-- A thread begins an operation, or does the next step of the one in progress. -/
def step (s : Statistics) : Thread → List Action × Thread
  | ⟨[], _, op :: ops⟩ => ([], ⟨op.actions, [], ops⟩)
  | ⟨a :: rest, loads, ops⟩ => ([a], ⟨rest, loads ++ a.loaded s, ops⟩)
  | ⟨[], loads, []⟩ => ([], ⟨[], loads, []⟩)

def remaining (t : Thread) : List Action := t.actions ++ t.operations.flatMap Operation.actions

def IsDone (t : Thread) : Prop := t.actions = [] ∧ t.operations = []

instance (t : Thread) : Decidable t.IsDone := inferInstanceAs (Decidable (_ ∧ _))

/-- The snapshot that an observation has just returned. -/
def answer? (t : Thread) : Option Snapshot :=
  match t.actions, t.loads with
  | [], _ :: _ => some (Statistics.ofLoads t.loads)
  | _, _ => none

end Thread

structure System where
  statistics : Statistics
  threads : List Thread
deriving DecidableEq, Repr

namespace System

/-- Threads that are about to do these operations. -/
def start (s : Statistics) (programs : List (List Operation)) : System :=
  ⟨s, programs.map fun ops => ⟨[], [], ops⟩⟩

/-- One turn of a thread, and what it did to the counters. A thread that is done, or that does not
exist, lets its turn pass. -/
def step (s : System) (i : Nat) : List Action × System :=
  match s.threads[i]? with
  | none => ([], s)
  | some t =>
    let moved := t.step s.statistics
    (moved.1, ⟨moved.1.foldl (fun s a => a.apply s) s.statistics, s.threads.set i moved.2⟩)

def follow (s : System) : List Nat → List Action × System
  | [] => ([], s)
  | i :: schedule =>
    let rest := (s.step i).2.follow schedule
    ((s.step i).1 ++ rest.1, rest.2)

def remaining (s : System) : List Action := s.threads.flatMap Thread.remaining

/-! ## What one turn can do -/

theorem step_cases (s : System) (i : Nat) :
    s.step i = ([], s) ∨
    (∃ loads op ops, s.threads[i]? = some ⟨[], loads, op :: ops⟩ ∧
      s.step i = ([], ⟨s.statistics, s.threads.set i ⟨op.actions, [], ops⟩⟩)) ∨
    ∃ a rest loads ops, s.threads[i]? = some ⟨a :: rest, loads, ops⟩ ∧
      s.step i = ([a], ⟨a.apply s.statistics,
        s.threads.set i ⟨rest, loads ++ a.loaded s.statistics, ops⟩⟩) := by
  unfold step
  cases ht : s.threads[i]? with
  | none => exact .inl rfl
  | some t =>
    obtain ⟨actions, loads, operations⟩ := t
    cases actions with
    | cons a rest => exact .inr (.inr ⟨a, rest, loads, operations, rfl, rfl⟩)
    | nil =>
      cases operations with
      | cons op ops => exact .inr (.inl ⟨loads, op, ops, rfl, rfl⟩)
      | nil =>
        left
        obtain ⟨hi, hget⟩ := List.getElem?_eq_some_iff.mp ht
        have hset : s.threads.set i ⟨[], loads, []⟩ = s.threads := by
          rw [← hget, List.set_getElem_self]
        simp only [Thread.step, List.foldl_nil, hset]

/-- A turn moves the thread whose turn it is, and no other. -/
theorem step_getElem? (s : System) (i j : Nat) :
    (s.step j).2.threads[i]? =
      if i = j then s.threads[i]?.map fun t => (t.step s.statistics).2 else s.threads[i]? := by
  unfold step
  by_cases hij : i = j
  · subst hij
    cases ht : s.threads[i]? with
    | none => simp [ht]
    | some t => simp [(List.getElem?_eq_some_iff.mp ht).1]
  · cases s.threads[j]? with
    | none => simp [hij]
    | some t => simp [hij, List.getElem?_set_ne (Ne.symm hij)]

theorem mem_step {s : System} {i : Nat} {a : Action} (h : a ∈ (s.step i).1) : (s.step i).1 = [a] := by
  rcases s.step_cases i with he | ⟨loads, op, ops, -, he⟩ | ⟨b, rest, loads, ops, -, he⟩
  · simp [he] at h
  · simp [he] at h
  · obtain rfl : a = b := by simpa [he] using h
    rw [he]

end System

/-! ## Nothing is lost and nothing is added -/

section
variable {α β : Type} {f : α → List β} {l : List α} {i : Nat} {a b : α}

theorem perm_flatMap_set {done : List β} (ha : l[i]? = some a) (hf : f a = done ++ f b) :
    (done ++ (l.set i b).flatMap f).Perm (l.flatMap f) := by
  induction l generalizing i with
  | nil => simp at ha
  | cons x rest ih =>
    cases i with
    | zero =>
      obtain rfl : x = a := by simpa using ha
      simp [hf]
    | succ i =>
      have hrest : (done ++ (rest.set i b).flatMap f).Perm (rest.flatMap f) := ih (by simpa using ha)
      have hswap : (done ++ (f x ++ (rest.set i b).flatMap f)).Perm
          (f x ++ (done ++ (rest.set i b).flatMap f)) := by
        rw [← List.append_assoc, ← List.append_assoc]
        exact List.perm_append_comm.append_right _
      rw [List.set_cons_succ, List.flatMap_cons, List.flatMap_cons]
      exact hswap.trans (hrest.append_left _)

end

namespace System

theorem step_remaining (s : System) (i : Nat) :
    ((s.step i).1 ++ (s.step i).2.remaining).Perm s.remaining := by
  rcases s.step_cases i with he | ⟨loads, op, ops, ht, he⟩ | ⟨a, rest, loads, ops, ht, he⟩
  · rw [he]; exact .refl _
  · rw [he]
    exact perm_flatMap_set ht (by simp [Thread.remaining])
  · rw [he]
    exact perm_flatMap_set ht (by simp [Thread.remaining])

theorem follow_remaining (s : System) (schedule : List Nat) :
    ((s.follow schedule).1 ++ (s.follow schedule).2.remaining).Perm s.remaining := by
  induction schedule generalizing s with
  | nil => exact .refl _
  | cons i schedule ih =>
    rw [follow, List.append_assoc]
    exact ((ih _).append_left _).trans (s.step_remaining i)

theorem step_statistics (s : System) (i : Nat) :
    (s.step i).2.statistics = (s.step i).1.foldl (fun s a => a.apply s) s.statistics := by
  rcases s.step_cases i with he | ⟨loads, op, ops, ht, he⟩ | ⟨a, rest, loads, ops, ht, he⟩ <;>
    rw [he] <;> rfl

theorem follow_statistics (s : System) (schedule : List Nat) :
    (s.follow schedule).2.statistics =
      (s.follow schedule).1.foldl (fun s a => a.apply s) s.statistics := by
  induction schedule generalizing s with
  | nil => rfl
  | cons i schedule ih => rw [follow, List.foldl_append, ← step_statistics, ih]

theorem remaining_of_done {s : System} (h : ∀ t ∈ s.threads, t.IsDone) : s.remaining = [] := by
  apply List.flatMap_eq_nil_iff.mpr
  intro t ht
  obtain ⟨ha, ho⟩ := h t ht
  simp [Thread.remaining, ha, ho]

theorem remaining_start (s : Statistics) (programs : List (List Operation)) :
    (start s programs).remaining = programs.flatten.flatMap Operation.actions := by
  induction programs with
  | nil => rfl
  | cons ops rest ih =>
    rw [List.flatten_cons, List.flatMap_append, ← ih]
    rfl

theorem follow_append (s : System) (earlier later : List Nat) :
    s.follow (earlier ++ later) =
      ((s.follow earlier).1 ++ ((s.follow earlier).2.follow later).1,
        ((s.follow earlier).2.follow later).2) := by
  induction earlier generalizing s with
  | nil => rfl
  | cons i earlier ih => simp only [List.cons_append, follow, ih, List.append_assoc]

end System

/-! ## What a step does to one counter -/

namespace Counter

def counting : Counter → Update
  | calls => .countCall
  | denied => .countDenied
  | raised => .countRaised

def clearing : Counter → Update
  | calls => .clearCalls
  | denied => .clearDenied
  | raised => .clearRaised

variable (c : Counter) (s : Statistics)

theorem load_apply (a : Action) :
    (a.apply s).load c =
      if a = .update c.clearing then 0
      else if a = .update c.counting then s.load c + 1 else s.load c := by
  cases a with
  | load d => simp [Action.apply]
  | update u => cases u <;> cases c <;> rfl

end Counter

/-! ## Operations keep their order -/

def Action.isLoad : Action → Bool
  | load _ => true
  | update _ => false

/-- What a thread has left is the end of an operation, and it keeps what it loaded before. -/
def Thread.InOrder (t : Thread) : Prop :=
  ∃ op done, Operation.actions op = done ++ t.actions ∧ t.loads.length = done.countP Action.isLoad

namespace Thread

theorem inOrder_waiting (ops : List Operation) : InOrder ⟨[], [], ops⟩ :=
  ⟨.reset, Operation.reset.actions, rfl, rfl⟩

theorem inOrder_begin (op : Operation) (ops : List Operation) : InOrder ⟨op.actions, [], ops⟩ :=
  ⟨op, [], rfl, rfl⟩

theorem InOrder.act {a : Action} {rest : List Action} {loads : List UInt64} {ops : List Operation}
    (h : InOrder ⟨a :: rest, loads, ops⟩) (s : Statistics) :
    InOrder ⟨rest, loads ++ a.loaded s, ops⟩ := by
  obtain ⟨op, done, hop, hloads⟩ := h
  refine ⟨op, done ++ [a], by simpa using hop, ?_⟩
  rw [List.length_append, hloads, List.countP_append]
  cases a <;> rfl

end Thread

def System.InOrder (s : System) : Prop := ∀ t ∈ s.threads, t.InOrder

namespace System

theorem inOrder_start (s : Statistics) (programs : List (List Operation)) :
    (start s programs).InOrder := by
  intro t ht
  obtain ⟨ops, -, rfl⟩ := List.mem_map.mp ht
  exact Thread.inOrder_waiting ops

theorem InOrder.step {s : System} (h : s.InOrder) (i : Nat) : (s.step i).2.InOrder := by
  rcases s.step_cases i with he | ⟨loads, op, ops, -, he⟩ | ⟨a, rest, loads, ops, ht, he⟩
  · rw [he]; exact h
  · rw [he]
    intro t ht
    rcases List.mem_or_eq_of_mem_set ht with ht | rfl
    · exact h t ht
    · exact Thread.inOrder_begin op ops
  · rw [he]
    intro t ht'
    rcases List.mem_or_eq_of_mem_set ht' with ht' | rfl
    · exact h t ht'
    · exact (h _ (List.mem_of_getElem? ht)).act s.statistics

theorem InOrder.follow {s : System} (h : s.InOrder) (schedule : List Nat) :
    (s.follow schedule).2.InOrder := by
  induction schedule generalizing s with
  | nil => exact h
  | cons i schedule ih => exact ih (h.step i)

end System

end HostBridge

import HostBridge.Proofs.Inertness
import Mathlib.Data.List.Range
import Mathlib.Order.Monotone.Basic

/-! # Runs of several workers

A run starts in the empty world. Each of its workers is a thread that conducts a client, step by step,
and a schedule says whose turn it is; a worker that has nothing left to do lets its turn pass. What the
workers share is the world: one that another starts finds in memory what that one left for it.
-/
namespace HostBridge

structure Worker where
  control : Control
  frames : List Frame
  next : Outcome → Client

namespace Worker

def start (client : Client) : Worker := ⟨.finish (.returned Value.none), [], fun _ => client⟩

/-- After the end of a program the client chooses the next one. -/
def resume (t : Worker) : Option Worker :=
  match t.control with
  | .finish o =>
    match t.next o with
    | .perform p next => some ⟨.perform p, [], next⟩
    | .done => none
  | _ => none

def step (t : Worker) (w : World) : Option (History × Worker × World) :=
  match Point.step ⟨t.control, t.frames, w⟩ with
  | some (history, x) => some (history, ⟨x.control, x.frames, t.next⟩, x.world)
  | none => t.resume.map fun t => ([], t, w)

theorem step_cases {t t' : Worker} {w w' : World} {history : History}
    (h : t.step w = some (history, t', w')) :
    Point.step ⟨t.control, t.frames, w⟩ = some (history, ⟨t'.control, t'.frames, w'⟩) ∧
        t'.next = t.next ∨
      ∃ o p, t.control = .finish o ∧ t.next o = .perform p t'.next ∧
        t' = ⟨.perform p, [], t'.next⟩ ∧ history = [] ∧ w' = w := by
  unfold step at h
  split at h
  · rename_i k x hx
    cases h
    exact .inl ⟨hx, rfl⟩
  · rcases t with ⟨control, frames, next⟩
    obtain ⟨u, hu, he⟩ := Option.map_eq_some_iff.mp h
    cases he
    cases control with
    | finish o =>
      cases hc : next o with
      | done => simp [resume, hc] at hu
      | perform p rest =>
        simp only [resume, hc, Option.some.injEq] at hu
        subst hu
        exact .inr ⟨o, p, rfl, hc, rfl, rfl, rfl⟩
    | call | apply | perform => cases hu

end Worker

structure Stage where
  workers : List Worker
  world : World

/-- The turn of one worker, and what it adds to the history. -/
def Stage.turn (x : Stage) (i : Nat) : History × Stage :=
  match x.workers[i]?.bind (·.step x.world) with
  | some (history, t, w) => (history, ⟨x.workers.set i t, w⟩)
  | none => ([], x)

structure Run where
  clients : List Client
  schedule : Nat → Nat

namespace Run

def stage (r : Run) : Nat → Stage
  | 0 => ⟨r.clients.map Worker.start, World.initial⟩
  | n + 1 => ((r.stage n).turn (r.schedule n)).2

/-- What a step tells. -/
def history (r : Run) (n : Nat) : History := ((r.stage n).turn (r.schedule n)).1

end Run

theorem Stage.turn_of_step {x : Stage} {i : Nat} {t t' : Worker} {history : History} {w : World}
    (ht : x.workers[i]? = some t) (hs : t.step x.world = some (history, t', w)) :
    x.turn i = (history, ⟨x.workers.set i t', w⟩) := by
  simp [turn, ht, hs]

/-- A turn leaves the stage as it is, or it takes one worker a step on. -/
theorem Stage.turn_cases (x : Stage) (i : Nat) :
    (x.turn i = ([], x) ∧ ∀ t, x.workers[i]? = some t → t.step x.world = none) ∨
      ∃ t t' history w, x.workers[i]? = some t ∧ t.step x.world = some (history, t', w) ∧
        x.turn i = (history, ⟨x.workers.set i t', w⟩) := by
  cases ht : x.workers[i]? with
  | none => exact .inl ⟨by simp [turn, ht], nofun⟩
  | some t =>
    cases hs : t.step x.world with
    | none =>
      refine .inl ⟨by simp [turn, ht, hs], fun u hu => ?_⟩
      cases hu
      exact hs
    | some after =>
      obtain ⟨history, t', w⟩ := after
      exact .inr ⟨t, t', history, w, rfl, hs, turn_of_step ht hs⟩

/-! ## What a run constructs -/

def World.made (w : World) : List Construction := w.constructions.toList

/-- What the next step constructs. A method that takes a receiver is not wrapped. -/
def Control.makes : Control → Option Construction
  | perform (.makeObject type _) => some (.object type)
  | perform (.makeClosure name body _) => some (.closure name body)
  | perform (.wrap m settings _) => if m.isStatic then some (.native m settings) else none
  | _ => none

theorem World.made_construct (w : World) (c : Construction) :
    (w.construct c).2.made = w.made ++ [c] := by
  simp [World.made, World.construct]

theorem World.Undisturbed.made {w w' : World} (h : w.Undisturbed w') : w'.made = w.made :=
  congrArg Array.toList h.constructions

theorem Program.step_made (frames : List Frame) (p : Program) (w : World) :
    (p.step frames w).2.world.made = w.made ++ (Control.perform p).makes.toList := by
  cases p with
  | finish answer => cases answer <;> exact (List.append_nil _).symm
  | makeObject | makeClosure => exact w.made_construct _
  | wrap m settings next =>
    simp only [Program.step, World.wrap, Control.makes]
    split
    · exact w.made_construct _
    · exact (List.append_nil _).symm
  | panic | call | look | count | reset | fetch | keep | makeBody => exact (List.append_nil _).symm

theorem Callable.step_made (frames : List Frame) (c : Callable) (args : List Value)
    (kwargs : Keywords) (w : World) : (c.step frames args kwargs w).2.world.made = w.made := by
  cases c with
  | native handle m =>
    have hw := World.Undisturbed.announce m args kwargs w
    cases hm : m.isAccessible with
    | true => rw [step_of_accessible hm]; exact hw.made
    | false => rw [step_of_denied hm]; exact (hw.trans (.leave ..)).made
  | bound | closure => rfl

theorem Frame.step_made (frames : List Frame) (frame : Frame) (w : World) (o : Outcome) :
    (frame.step frames w o).2.world.made = w.made := by
  cases frame with
  | body next => cases o <;> rfl
  | native settings m => exact (World.Undisturbed.leave ..).made

theorem Point.step_made {x y : Point} {history : History} (he : x.step = some (history, y)) :
    y.world.made = x.world.made ++ x.control.makes.toList := by
  rcases x with ⟨control, frames, w⟩
  cases control with
  | call target args kwargs =>
    simp only [Point.step, Option.some.injEq] at he
    split at he <;> cases he <;> exact (List.append_nil _).symm
  | apply c args kwargs =>
    have hw := c.step_made frames args kwargs w
    rw [Option.some.inj he] at hw
    exact hw.trans (List.append_nil _).symm
  | perform p =>
    have hw := p.step_made frames w
    rwa [Option.some.inj he] at hw
  | finish o =>
    cases frames with
    | nil => cases he
    | cons frame rest =>
      have hw := frame.step_made rest w o
      rw [Option.some.inj he] at hw
      exact hw.trans (List.append_nil _).symm

theorem Worker.step_made {t t' : Worker} {w w' : World} {history : History}
    (h : t.step w = some (history, t', w')) : w'.made = w.made ++ t.control.makes.toList := by
  rcases Worker.step_cases h with ⟨hx, -⟩ | ⟨o, p, hc, -, -, -, rfl⟩
  · exact Point.step_made hx
  · rw [hc]
    exact (List.append_nil _).symm

theorem Worker.makes_of_step_none {t : Worker} {w : World} (h : t.step w = none) :
    t.control.makes = none := by
  rcases t with ⟨control, frames, next⟩
  cases control with
  | perform p => cases h
  | call | apply | finish => rfl

theorem getElem?_append_toList {α : Type} {xs : List α} {last : Option α} {i : Nat} {x : α} :
    (xs ++ last.toList)[i]? = some x ↔ xs[i]? = some x ∨ last = some x ∧ xs.length = i := by
  cases last with
  | none => simp
  | some y =>
    rcases Nat.lt_trichotomy i xs.length with h | rfl | h
    · rw [List.getElem?_append_left h]
      simp [Nat.ne_of_gt h]
    · simp
    · rw [List.getElem?_eq_none (by simp; omega), List.getElem?_eq_none (Nat.le_of_lt h)]
      simp [Nat.ne_of_lt h]

namespace Run
variable (r : Run)

/-- What the step constructs. -/
def makes (n : Nat) : Option Construction :=
  (r.stage n).workers[r.schedule n]?.bind (·.control.makes)

theorem made_succ (n : Nat) :
    (r.stage (n + 1)).world.made = (r.stage n).world.made ++ (r.makes n).toList := by
  rw [stage]
  rcases (r.stage n).turn_cases (r.schedule n) with ⟨h, hidle⟩ | ⟨t, t', history, w, ht, hs, h⟩
  · have hnone : r.makes n = none :=
      Option.bind_eq_none_iff.mpr fun t ht => Worker.makes_of_step_none (hidle t ht)
    rw [h, hnone]
    exact (List.append_nil _).symm
  · have hmakes : r.makes n = t.control.makes := by rw [makes, ht, Option.bind_some]
    rw [h, hmakes]
    exact Worker.step_made hs

/-- The constructions are those of the steps so far, in order. -/
theorem made_eq (n : Nat) : (r.stage n).world.made = (List.range n).filterMap r.makes := by
  induction n with
  | zero => rfl
  | succ n ih =>
    rw [made_succ, ih, List.range_succ, List.filterMap_append]
    cases hc : r.makes n <;> simp [hc]

/-- The handle that a step gives to what it constructs. -/
def handle (n : Nat) : Handle := (r.stage n).world.constructions.size

theorem handle_eq (n : Nat) : r.handle n = (r.stage n).world.made.length :=
  Array.length_toList.symm

theorem getElem?_made {n : Nat} {handle : Handle} {c : Construction} :
    (r.stage n).world.made[handle]? = some c ↔
      ∃ i < n, r.makes i = some c ∧ r.handle i = handle := by
  induction n with
  | zero =>
    constructor
    · intro h
      cases h
    · rintro ⟨i, hi, -⟩
      cases hi
  | succ n ih =>
    rw [made_succ, getElem?_append_toList, ih, Nat.exists_lt_succ_right, handle_eq]

theorem handle_le {i j : Nat} (h : i ≤ j) : r.handle i ≤ r.handle j := by
  have hmono : Monotone r.handle := by
    refine monotone_nat_of_le_succ fun n => ?_
    rw [handle_eq, handle_eq, made_succ, List.length_append]
    exact Nat.le_add_right _ _
  exact hmono h

theorem handle_lt {i j : Nat} {c : Construction} (h : i < j) (hc : r.makes i = some c) :
    r.handle i < r.handle j := by
  have hsucc : r.handle (i + 1) = r.handle i + 1 := by
    rw [handle_eq, handle_eq, made_succ, hc]
    simp
  have hle := r.handle_le (Nat.succ_le_of_lt h)
  rw [hsucc] at hle
  exact hle

/-- No two steps give the same handle. -/
theorem handle_injective {i j : Nat} {c d : Construction} (hi : r.makes i = some c)
    (hj : r.makes j = some d) (h : r.handle i = r.handle j) : i = j := by
  rcases Nat.lt_trichotomy i j with hlt | heq | hlt
  · exact absurd h (Nat.ne_of_lt (r.handle_lt hlt hi))
  · exact heq
  · exact absurd h.symm (Nat.ne_of_lt (r.handle_lt hlt hj))

end Run

/-! ## Runs of the evaluator -/

/-- The run of a single worker. -/
def Client.run (client : Client) : Run := ⟨[client], fun _ => 0⟩

theorem Client.run_of_runs {client : Client} {x y : Point} {history : History}
    {next : Outcome → Client} {n : Nat} (hr : Runs x history y)
    (hx : client.run.stage n = ⟨[⟨x.control, x.frames, next⟩], x.world⟩) :
    ∃ k, client.run.stage k = ⟨[⟨y.control, y.frames, next⟩], y.world⟩ := by
  induction hr generalizing n with
  | refl => exact ⟨n, hx⟩
  | @step x y z h k he _ ih =>
    refine ih (n := n + 1) ?_
    rw [Run.stage, hx]
    simp [Stage.turn, Client.run, Worker.step, he]

theorem Client.run_of_conduct {client rest : Client} {limit n : Nat} {o : Outcome} {w : World}
    {next : Outcome → Client} (hrest : next o = rest)
    (hn : client.run.stage n = ⟨[⟨.finish o, [], next⟩], w⟩)
    (ho : .overflowed ∉ (rest.conduct (Value.callWithin limit) w).1) :
    (∀ ended ∈ (rest.conduct (Value.callWithin limit) w).1,
      ∃ k t, (client.run.stage k).workers = [t] ∧ t.control = .finish ended) ∧
    ∃ k, (client.run.stage k).world = (rest.conduct (Value.callWithin limit) w).2 := by
  -- By the programs that are left: the machine comes to the end of the first, where the client resumes.
  induction rest generalizing n o w next with
  | done => exact ⟨nofun, n, by rw [hn]; rfl⟩
  | perform p choose ih =>
    rcases he : p.perform (Value.callWithin limit) w with ⟨ended, v⟩
    simp only [conduct, he, List.mem_cons, not_or] at ho ⊢
    have hnext : client.run.stage (n + 1) = ⟨[⟨.perform p, [], choose⟩], w⟩ := by
      rw [Run.stage, hn]
      simp [Stage.turn, Client.run, Worker.step, Point.step, Worker.resume, hrest]
    obtain ⟨is, history, -, hr⟩ := perform_follows (callWithin_follows limit) p he (Ne.symm ho.1)
    obtain ⟨k, hk⟩ := run_of_runs (hr []) hnext
    obtain ⟨hothers, hlast⟩ := ih ended rfl hk ho.2
    refine ⟨fun o' ho' => ?_, hlast⟩
    rcases ho' with rfl | ho'
    · exact ⟨k, _, by rw [hk], rfl⟩
    · exact hothers o' ho'

/-- Whatever the evaluator makes of a client's programs without an overflow, the run of a single
worker comes to all of their outcomes, and to the world that they leave. -/
theorem Client.run_reaches_conduct (client : Client) {limit : Nat}
    (ho : .overflowed ∉ (client.conduct (Value.callWithin limit) .initial).1) :
    (∀ ended ∈ (client.conduct (Value.callWithin limit) .initial).1,
      ∃ k t, (client.run.stage k).workers = [t] ∧ t.control = .finish ended) ∧
    ∃ k, (client.run.stage k).world = (client.conduct (Value.callWithin limit) .initial).2 := by
  have hstart : client.run.stage 0 =
      ⟨[⟨.finish (.returned Value.none), [], fun _ => client⟩], .initial⟩ := rfl
  exact run_of_conduct rfl hstart ho

end HostBridge

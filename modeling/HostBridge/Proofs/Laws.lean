import HostBridge.Proofs.Possession
import HostBridge.Proofs.Workers

/-! # Laws of the values of a run

A law is a property of single values that may refer to what the run has constructed so far. If code
cannot break it and the runtime keeps it with all that it makes, then it holds of every value that
occurs anywhere in the run, also deep inside other values and in what waiting code has captured.
-/
namespace HostBridge

open Value (Derived Kept)

/-! ## What occurs in a stage -/

def Control.values : Control → List Value
  | call target args kwargs => target :: given args kwargs
  | apply c args kwargs => Value.ofCallable c :: given args kwargs
  | perform p => p.offered
  | finish o => o.values

mutual

/-- The values that occur in a stage: those in motion and in memory, what code that is there can hand
over once it gets values that occur, and all parts of these. -/
inductive Stage.Occurs (x : Stage) : Value → Prop
  | moved {t : Worker} {v : Value} (ht : t ∈ x.workers) (hv : v ∈ t.control.values) : x.Occurs v
  | kept {e : Cell × Value} (he : e ∈ x.world.memory) : x.Occurs e.2
  | captured {p : Program} {v : Value} (hp : x.Ready p) (hv : v ∈ p.offered) : x.Occurs v
  | part {u v : Value} (hv : x.Occurs v) (hu : u.Within v) : x.Occurs u

/-- The programs that code of the stage comes to with values that occur: of bodies under way, of those
that wait in a call, and of those that can be called. -/
inductive Stage.Ready (x : Stage) : Program → Prop
  | underWay {t : Worker} {p : Program} (ht : t ∈ x.workers) (hp : t.control = .perform p) : x.Ready p
  | waiting {t : Worker} {next : Answer → Program} {answer : Answer} (ht : t ∈ x.workers)
      (hf : .body next ∈ t.frames) (ha : ∀ v ∈ answer.values, x.Occurs v) : x.Ready (next answer)
  | callable {b : Behaviour} {args : List Value} {kwargs : Keywords} (hb : b ∈ x.world.bodies)
      (hg : ∀ v ∈ given args kwargs, x.Occurs v) : x.Ready (b args kwargs)
  | next {p q : Program} {gained : List Value} (hp : x.Ready p) (hn : p.Next gained q)
      (hg : ∀ v ∈ gained, x.Occurs v) : x.Ready q

end

/-- What the evaluator returns to a client occurs in the run of that client alone. -/
theorem Client.occurs_of_returned {client : Client} {limit : Nat}
    (ho : .overflowed ∉ (client.conduct (Value.callWithin limit) .initial).1) {v : Value}
    (hv : .returned v ∈ (client.conduct (Value.callWithin limit) .initial).1) :
    ∃ n, (client.run.stage n).Occurs v := by
  obtain ⟨n, t, ht, hc⟩ := (client.run_reaches_conduct ho).1 _ hv
  have hmem : t ∈ (client.run.stage n).workers := by
    rw [ht]
    exact List.mem_cons_self
  refine ⟨n, .moved hmem ?_⟩
  rw [hc]
  exact List.mem_cons_self

/-! ## Code and values that keep within a set of values -/

/-- The code uses what is in the set, and the values are in it. -/
def Control.Safe (free : Prop) (good : Set Value) : Control → Prop
  | perform p => p.Uses free good
  | call target args kwargs => ∀ v ∈ target :: given args kwargs, v ∈ good
  | apply c args kwargs => ∀ v ∈ Value.ofCallable c :: given args kwargs, v ∈ good
  | finish o => ∀ v ∈ o.values, v ∈ good

theorem safe_finish {free : Prop} {good : Set Value} {o : Outcome} (ho : o.values = []) :
    Control.Safe free good (.finish o) := by
  intro v hv
  rw [ho] at hv
  cases hv

def Frame.Safe (free : Prop) (good : Set Value) : Frame → Prop
  | body next => ∀ answer, (next answer).Uses free (good ∪ {v | v ∈ answer.values})
  | native _ _ => True

structure World.Safe (free : Prop) (good : Set Value) (w : World) : Prop where
  bodies : ∀ b ∈ w.bodies, ∀ args kwargs,
    (b args kwargs).Uses free (good ∪ {v | v ∈ given args kwargs})
  memory : ∀ e ∈ w.memory, e.2 ∈ good

structure Point.Safe (free : Prop) (good : Set Value) (x : Point) : Prop where
  control : x.control.Safe free good
  frames : ∀ f ∈ x.frames, f.Safe free good
  world : x.world.Safe free good

structure Worker.Safe (free : Prop) (good : Set Value) (t : Worker) : Prop where
  control : t.control.Safe free good
  frames : ∀ f ∈ t.frames, f.Safe free good
  client : ∀ o, (t.next o).Uses free (good ∪ {v | v ∈ o.values})

structure Stage.Safe (free : Prop) (good : Set Value) (x : Stage) : Prop where
  workers : ∀ t ∈ x.workers, t.Safe free good
  world : x.world.Safe free good

section
variable {free : Prop} {good good' : Set Value} (hsub : good ⊆ good')
include hsub

theorem Control.Safe.mono {x : Control} (hx : x.Safe free good) : x.Safe free good' := by
  cases x with
  | perform p => exact Program.Uses.mono hx hsub
  | call | apply | finish => exact fun v hv => hsub (hx v hv)

theorem Frame.Safe.mono {f : Frame} (hf : f.Safe free good) : f.Safe free good' := by
  cases f with
  | body next => exact fun answer => (hf answer).mono (Set.union_subset_union_left _ hsub)
  | native => trivial

theorem World.Safe.mono {w : World} (hw : w.Safe free good) : w.Safe free good' where
  bodies := fun b hb args kwargs =>
    (hw.bodies b hb args kwargs).mono (Set.union_subset_union_left _ hsub)
  memory := fun e he => hsub (hw.memory e he)

theorem Worker.Safe.mono {t : Worker} (ht : t.Safe free good) : t.Safe free good' where
  control := ht.control.mono hsub
  frames := fun f hf => (ht.frames f hf).mono hsub
  client := fun o => (ht.client o).mono (Set.union_subset_union_left _ hsub)

end

/-- What is derived from the set is in it already. -/
def Closed (free : Prop) (good : Set Value) : Prop := ∀ v, Derived free good v → v ∈ good

section
variable {free : Prop} {good : Set Value} (hclosed : Closed free good)
include hclosed

theorem Closed.value_none : Value.none ∈ good := hclosed _ (.scalar rfl)

theorem Program.Uses.offered_mem {p : Program} (hp : p.Uses free good) :
    ∀ v ∈ p.offered, v ∈ good :=
  fun v hv => hclosed v (hp.offers v hv)

theorem Control.Safe.values_mem {x : Control} (hx : x.Safe free good) : ∀ v ∈ x.values, v ∈ good := by
  cases x with
  | perform p => exact Program.Uses.offered_mem hclosed hx
  | call | apply | finish => exact hx

theorem World.Safe.start {w : World} (hw : w.Safe free good) {body : BodyId} {args : List Value}
    {kwargs : Keywords} (hg : ∀ v ∈ given args kwargs, v ∈ good) :
    (w.start body args kwargs).Safe free good := by
  unfold World.start
  cases hb : w.bodies[body]? with
  | some behaviour =>
    exact (hw.bodies behaviour (Array.mem_of_getElem? hb) args kwargs).absorb subset_rfl hg
  | none =>
    intro v hv
    cases List.mem_singleton.mp hv
    exact hclosed.value_none

theorem World.Safe.fetch {w : World} (hw : w.Safe free good) (cell : Cell) : w.fetch cell ∈ good := by
  unfold World.fetch
  cases hv : w.memory.lookup cell with
  | none => exact hclosed.value_none
  | some v =>
    obtain ⟨before, after, he, -⟩ := List.lookup_eq_some_iff.mp hv
    exact hw.memory (cell, v) (by rw [he]; simp)

theorem Stage.Occurs.mem {x : Stage} (hx : x.Safe free good) {v : Value} (hv : x.Occurs v) :
    v ∈ good := by
  -- Along the occurrence: the code that it comes from uses what is good.
  refine @Stage.Occurs.rec x (fun v _ => v ∈ good) (fun p _ => p.Uses free good) ?moved ?kept
    ?captured ?part ?underWay ?waiting ?callable ?next v hv
  case moved =>
    intro t v ht hv
    exact (hx.workers t ht).control.values_mem hclosed v hv
  case kept =>
    intro e he
    exact hx.world.memory e he
  case captured =>
    intro p v _ hv hp
    exact hp.offered_mem hclosed v hv
  case part =>
    intro u v _ hu hv
    exact hclosed u (.part (.held hv) hu)
  case underWay =>
    intro t p ht hp
    have hc := (hx.workers t ht).control
    rwa [hp] at hc
  case waiting =>
    intro t next answer ht hf _ ha
    exact ((hx.workers t ht).frames _ hf answer).absorb subset_rfl ha
  case callable =>
    intro b args kwargs hb _ hg
    exact (hx.world.bodies b hb args kwargs).absorb subset_rfl hg
  case next =>
    intro p q gained _ hn _ hp hg
    exact (hp.next hn).absorb subset_rfl hg

end

/-! ## Laws -/

namespace Construction

/-- What comes of a construction under a handle. -/
def value (handle : Handle) : Construction → Value
  | native m _ => Value.ofCallable (.native handle m)
  | closure name body => Value.ofCallable (.closure handle name body)
  | object type => Value.ofObject handle type

def isStatic : Construction → Bool
  | native m _ => m.isStatic
  | closure _ _ | object _ => true

theorem handle?_value (handle : Handle) (c : Construction) :
    (c.value handle).payload.handle? = some handle := by
  cases c <;> rfl

end Construction

theorem Control.isStatic_of_makes {x : Control} {c : Construction} (h : x.makes = some c) :
    c.isStatic = true := by
  cases x with
  | perform p =>
    cases p with
    | makeObject | makeClosure => cases h; rfl
    | wrap m settings next =>
      simp only [makes, Option.ite_none_right_eq_some, Option.some.injEq] at h
      obtain ⟨hm, rfl⟩ := h
      exact hm
    | finish | panic | call | look | count | reset | fetch | keep | makeBody => cases h
  | call | apply | finish => cases h

/-- A property of values that stays as more is constructed, that code cannot break, and that holds of
what the runtime makes when it makes it. -/
structure Law (free : Prop) where
  holds : List Construction → Value → Prop
  grows : ∀ {made v}, holds made v → ∀ more, holds (made ++ more) v
  kept : ∀ made, Kept free (holds made)
  fresh : ∀ made {c : Construction}, c.isStatic = true → holds (made ++ [c]) (c.value made.length)

namespace Law
variable {free : Prop} (law : Law free)

/-- The values that obey the law with all their parts. -/
def good (made : List Construction) : Set Value := {v | v.Entirely (law.holds made)}

theorem closed_good (made : List Construction) : Closed free (law.good made) :=
  fun _ hv => hv.entirely (law.kept made) fun _ hu => hu

theorem good_append (made more : List Construction) : law.good made ⊆ law.good (made ++ more) :=
  fun _ hv => hv.imp fun _ hu => law.grows hu more

theorem value_mem_good (made : List Construction) {c : Construction} (hc : c.isStatic = true) :
    c.value made.length ∈ law.good (made ++ [c]) := by
  refine Value.entirely_iff.mpr ⟨law.fresh made hc, fun u hu => ?_⟩
  exact absurd hu (Value.not_within_of_handle? (by rw [c.handle?_value]; rfl))

end Law

/-! ## Steps -/

theorem World.Safe.undisturbed {free : Prop} {good : Set Value} {w w' : World}
    (hw : w.Safe free good) (hu : w.Undisturbed w') : w'.Safe free good where
  bodies := by rw [hu.bodies]; exact hw.bodies
  memory := by rw [hu.memory]; exact hw.memory

theorem values_answer_take (settings : NativeSettings) (m : Method) (o : Outcome) :
    (m.take settings o).answer.values ⊆ o.values := by
  cases o with
  | returned v => exact List.Subset.refl _
  | raised | overflowed => exact nofun
  | panicked p =>
    cases hc : settings.catchPanics <;>
      simp [Method.take, HostOutcome.answer, Outcome.values, hc]

section
variable {free : Prop} (law : Law free)

/-- The point keeps within what is good in its own world. -/
def Law.Obeyed (x : Point) : Prop := x.Safe free (law.good x.world.made)

section
variable {frames : List Frame} {w : World}
variable (hf : ∀ f ∈ frames, f.Safe free (law.good w.made))
variable (hw : w.Safe free (law.good w.made))
include hf hw

theorem Law.obeyed_construct {c : Construction} (hc : c.isStatic = true) {q : Program}
    (hq : q.Uses free (law.good w.made ∪ {v | v ∈ [c.value w.constructions.size]})) :
    law.Obeyed ⟨.perform q, frames, (w.construct c).2⟩ := by
  have hmade := w.made_construct c
  have hsub : law.good w.made ⊆ law.good (w.construct c).2.made := by
    rw [hmade]
    exact law.good_append _ _
  have hvalue : c.value w.constructions.size ∈ law.good (w.construct c).2.made := by
    rw [hmade]
    exact law.value_mem_good w.made hc
  have hw' := hw.mono hsub
  refine ⟨hq.absorb hsub fun v hv => ?_, fun f h => (hf f h).mono hsub, ⟨hw'.bodies, hw'.memory⟩⟩
  cases List.mem_singleton.mp hv
  exact hvalue

theorem Program.step_obeyed {p : Program} (hp : p.Uses free (law.good w.made)) :
    law.Obeyed (p.step frames w).2 := by
  have hclosed := law.closed_good w.made
  have hoffered := hp.offered_mem hclosed
  have hnext : ∀ {q}, p.Next [] q → q.Uses free (law.good w.made) :=
    fun hn => (hp.next hn).absorb subset_rfl nofun
  cases p with
  | finish answer =>
    cases answer with
    | ok v => exact ⟨hoffered, hf, hw⟩
    | error e => exact ⟨safe_finish rfl, hf, hw⟩
  | panic payload => exact ⟨safe_finish rfl, hf, hw⟩
  | call target args kwargs next =>
    have hframe : (Frame.body next).Safe free (law.good w.made) :=
      fun answer => hp.next (.called answer)
    exact ⟨hoffered, List.forall_mem_cons.mpr ⟨hframe, hf⟩, hw⟩
  | look next => exact ⟨hnext (.looked _), hf, hw⟩
  | count method next => exact ⟨hnext (.counted _), hf, hw⟩
  | reset next => exact ⟨hnext .cleared, hf, ⟨hw.bodies, hw.memory⟩⟩
  | fetch cell next =>
    refine ⟨(hp.next (.fetched _)).absorb subset_rfl fun v hv => ?_, hf, hw⟩
    cases List.mem_singleton.mp hv
    exact hw.fetch hclosed cell
  | keep cell value next =>
    refine ⟨hnext .kept, hf, ⟨hw.bodies, fun e he => ?_⟩⟩
    rcases List.mem_cons.mp he with rfl | he
    · exact hoffered value List.mem_cons_self
    · exact hw.memory e (List.mem_filter.mp he).1
  | makeObject type next =>
    exact law.obeyed_construct hf hw (c := .object type) rfl (hp.next (.object _))
  | makeBody body next =>
    refine ⟨hnext (.body _), hf, ⟨fun b hb args kwargs => ?_, hw.memory⟩⟩
    rcases Array.mem_push.mp hb with hb | rfl
    · exact hw.bodies b hb args kwargs
    · exact hp.next (.inside args kwargs)
  | makeClosure name body next =>
    exact law.obeyed_construct hf hw (c := .closure name body) rfl (hp.next (.closure _))
  | wrap m settings next =>
    simp only [Program.step, World.wrap]
    split
    · rename_i hm
      exact law.obeyed_construct hf hw (c := .native m settings) hm (hp.next (.wrapped (.ok _)))
    · exact ⟨hnext (.wrapped (.error _)), hf, hw⟩

theorem Callable.step_obeyed {c : Callable} {args : List Value} {kwargs : Keywords}
    (hc : Control.Safe free (law.good w.made) (.apply c args kwargs)) :
    law.Obeyed (c.step frames args kwargs w).2 := by
  have hclosed := law.closed_good w.made
  obtain ⟨hc, hg⟩ := List.forall_mem_cons.mp hc
  cases c with
  | native handle m =>
    have hu := World.Undisturbed.announce m args kwargs w
    cases hm : m.isAccessible with
    | true =>
      rw [step_of_accessible hm]
      have hw' := hw.undisturbed hu
      have hf' : ∀ f ∈ Frame.native (w.settings handle) m :: frames, f.Safe free (law.good w.made) :=
        List.forall_mem_cons.mpr ⟨trivial, hf⟩
      rw [Law.Obeyed, hu.made]
      exact ⟨hw'.start hclosed hg, hf', hw'⟩
    | false =>
      rw [step_of_denied hm]
      have hu' := hu.trans (.leave (w.settings handle) m (.denied m.text) _)
      rw [Law.Obeyed, hu'.made]
      exact ⟨safe_finish rfl, hf, hw.undisturbed hu'⟩
  | bound receiver f =>
    have hreceiver : receiver ∈ law.good w.made := hclosed _ (.part (.held hc) .receiver)
    have hfunction : Value.ofCallable f ∈ law.good w.made := hclosed _ (.part (.held hc) .function)
    have hreceived : ∀ v ∈ given (receiver :: args) kwargs, v ∈ law.good w.made :=
      List.forall_mem_cons.mpr ⟨hreceiver, hg⟩
    exact ⟨List.forall_mem_cons.mpr ⟨hfunction, hreceived⟩, hf, hw⟩
  | closure handle name body => exact ⟨hw.start hclosed hg, hf, hw⟩

theorem Frame.step_obeyed {frame : Frame} {o : Outcome} (hframe : frame.Safe free (law.good w.made))
    (ho : ∀ v ∈ o.values, v ∈ law.good w.made) : law.Obeyed (frame.step frames w o).2 := by
  cases frame with
  | body next =>
    have hnext : ∀ answer : Answer, answer.values ⊆ o.values →
        (next answer).Uses free (law.good w.made) :=
      fun answer hv => (hframe answer).absorb subset_rfl fun v h => ho v (hv h)
    cases o with
    | returned v => exact ⟨hnext (.ok v) (List.Subset.refl _), hf, hw⟩
    | raised e => exact ⟨hnext (.error e) nofun, hf, hw⟩
    | panicked | overflowed => exact ⟨safe_finish rfl, hf, hw⟩
  | native settings m =>
    have hu := World.Undisturbed.leave settings m (m.take settings o) w
    simp only [Frame.step, Law.Obeyed, leave_answer, hu.made]
    exact ⟨fun v hv => ho v (values_answer_take settings m o hv), hf, hw.undisturbed hu⟩

end

theorem Point.step_obeyed {x y : Point} {history : History} (hx : law.Obeyed x)
    (he : x.step = some (history, y)) : law.Obeyed y := by
  rcases x with ⟨control, frames, w⟩
  obtain ⟨hcontrol, hf, hw⟩ := hx
  cases control with
  | call target args kwargs =>
    obtain ⟨htarget, hg⟩ := List.forall_mem_cons.mp hcontrol
    simp only [Point.step, Option.some.injEq] at he
    split at he
    · rename_i c hc
      cases he
      have hcallable := law.closed_good w.made _ (.callable (.held htarget) hc)
      exact ⟨List.forall_mem_cons.mpr ⟨hcallable, hg⟩, hf, hw⟩
    · cases he
      exact ⟨safe_finish rfl, hf, hw⟩
  | apply c args kwargs =>
    have hy := c.step_obeyed law hf hw hcontrol
    rwa [Option.some.inj he] at hy
  | perform p =>
    have hy := p.step_obeyed law hf hw hcontrol
    rwa [Option.some.inj he] at hy
  | finish o =>
    cases frames with
    | nil => cases he
    | cons frame rest =>
      obtain ⟨hframe, hrest⟩ := List.forall_mem_cons.mp hf
      have hy := frame.step_obeyed law hrest hw hframe hcontrol
      rwa [Option.some.inj he] at hy

/-! ## Runs -/

/-- The stage keeps within what is good in its own world. -/
def Law.ObeyedBy (x : Stage) : Prop := x.Safe free (law.good x.world.made)

/-- What is good before a step is good after it. -/
theorem Worker.good_subset {t t' : Worker} {w w' : World} {history : History}
    (he : t.step w = some (history, t', w')) : law.good w.made ⊆ law.good w'.made := by
  rw [Worker.step_made he]
  exact law.good_append _ _

theorem Worker.step_obeyed {t t' : Worker} {w w' : World} {history : History}
    (ht : t.Safe free (law.good w.made)) (hw : w.Safe free (law.good w.made))
    (he : t.step w = some (history, t', w')) :
    t'.Safe free (law.good w'.made) ∧ w'.Safe free (law.good w'.made) := by
  rcases Worker.step_cases he with ⟨hx, hnext⟩ | ⟨o, p, hc, hnext, ht', -, rfl⟩
  · have hpoint : law.Obeyed ⟨t.control, t.frames, w⟩ := ⟨ht.control, ht.frames, hw⟩
    obtain ⟨hcontrol, hframes, hworld⟩ := Point.step_obeyed law hpoint hx
    have hclient := (ht.mono (Worker.good_subset law he)).client
    rw [← hnext] at hclient
    exact ⟨⟨hcontrol, hframes, hclient⟩, hworld⟩
  · -- The client goes on with the outcome, which is good already.
    have ho := ht.control
    rw [hc] at ho
    have hclient := ht.client o
    rw [hnext] at hclient
    obtain ⟨hp, hrest⟩ := hclient
    have hsub := Set.union_subset subset_rfl ho
    rw [ht']
    refine ⟨⟨hp.mono hsub, nofun, fun o' => ?_⟩, hw⟩
    exact (hrest o').mono (Set.union_subset_union_left _ hsub)

theorem Stage.turn_obeyed {x : Stage} (hx : law.ObeyedBy x) (i : Nat) :
    law.ObeyedBy (x.turn i).2 := by
  rcases x.turn_cases i with ⟨h, -⟩ | ⟨t, t', history, w, ht, hs, h⟩
  · rw [h]
    exact hx
  · have hsafe := hx.workers t (List.mem_of_getElem? ht)
    obtain ⟨ht', hw⟩ := Worker.step_obeyed law hsafe hx.world hs
    rw [h]
    refine ⟨fun u hu => ?_, hw⟩
    rcases List.mem_or_eq_of_mem_set hu with hu | rfl
    · exact (hx.workers u hu).mono (Worker.good_subset law hs)
    · exact ht'

end

/-- The clients of the run start with nothing and use what they hold. -/
def Run.Uses (free : Prop) (r : Run) : Prop := ∀ client ∈ r.clients, client.Uses free ∅

theorem Run.stage_obeyed {free : Prop} (law : Law free) {r : Run} (hr : r.Uses free) (n : Nat) :
    law.ObeyedBy (r.stage n) := by
  induction n with
  | zero =>
    refine ⟨fun t ht => ?_, ⟨nofun, nofun⟩⟩
    obtain ⟨client, hc, rfl⟩ := List.mem_map.mp ht
    refine ⟨fun v hv => ?_, nofun, fun o => (hr client hc).mono (Set.empty_subset _)⟩
    cases List.mem_singleton.mp hv
    exact (law.closed_good _).value_none
  | succ n ih => exact Stage.turn_obeyed law ih _

/-- A law holds of every value that occurs in a run. -/
theorem Law.holds_of_occurs {free : Prop} (law : Law free) {r : Run} (hr : r.Uses free) {n : Nat}
    {v : Value} (hv : (r.stage n).Occurs v) : law.holds (r.stage n).world.made v :=
  hv.mem (law.closed_good _) (Run.stage_obeyed law hr n) v .refl

end HostBridge

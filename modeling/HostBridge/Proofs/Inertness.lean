import HostBridge.Proofs.Evaluation
import HostBridge.Proofs.Layers

/-! # Settings that only observe

A native has two flags: whether its calls are counted, and whether panics in its body are caught. Two
runs are compared that differ in one of them, on any natives. As long as nobody looks at the
statistics the first flag changes nothing but the counters, and as long as nobody panics the second
one changes nothing at all.
-/
namespace HostBridge

inductive Flag where
  | tracking
  | catching
deriving DecidableEq, Repr

/-! ## Setting a flag -/

def NativeSettings.set (s : NativeSettings) (flag : Flag) (b : Bool) : NativeSettings :=
  match flag with
  | .tracking => { s with trackStatistics := b }
  | .catching => { s with catchPanics := b }

theorem NativeSettings.set_set (s : NativeSettings) (flag : Flag) (b c : Bool) :
    (s.set flag b).set flag c = s.set flag c := by
  cases flag <;> rfl

def Construction.set (flag : Flag) (b : Bool) : Construction → Construction
  | native m s => native m (s.set flag b)
  | closure name body => closure name body
  | object type => object type

theorem Construction.set_set (flag : Flag) (b c : Bool) (x : Construction) :
    (x.set flag b).set flag c = x.set flag c := by
  cases x with
  | native m s => simp only [Construction.set, NativeSettings.set_set]
  | closure | object => rfl

/-- The same world, but with the flag on each native as it is chosen. -/
def World.choose (w : World) (flag : Flag) (choice : Handle → Bool) : World :=
  { w with constructions := w.constructions.mapIdx fun handle x => x.set flag (choice handle) }

/-- Calls a value as `callWithin` does, but makes the change before each call, also before those that
bodies make. -/
def Value.callAfter (change : World → World) : Nat → Caller
  | 0, _, _, _, w => (.overflowed, w)
  | limit + 1, v, args, kwargs, w =>
    match v.payload with
    | .callable c => c.apply (callAfter change limit) args kwargs (change w)
    | _ => (.raised v.notCallable, w)

/-! ## Worlds that differ in a flag -/

/-- Nothing but the flag differs, and where the flag is whether calls are counted, the statistics. -/
structure World.Alike (flag : Flag) (w u : World) : Prop where
  constructions : u.constructions.map (·.set flag true) = w.constructions.map (·.set flag true)
  bodies : u.bodies = w.bodies
  memory : u.memory = w.memory
  events : u.events = w.events
  statistics : flag = .catching → u.statistics = w.statistics

theorem World.set_settings (w : World) (flag : Flag) (handle : Handle) :
    (w.settings handle).set flag true =
      match (w.constructions.map (·.set flag true))[handle]? with
      | some (.native _ settings) => settings
      | _ => {} := by
  rw [Array.getElem?_map]
  unfold World.settings
  cases hc : w.constructions[handle]? with
  | none => cases flag <;> rfl
  | some x => cases x <;> cases flag <;> rfl

namespace World.Alike
variable {flag : Flag} {w u : World}

theorem refl (flag : Flag) (w : World) : w.Alike flag w := ⟨rfl, rfl, rfl, rfl, fun _ => rfl⟩

theorem trans {v : World} (hwu : w.Alike flag u) (huv : u.Alike flag v) : w.Alike flag v where
  constructions := huv.constructions.trans hwu.constructions
  bodies := huv.bodies.trans hwu.bodies
  memory := huv.memory.trans hwu.memory
  events := huv.events.trans hwu.events
  statistics := fun h => (huv.statistics h).trans (hwu.statistics h)

theorem choose (flag : Flag) (choice : Handle → Bool) (w : World) :
    w.Alike flag (w.choose flag choice) := by
  refine ⟨?_, rfl, rfl, rfl, fun _ => rfl⟩
  apply Array.ext
  · simp [World.choose]
  · intro handle _ _
    simp [World.choose, Construction.set_set]

theorem settings (h : w.Alike flag u) (handle : Handle) :
    (u.settings handle).set flag true = (w.settings handle).set flag true := by
  rw [World.set_settings, World.set_settings, h.constructions]

theorem size (h : w.Alike flag u) : u.constructions.size = w.constructions.size := by
  simpa using congrArg Array.size h.constructions

/-! What bodies and natives do to alike worlds leaves them alike. -/

theorem emit (h : w.Alike flag u) (e : Event) : (w.emit e).Alike flag (u.emit e) :=
  { h with events := by simp only [World.emit, h.events] }

theorem announce (h : w.Alike flag u) (m : Method) (args : List Value) (kwargs : Keywords) :
    (w.announce m args kwargs).Alike flag (u.announce m args kwargs) :=
  (h.emit _).emit _

theorem resetStatistics (h : w.Alike flag u) :
    w.resetStatistics.Alike flag u.resetStatistics :=
  { h with statistics := fun hf => by simp only [World.resetStatistics, h.statistics hf] }

theorem keep (h : w.Alike flag u) (cell : Cell) (value : Value) :
    (w.keep cell value).Alike flag (u.keep cell value) :=
  { h with memory := by simp only [World.keep, h.memory] }

theorem fetch (h : w.Alike flag u) (cell : Cell) : u.fetch cell = w.fetch cell := by
  simp only [World.fetch, h.memory]

theorem makeBody (h : w.Alike flag u) (b : Behaviour) :
    (u.makeBody b).1 = (w.makeBody b).1 ∧ (w.makeBody b).2.Alike flag (u.makeBody b).2 :=
  ⟨by simp only [World.makeBody, h.bodies],
    { h with bodies := by simp only [World.makeBody, h.bodies] }⟩

theorem construct (h : w.Alike flag u) (x : Construction) :
    (u.construct x).1 = (w.construct x).1 ∧ (w.construct x).2.Alike flag (u.construct x).2 :=
  ⟨h.size, { h with constructions := by simp only [World.construct, Array.map_push, h.constructions] }⟩

theorem makeObject (h : w.Alike flag u) (type : HostType) :
    (u.makeObject type).1 = (w.makeObject type).1 ∧
      (w.makeObject type).2.Alike flag (u.makeObject type).2 :=
  ⟨by simp only [World.makeObject, (h.construct _).1], (h.construct _).2⟩

theorem makeClosure (h : w.Alike flag u) (name : String) (body : BodyId) :
    (u.makeClosure name body).1 = (w.makeClosure name body).1 ∧
      (w.makeClosure name body).2.Alike flag (u.makeClosure name body).2 :=
  ⟨by simp only [World.makeClosure, (h.construct _).1], (h.construct _).2⟩

theorem wrap (h : w.Alike flag u) (m : Method) (s : NativeSettings) :
    (u.wrap m s).1 = (w.wrap m s).1 ∧ (w.wrap m s).2.Alike flag (u.wrap m s).2 := by
  unfold World.wrap
  split
  · exact ⟨by simp only [(h.construct _).1], (h.construct _).2⟩
  · exact ⟨rfl, h⟩

end World.Alike

/-- The outcomes are the same and the worlds are alike. -/
structure SameEnd (flag : Flag) (plain other : Outcome × World) : Prop where
  outcome : other.1 = plain.1
  world : plain.2.Alike flag other.2

/-! ## Runs that do not mind -/

/-- What tells the values of a flag apart: looking at the statistics, and panicking. -/
def Flag.Minds : Flag → Control → Prop
  | tracking, .perform (.look _) => True
  | tracking, .perform (.count _ _) => True
  | catching, .finish (.panicked _) => True
  | _, _ => False

/-- Nothing on the way from this point minds the flag. -/
def Point.Calm (flag : Flag) (x : Point) : Prop :=
  ∀ history y, Runs x history y → ¬ flag.Minds y.control

namespace Point.Calm
variable {flag : Flag} {x y : Point} {history : History}

theorem runs (hx : x.Calm flag) (hr : Runs x history y) : y.Calm flag :=
  fun _ z hz => hx _ z (hr.trans hz)

theorem step (hx : x.Calm flag) (he : x.step = some (history, y)) : y.Calm flag :=
  hx.runs (.single he)

theorem of_step (hx : ¬ flag.Minds x.control) (he : x.step = some (history, y))
    (hy : y.Calm flag) : x.Calm flag := by
  intro h z hr
  cases hr with
  | refl => exact hx
  | step he' hr' =>
    cases he.symm.trans he'
    exact hy _ z hr'

theorem of_done (hx : ¬ flag.Minds x.control) (he : x.step = none) : x.Calm flag := by
  intro h z hr
  cases hr with
  | refl => exact hx
  | step he' _ => cases he.symm.trans he'

end Point.Calm

def Caller.Matches (flag : Flag) (call other : Caller) : Prop :=
  ∀ {v args kwargs frames w u}, w.Alike flag u → Point.Calm flag ⟨.call v args kwargs, frames, w⟩ →
    SameEnd flag (call v args kwargs w) (other v args kwargs u)

section
variable {flag : Flag} {call other : Caller} (hcall : call.Followed)
variable (hother : call.Matches flag other)
include hcall hother

theorem perform_same (p : Program) {frames : List Frame} {w u : World} (hw : w.Alike flag u)
    (hp : Point.Calm flag ⟨.perform p, frames, w⟩) :
    SameEnd flag (p.perform call w) (p.perform other u) := by
  -- Induction on what the body still does, along the run of the machine.
  induction p generalizing w u with
  | finish answer => cases answer <;> exact ⟨rfl, hw⟩
  | panic payload => exact ⟨rfl, hw⟩
  | call target args kwargs next ih =>
    have hin : Point.Calm flag ⟨.call target args kwargs, .body next :: frames, w⟩ := hp.step rfl
    obtain ⟨ho, hv⟩ := hother hw hin
    rcases he : call target args kwargs w with ⟨ended, v⟩
    rcases he' : other target args kwargs u with ⟨ended', v'⟩
    simp only [he, he'] at ho hv
    subst ho
    have hout : ended' ≠ .overflowed →
        Point.Calm flag ⟨.finish ended', .body next :: frames, v⟩ := by
      intro hne
      obtain ⟨is, ⟨history, -, hr⟩, -⟩ := hcall he hne
      exact hin.runs (hr _)
    simp only [Program.perform, he, he']
    cases ended' with
    | returned value => exact ih _ hv ((hout (by simp)).step rfl)
    | raised e => exact ih _ hv ((hout (by simp)).step rfl)
    | panicked | overflowed => exact ⟨rfl, hv⟩
  | look next ih =>
    cases flag with
    | tracking => exact absurd trivial (hp _ _ (.refl _))
    | catching =>
      simp only [Program.perform, hw.statistics rfl]
      exact ih _ hw (hp.step rfl)
  | count method next ih =>
    cases flag with
    | tracking => exact absurd trivial (hp _ _ (.refl _))
    | catching =>
      simp only [Program.perform, hw.statistics rfl]
      exact ih _ hw (hp.step rfl)
  | reset next ih => exact ih hw.resetStatistics (hp.step rfl)
  | fetch cell next ih =>
    simp only [Program.perform, hw.fetch]
    exact ih _ hw (hp.step rfl)
  | keep cell value next ih => exact ih (hw.keep cell value) (hp.step rfl)
  | makeObject type next ih =>
    obtain ⟨hv, hw'⟩ := hw.makeObject type
    simp only [Program.perform, hv]
    exact ih _ hw' (hp.step rfl)
  | makeBody body next _ ih =>
    obtain ⟨hv, hw'⟩ := hw.makeBody body
    simp only [Program.perform, hv]
    exact ih _ hw' (hp.step rfl)
  | makeClosure name body next ih =>
    obtain ⟨hv, hw'⟩ := hw.makeClosure name body
    simp only [Program.perform, hv]
    exact ih _ hw' (hp.step rfl)
  | wrap method settings next ih =>
    obtain ⟨hv, hw'⟩ := hw.wrap method settings
    simp only [Program.perform, hv]
    exact ih _ hw' (hp.step rfl)

theorem runBody_same {body : BodyId} {args : List Value} {kwargs : Keywords}
    {frames : List Frame} {w u : World} (hw : w.Alike flag u)
    (hp : Point.Calm flag ⟨w.start body args kwargs, frames, w⟩) :
    SameEnd flag (runBody call body args kwargs w) (runBody other body args kwargs u) := by
  unfold World.start at hp
  unfold runBody
  rw [hw.bodies]
  cases hb : w.bodies[body]? with
  | none => exact ⟨rfl, hw⟩
  | some behaviour =>
    rw [hb] at hp
    exact perform_same hcall hother (behaviour args kwargs) hw hp

end

/-! ## Natives -/

section
variable {flag : Flag} {settings settings' : NativeSettings} {m : Method}

/-- Only a panic shows whether panics are caught. -/
theorem take_same (hs : settings'.set flag true = settings.set flag true) {ended : Outcome}
    (ho : flag = .catching → ∀ p, ended ≠ .panicked p) :
    m.take settings' ended = m.take settings ended := by
  cases ended with
  | returned | raised | overflowed => rfl
  | panicked p =>
    cases flag with
    | tracking =>
      have hc : settings'.catchPanics = settings.catchPanics := by
        simpa [NativeSettings.set] using congrArg NativeSettings.catchPanics hs
      simp only [Method.take, hc]
    | catching => exact absurd rfl (ho rfl p)

/-- Only the statistics show whether calls are counted. -/
theorem World.Alike.leave (hs : settings'.set flag true = settings.set flag true)
    (ended : HostOutcome) {w u : World} (h : w.Alike flag u) :
    SameEnd flag (leave settings m ended w) (leave settings' m ended u) := by
  have hw := World.Undisturbed.leave settings m ended w
  have hu := World.Undisturbed.leave settings' m ended u
  refine ⟨by rw [leave_answer, leave_answer], ?_, ?_, ?_, ?_, fun hf => ?_⟩
  · rw [hu.constructions, hw.constructions, h.constructions]
  · rw [hu.bodies, hw.bodies, h.bodies]
  · rw [hu.memory, hw.memory, h.memory]
  · apply Array.ext'
    rw [leave_events, leave_events, h.events]
  · have ht : settings'.trackStatistics = settings.trackStatistics := by
      subst hf
      simpa [NativeSettings.set] using congrArg NativeSettings.trackStatistics hs
    rw [leave_statistics, leave_statistics, h.statistics hf, Method.entry, Method.entry, ht]

end

section
variable {flag : Flag} {call other : Caller} (hcall : call.Followed)
variable (hother : call.Matches flag other)
include hcall hother

theorem callNative_same {handle : Handle} {m : Method} {args : List Value} {kwargs : Keywords}
    {frames : List Frame} {w u : World} (hw : w.Alike flag u)
    (hp : Point.Calm flag ⟨.apply (.native handle m) args kwargs, frames, w⟩) :
    SameEnd flag (callNative call handle m args kwargs w)
      (callNative other handle m args kwargs u) := by
  have hs := hw.settings handle
  have hwo := hw.announce m args kwargs
  cases hm : m.isAccessible with
  | false =>
    rw [callNative_of_denied hm, callNative_of_denied hm]
    exact hwo.leave hs _
  | true =>
    have hin : Point.Calm flag ⟨(w.announce m args kwargs).start m.body args kwargs,
        .native (w.settings handle) m :: frames, w.announce m args kwargs⟩ :=
      hp.step (congrArg some (Callable.step_of_accessible hm))
    obtain ⟨ho, hv⟩ := runBody_same hcall hother hwo hin
    rcases he : runBody call m.body args kwargs (w.announce m args kwargs) with ⟨ended, v⟩
    rcases he' : runBody other m.body args kwargs (u.announce m args kwargs) with ⟨ended', v'⟩
    simp only [he, he'] at ho hv
    subst ho
    have hnone : flag = .catching → ∀ p, ended' ≠ .panicked p := by
      rintro rfl p rfl
      obtain ⟨is, history, -, hr⟩ := runBody_follows hcall he (by simp)
      exact hin _ _ (hr _) trivial
    rw [callNative_of_accessible hm he, callNative_of_accessible hm he', take_same hs hnone]
    exact hv.leave hs _

theorem apply_same (c : Callable) {args : List Value} {kwargs : Keywords} {frames : List Frame}
    {w u : World} (hw : w.Alike flag u)
    (hp : Point.Calm flag ⟨.apply c args kwargs, frames, w⟩) :
    SameEnd flag (c.apply call args kwargs w) (c.apply other args kwargs u) := by
  match c with
  | .native handle m => exact callNative_same hcall hother hw hp
  | .bound receiver f => exact apply_same f hw (hp.step rfl)
  | .closure handle name body => exact runBody_same hcall hother hw (hp.step rfl)
termination_by structural c

end

theorem callAfter_matches {flag : Flag} {change : World → World}
    (hchange : ∀ v : World, v.Alike flag (change v)) (limit : Nat) :
    (Value.callWithin limit).Matches flag (Value.callAfter change limit) := by
  induction limit with
  | zero =>
    intro v args kwargs frames w u hw _
    exact ⟨rfl, hw⟩
  | succ limit ih =>
    intro v args kwargs frames w u hw hp
    cases hc : v.payload with
    | callable c =>
      have he : Point.step ⟨.call v args kwargs, frames, w⟩ =
          some ([], ⟨.apply c args kwargs, frames, w⟩) := by simp only [Point.step, hc]
      simp only [Value.callWithin, Value.callAfter, hc]
      exact apply_same (callWithin_follows limit) ih c (hw.trans (hchange u)) (hp.step he)
    | none | bool | int | float | str | list | dict | object =>
      simp only [Value.callWithin, Value.callAfter, hc]
      exact ⟨rfl, hw⟩

/-! ## Whole runs -/

/-- A client performs programs one after another. It goes on after any outcome, also a panic, and may
choose the next program by it. -/
inductive Client where
  | done
  | perform (p : Program) (next : Outcome → Client)

namespace Client

/-- The outcomes of a client's programs, and the world that they leave. -/
def conduct (call : Caller) : Client → World → List Outcome × World
  | done, w => ([], w)
  | perform p next, w =>
    let ended := p.perform call w
    let rest := (next ended.1).conduct call ended.2
    (ended.1 :: rest.1, rest.2)

def Calm (flag : Flag) (call : Caller) : Client → World → Prop
  | done, _ => True
  | perform p next, w =>
    Point.Calm flag ⟨.perform p, [], w⟩ ∧
      (next (p.perform call w).1).Calm flag call (p.perform call w).2

end Client

theorem conduct_same {flag : Flag} {change : World → World}
    (hchange : ∀ v : World, v.Alike flag (change v)) {limit : Nat} (client : Client) {w u : World}
    (hw : w.Alike flag u) (hc : client.Calm flag (Value.callWithin limit) w) :
    (client.conduct (Value.callAfter change limit) u).1 =
        (client.conduct (Value.callWithin limit) w).1 ∧
      (client.conduct (Value.callWithin limit) w).2.Alike flag
        (client.conduct (Value.callAfter change limit) u).2 := by
  induction client generalizing w u with
  | done => exact ⟨rfl, hw⟩
  | perform p next ih =>
    obtain ⟨hp, hrest⟩ := hc
    obtain ⟨ho, hv⟩ := perform_same (callWithin_follows limit) (callAfter_matches hchange limit)
      p hw hp
    obtain ⟨hos, hv'⟩ := ih _ hv hrest
    simp only [Client.conduct, ho]
    exact ⟨by rw [hos], hv'⟩

/-- Two runs that differ in a flag on natives, on those that are there from the start and on those
that are made on the way, whichever they are: if nothing on the way minds the flag, then every call
has the same outcome, and the events are the same, and but for tracking so are the statistics. -/
theorem flags_are_inert {flag : Flag} {change : World → World}
    (hchange : ∀ v : World, v.Alike flag (change v)) {limit : Nat} {w u : World}
    (hw : w.Alike flag u) :
    (∀ v args kwargs frames, Point.Calm flag ⟨.call v args kwargs, frames, w⟩ →
      SameEnd flag (Value.callWithin limit v args kwargs w)
        (Value.callAfter change limit v args kwargs u)) ∧
    ∀ client : Client, client.Calm flag (Value.callWithin limit) w →
      let plain := client.conduct (Value.callWithin limit) w
      let other := client.conduct (Value.callAfter change limit) u
      other.1 = plain.1 ∧ other.2.events = plain.2.events ∧
        (flag = .catching → other.2.statistics = plain.2.statistics) ∧
        plain.2.Alike flag other.2 := by
  constructor
  · intro v args kwargs frames hp
    exact callAfter_matches hchange limit hw hp
  · intro client hc
    obtain ⟨ho, hv⟩ := conduct_same hchange client hw hc
    exact ⟨ho, hv.events, hv.statistics, hv⟩

/-! A call through nested natives that raises: on the outer ones the flags are flipped. -/

def nestedClient : Client :=
  .perform (.call (Value.ofCallable (.bound Value.none (.native 3 fronting))) [] .empty .finish)
    fun _ => .done

def raisingWorld : World := nestedWorld fun _ _ => .raise (.raised .keyError "")

def flippedRun (flag : Flag) (choice : Handle → Bool) : List Outcome × World :=
  nestedClient.conduct (Value.callAfter (·.choose flag choice) 4) raisingWorld

theorem calm_nestedClient (flag : Flag) :
    nestedClient.Calm flag (Value.callWithin 4) raisingWorld := by
  refine ⟨?_, trivial⟩
  cases flag <;> repeat refine .of_step (fun h => h) rfl ?_
  all_goals exact .of_done (fun h => h) rfl

theorem flags_are_inert_nested :
    (let plain := nestedClient.conduct (Value.callWithin 4) raisingWorld
    let untracked := flippedRun .tracking fun handle => handle == 0
    let catching := flippedRun .catching fun handle => handle != 2
    untracked.1 = plain.1 ∧ untracked.2.events = plain.2.events ∧
      catching.1 = plain.1 ∧ catching.2.events = plain.2.events ∧
      catching.2.statistics = plain.2.statistics) ∧
    (flippedRun .tracking fun handle => handle == 0).2.statistics.calls = 1 := by
  have htracking := (flags_are_inert (World.Alike.choose .tracking fun handle => handle == 0)
    (.refl .tracking raisingWorld)).2 nestedClient (calm_nestedClient .tracking)
  have hcatching := (flags_are_inert (World.Alike.choose .catching fun handle => handle != 2)
    (.refl .catching raisingWorld)).2 nestedClient (calm_nestedClient .catching)
  exact ⟨⟨htracking.1, htracking.2.1, hcatching.1, hcatching.2.1, hcatching.2.2.1 rfl⟩, rfl⟩

end HostBridge

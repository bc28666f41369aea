import HostBridge.Proofs.Growth
import HostBridge.Proofs.LogPlaces
import Mathlib.Data.List.Forall2

/-! # What a log shows of a session

Once a logger is installed a session never changes its logger or its files again. So the log shows
what was emitted since the first start, as far as the level of that start lets it through.
-/
namespace HostBridge

open Files (Node)

/-! ## Events and records -/

/-- How severe an event is. That a span opens or closes is not an event that is logged by itself. -/
def Event.severity? : Event → Option Level
  | entered _ | exited => none
  | denied _ => some .error
  | raised .. | skipped .. => some .warn
  | starting | stopping => some .info
  | called .. | completed _ | ready => some .debug
  | returned _ => some .trace

/-- The part of the runtime that an event comes from. -/
def Event.origin : Event → String
  | completed _ => "pyhost::logging::perf"
  | ready => "pyhost::interop"
  | skipped .. => "pyhost::config"
  | entered _ | exited => spanTarget
  | called .. | returned _ | raised .. | denied _ | starting | stopping => "pyhost::logging"

/-- A record tells of an event: it has its severity and origin, and is the record of no other. -/
structure Event.Tells (e : Event) (r : Record) : Prop where
  record : e.record? = some r
  severity : e.severity? = some r.level
  origin : r.target = e.origin
  only : ∀ e' : Event, e'.record? = some r → e' = e

theorem Event.tells {e : Event} {r : Record} (h : e.record? = some r) : e.Tells r := by
  refine ⟨h, ?_, ?_, fun e' h' => ?_⟩
  · cases e <;> cases h <;> rfl
  · cases e <;> cases h <;> rfl
  · cases e <;> cases h <;> cases e' <;> simp_all [record?]

theorem Event.severity?_of_none {e : Event} (h : e.record? = none) : e.severity? = none := by
  cases e <;> first | rfl | cases h

/-- The filter of a level lets an event through. -/
def Event.passes (most : Level) (e : Event) : Bool :=
  e.severity?.any fun level => level.rank ≤ most.rank

theorem forall₂_tells (most : Level) (events : List Event) :
    List.Forall₂ Event.Tells (events.filter (Event.passes most))
      ((events.filterMap Event.record?).filter fun r => r.level.rank ≤ most.rank) := by
  induction events with
  | nil => exact .nil
  | cons e rest ih =>
    cases hr : e.record? with
    | none =>
      have hp : e.passes most = false := by rw [Event.passes, Event.severity?_of_none hr]; rfl
      rwa [List.filterMap_cons_none hr, List.filter_cons_of_neg (by simp [hp])]
    | some r =>
      have hp : e.passes most = decide (r.level.rank ≤ most.rank) := by
        rw [Event.passes, (Event.tells hr).severity]
        rfl
      rw [List.filterMap_cons_some hr, List.filter_cons, List.filter_cons, hp]
      split
      · exact .cons (Event.tells hr) ih
      · exact ih

/-! ## Filters -/

/-- The origins of all events that have a record. -/
def Event.targets : List String :=
  ["pyhost::logging", "pyhost::logging::perf", "pyhost::interop", "pyhost::config"]

theorem Event.target_mem {e : Event} {r : Record} (h : e.record? = some r) :
    r.target ∈ targets := by
  cases e <;> cases h <;> simp [targets, logTarget]

/-- The filter of a level speaks of all of them; none is the target of the span. -/
theorem Event.targets_spec {target : String} (h : target ∈ targets) :
    Filter.source.toList.isPrefixOf target.toList = true ∧ target ≠ spanTarget := by
  revert target
  decide

theorem Filter.shows_upTo {source : String} (level most : Level)
    (h : Filter.source.toList.isPrefixOf source.toList = true) :
    (Filter.upTo most).shows source level = decide (level.rank ≤ most.rank) := by
  simp [Filter.shows, Filter.upTo, Filter.deciding, Directive.speaksOf, Directive.allows, h]

/-- The record of an event. That a span opens or closes is told by the log itself, with the target of
the span. -/
def Entry.record? (e : Entry) : Option Record :=
  if e.record.target = spanTarget then none else some e.record

theorem Entry.record?_of_event {e : Event} {r : Record} (h : e.record? = some r)
    (spans : List String) (closing : Bool) : Entry.record? ⟨r, spans, closing⟩ = some r :=
  if_neg (Event.targets_spec (Event.target_mem h)).2

/-- What a log is given of events are the records that its filter shows, each once and in order. -/
theorem filterMap_entries (filter : Filter) (showSpans : Bool) (spans : List String)
    (events : List Event) :
    (entries filter showSpans spans events).filterMap Entry.record? =
      (events.filterMap Event.record?).filter fun r => filter.shows r.target r.level := by
  fun_induction entries with
  | case1 => rfl
  | case2 | case3 | case4 | case5 | case6 | case7 =>
    -- A span opens or closes: whatever the log tells of that is no record of an event.
    rename_i ih
    exact ih
  | case8 spans event rest _ _ r hr hshows ih =>
    rw [List.filterMap_cons_some (Entry.record?_of_event hr _ _), List.filterMap_cons_some hr,
      List.filter_cons, if_pos hshows, ih]
  | case9 spans event rest _ _ r hr hhides ih =>
    rw [List.filterMap_cons_some hr, List.filter_cons, if_neg hhides, ih]
  | case10 spans event rest _ _ hr ih =>
    rw [List.filterMap_cons_none hr, ih]

/-- A log that does not show spans is given nothing else. -/
theorem map_record_entries (filter : Filter) {showSpans : Bool} (hs : showSpans = false)
    (spans : List String) (events : List Event) :
    (entries filter showSpans spans events).map Entry.record =
      (entries filter showSpans spans events).filterMap Entry.record? := by
  fun_induction entries with
  | case1 => rfl
  | case2 | case5 =>
    rename_i hshown ih
    exact absurd (hs.symm.trans hshown) Bool.false_ne_true
  | case3 | case4 | case6 | case7 | case9 | case10 =>
    rename_i ih
    exact ih
  | case8 spans event rest _ _ r hr hshows ih =>
    rw [List.map_cons, List.filterMap_cons_some (Entry.record?_of_event hr _ _), ih]

theorem filterMap_entries_upTo (level : Level) (showSpans : Bool) (spans : List String)
    (events : List Event) :
    (entries (.upTo level) showSpans spans events).filterMap Entry.record? =
      (events.filterMap Event.record?).filter fun r => r.level.rank ≤ level.rank := by
  rw [filterMap_entries]
  refine List.filter_congr fun r hr => ?_
  obtain ⟨e, -, he⟩ := List.mem_filterMap.mp hr
  exact Filter.shows_upTo _ _ (Event.targets_spec (Event.target_mem he)).1

namespace Session

/-! ## What the layers are given -/

/-- What both layers of the log are given. -/
def given (s : Session) : List Entry :=
  match s.logger with
  | some logger => s.entriesFor logger
  | none => []

/-- The records of events among it. -/
def told (s : Session) : List Record := s.given.filterMap Entry.record?

def onConsole (json : Bool) (e : Entry) : List ConsoleOutput :=
  if json then [.object e] else (lines e.consoleLine).map .line

def inFile (e : Entry) : List String := lines e.fileLine

theorem console_eq (s : Session) :
    s.console = match s.logger with
      | some logger => s.given.flatMap (onConsole logger.settings.json)
      | none => [] := by
  unfold console given
  cases s.logger <;> rfl

theorem logFile_eq (s : Session) :
    s.logFile = s.logger.bind fun logger =>
      logger.file.map fun place => (place, s.given.flatMap inFile) := by
  unfold logFile given
  cases s.logger <;> rfl

/-! ## Sessions -/

/-- Where the settings of a start come from. -/
inductive Source where
  | environment
  | settings (settings : Settings)

def Source.log (env : Environment) : Source → LogSettings
  | environment => .ofEnvironment env
  | settings s => s.logging.log

/-- What can happen in a session: the runtime is started, a program runs, with all its calls, or an
event is emitted by itself. -/
inductive Action where
  | start (env : Environment) (source : Source)
  | run (p : Program)
  | emit (e : Event)

namespace Action

def isStart : Action → Bool
  | start _ _ => true
  | run _ | emit _ => false

/-- What an action does to the world once there is a logger. -/
def onWorld : Action → World → World
  | start _ _, w => (w.emit .starting).emit .ready
  | run p, w => (p.perform Value.call w).2
  | emit e, w => w.emit e

theorem grows (a : Action) (w : World) : w.Grows (a.onWorld w) := by
  cases a with
  | start env source => exact (World.Grows.emit .starting w).trans (.emit .ready _)
  | run p => exact perform_grows (callWithin_grows Value.bodyLimit) p w
  | emit e => exact .emit e w

end Action

/-- The world after actions of which none installs a logger. -/
def afterAll (w : World) (actions : List Action) : World :=
  actions.foldl (fun w a => a.onWorld w) w

theorem afterAll_grows (w : World) (actions : List Action) : w.Grows (afterAll w actions) := by
  induction actions generalizing w with
  | nil => exact .refl w
  | cons a rest ih => exact (a.grows w).trans (ih _)

def act (s : Session) : Action → Session
  | .start env source => s.begin env (source.log env)
  | .run p => { s with world := (p.perform Value.call s.world).2 }
  | .emit e => s.emit e

def runAll (s : Session) (actions : List Action) : Session := actions.foldl act s

/-- The session can go on without a change of its log: it has a logger, or nothing is started. -/
def Settled (s : Session) (actions : List Action) : Prop :=
  s.logger.isSome = true ∨ ∀ a ∈ actions, a.isStart = false

theorem act_of_settled {s : Session} {a : Action} (h : s.Settled [a]) :
    s.act a = { s with world := a.onWorld s.world } := by
  cases a with
  | run p => rfl
  | emit e => rfl
  | start env source =>
    rcases h with h | h
    · obtain ⟨logger, hl⟩ := Option.isSome_iff_exists.mp h
      simp only [act, begin, setUp, hl, emit, Action.onWorld]
    · cases h _ List.mem_cons_self

theorem runAll_of_settled {s : Session} {actions : List Action} (h : s.Settled actions) :
    s.runAll actions = { s with world := afterAll s.world actions } := by
  induction actions generalizing s with
  | nil => rfl
  | cons a rest ih =>
    have hfirst : s.Settled [a] := by
      refine h.imp_right ?_
      intro hall b hb
      rw [List.mem_singleton.mp hb]
      exact hall a List.mem_cons_self
    have hrest : (s.act a).Settled rest := by
      rw [act_of_settled hfirst]
      refine h.imp_right ?_
      intro hall b hb
      exact hall b (List.mem_cons_of_mem _ hb)
    change (s.act a).runAll rest = _
    rw [ih hrest, act_of_settled hfirst]
    rfl

/-- If settings ask for a log file, it can be opened. -/
def CanOpen (s : Session) (log : LogSettings) : Prop :=
  ∀ path, log.toFile = true → log.path = some path →
    (LogPlace.openFile s.files s.here path).2.isSome = true

/-- The log file that settings ask for, opened among the files of the session. -/
def opened (s : Session) (log : LogSettings) : Node × Option LogPlace :=
  match filePath log with
  | some path => LogPlace.openFile s.files s.here path
  | none => (s.files, none)

section
variable {s : Session} {env : Environment} {source : Source} (hs : s.logger = none)
variable (hopen : s.CanOpen (source.log env))
include hs hopen

/-- The first start whose log file can be opened installs a logger. -/
theorem act_start_of_opened :
    s.act (.start env source) =
      { s with
        world := (s.world.emit .starting).emit .ready
        logger := some ⟨source.log env, .choose env (source.log env).level, s.world.events.size,
          (s.opened (source.log env)).2⟩
        files := (s.opened (source.log env)).1 } := by
  unfold act begin setUp opened
  cases hp : filePath (source.log env) with
  | none =>
    simp only [hs, hp]
    rfl
  | some path =>
    obtain ⟨hfile, hpath⟩ := Option.ite_none_right_eq_some.mp hp
    obtain ⟨place, hplace⟩ := Option.isSome_iff_exists.mp (hopen path hfile hpath)
    rcases ho : LogPlace.openFile s.files s.here path with ⟨files, found⟩
    rw [ho] at hplace
    cases hplace
    simp only [hs, hp, ho]
    rfl

/-- A session from its first start on. -/
theorem runAll_start (after : List Action) :
    s.runAll (.start env source :: after) =
      { s with
        world := afterAll s.world (.start env source :: after)
        logger := some ⟨source.log env, .choose env (source.log env).level, s.world.events.size,
          (s.opened (source.log env)).2⟩
        files := (s.opened (source.log env)).1 } := by
  change (s.act (.start env source)).runAll after = _
  rw [act_start_of_opened hs hopen, runAll_of_settled (.inl rfl)]
  rfl

end

/-- The log of a session whose first start came with these settings and found it as `s`. Of what was
emitted since then, both layers are told of the events that pass the level, of each by its own record
and in order; a further start only emits. The log file is where its path leads. -/
structure Logs (s : Session) (log : LogSettings) (emitted : List Event) (t : Session) : Prop where
  isSetUp : t.isSetUp = true
  told : List.Forall₂ Event.Tells (emitted.filter (Event.passes log.level)) t.told
  unmixed : log.showSpans = false → t.given.map Entry.record = t.told
  console : t.console = t.given.flatMap (onConsole log.json)
  unfiled : log.toFile = false ∨ log.path = none → t.logFile = none ∧ t.files = s.files
  filed : ∀ path, log.toFile = true → log.path = some path →
    ∃ place, LogPlace.openFile s.files s.here path = (t.files, some place) ∧
      t.logFile = some (place, t.given.flatMap inFile) ∧
      (∃ content, t.files.find? place = some (.file content)) ∧
      ∀ names name, Files.components path = names ++ [name] → name ≠ ".." →
        place = LogPlace.after (if Files.isAbsolute path then [] else s.here) names ++ [name]
  again : ∀ (env : Environment) (source : Source),
    t.act (.start env source) = (t.emit .starting).emit .ready

section
variable {s : Session} {env : Environment} {source : Source} (hs : s.logger = none)
variable (hopen : s.CanOpen (source.log env)) (henv : env.filter = none) (after : List Action)
variable {emitted : List Event}
variable (hemitted : (s.runAll (.start env source :: after)).world.events.toList =
  s.world.events.toList ++ emitted)
include hs hopen henv hemitted

theorem given_start : (s.runAll (.start env source :: after)).given =
    entries (.upTo (source.log env).level) (source.log env).showSpans [] emitted := by
  have hfilter : Filter.choose env (source.log env).level = .upTo (source.log env).level := by
    rw [Filter.choose, henv]
    rfl
  have hsince : (s.runAll (.start env source :: after)).world.events.toList.drop
      s.world.events.size = emitted := by
    rw [hemitted]
    exact List.drop_left' rfl
  rw [runAll_start hs hopen] at hsince ⊢
  dsimp only at hsince
  simp only [given, entriesFor, hfilter, hsince]

theorem told_start : (s.runAll (.start env source :: after)).told =
    (emitted.filterMap Event.record?).filter fun r =>
      r.level.rank ≤ (source.log env).level.rank := by
  rw [told, given_start hs hopen henv after hemitted, filterMap_entries_upTo]

theorem logs_start : s.Logs (source.log env) emitted (s.runAll (.start env source :: after)) where
  isSetUp := by rw [runAll_start hs hopen]; rfl
  told := by
    rw [told_start hs hopen henv after hemitted]
    exact forall₂_tells _ _
  unmixed hspans := by
    rw [told, given_start hs hopen henv after hemitted]
    exact map_record_entries _ hspans _ _
  console := by rw [console_eq, runAll_start hs hopen]
  unfiled hnone := by
    have hp : filePath (source.log env) = none := by
      rw [filePath, ite_eq_right_iff]
      exact fun hfile => hnone.resolve_left (by simp [hfile])
    rw [logFile_eq, runAll_start hs hopen]
    simp only [opened, hp, Option.bind_some, Option.map_none, and_self]
  filed path hfile hpath := by
    have hp : filePath (source.log env) = some path := (if_pos hfile).trans hpath
    obtain ⟨place, hplace⟩ := Option.isSome_iff_exists.mp (hopen path hfile hpath)
    have hfound : LogPlace.openFile s.files s.here path =
        ((s.runAll (.start env source :: after)).files, some place) := by
      rw [runAll_start hs hopen, ← hplace]
      simp only [opened, hp]
    refine ⟨place, hfound, ?_, (LogPlace.openFile_eq hfound).2,
      fun names name => LogPlace.place_of_openFile hfound⟩
    rw [logFile_eq, runAll_start hs hopen]
    simp only [opened, hp, hplace, Option.bind_some, Option.map_some]
  again env' source' := by
    rw [runAll_start hs hopen]
    exact act_of_settled (.inl rfl)

end

/-- The first start decides what is logged. Nothing is logged before it; of what is emitted after it,
its own events included, the console is given what its level lets through, in order and once, and so
is the log file if there is to be one. Later starts emit their events and change nothing. With another
first level the same is logged up to the stricter of the two. -/
theorem first_start_decides {s : Session} (hs : s.logger = none) {before : List Action}
    (hbefore : ∀ a ∈ before, a.isStart = false) (env : Environment) (source : Source)
    (henv : env.filter = none) (hopen : s.CanOpen (source.log env)) (after : List Action) :
    let quiet := s.runAll before
    let t := quiet.runAll (.start env source :: after)
    (quiet.isSetUp = false ∧ quiet.console = [] ∧ quiet.logFile = none ∧ quiet.files = s.files) ∧
    (∃ emitted, t.world.events.toList = quiet.world.events.toList ++ .starting :: .ready :: emitted ∧
      quiet.Logs (source.log env) (.starting :: .ready :: emitted) t) ∧
    ∀ (env' : Environment) (source' : Source) (level : Level), env'.filter = none →
      source'.log env' = { source.log env with level } →
      (source.log env).level.rank ≤ level.rank →
      t.told = (quiet.runAll (.start env' source' :: after)).told.filter fun r =>
        r.level.rank ≤ (source.log env).level.rank := by
  intro quiet t
  have hquiet : quiet = { s with world := afterAll s.world before } :=
    runAll_of_settled (.inr hbefore)
  have hnone : quiet.logger = none := by
    rw [hquiet]
    exact hs
  have hopen' : quiet.CanOpen (source.log env) := by
    rw [hquiet]
    exact hopen
  have hworld : t.world = afterAll ((quiet.world.emit .starting).emit .ready) after := by
    simp only [t, runAll_start hnone hopen']
    rfl
  obtain ⟨emitted, hemitted⟩ := afterAll_grows ((quiet.world.emit .starting).emit .ready) after
  have hevents : t.world.events.toList =
      quiet.world.events.toList ++ .starting :: .ready :: emitted := by
    rw [hworld, ← hemitted]
    simp [World.emit]
  have hlogs := logs_start hnone hopen' henv after hevents
  refine ⟨⟨?_, ?_, ?_, ?_⟩, ⟨emitted, hevents, hlogs⟩, ?_⟩
  · simp only [isSetUp, hnone, Option.isSome_none]
  · simp only [console, hnone]
  · simp only [logFile, hnone]
  · rw [hquiet]
  · intro env' source' level henv' hlevel hle
    have hopen'' : quiet.CanOpen (source'.log env') := by
      rw [hlevel]
      exact hopen'
    have hother : (quiet.runAll (.start env' source' :: after)).world = t.world := by
      rw [hworld, runAll_start hnone hopen'']
      rfl
    have hevents' := (congrArg (fun w : World => w.events.toList) hother).trans hevents
    rw [told_start hnone hopen' henv after hevents, told_start hnone hopen'' henv' after hevents',
      List.filter_filter, hlevel]
    refine List.filter_congr fun r _ => ?_
    have himp : r.level.rank ≤ (source.log env).level.rank → r.level.rank ≤ level.rank := by omega
    rw [Bool.eq_iff_iff, Bool.and_eq_true, decide_eq_true_eq, decide_eq_true_eq]
    exact ⟨fun h => ⟨h, himp h⟩, And.left⟩

/-! A call that access checks refuse, and a second start, under two levels. -/

def withheld : Method := ⟨"demo.Host", "withheld", .isPrivate, false, true, 0⟩

def withheldCall : Program :=
  .wrap withheld {} fun
    | .ok v => .call v [] .empty .finish
    | .error e => .raise e

def logging (level : String) : Source :=
  .settings { logging := { level, file := some "/var/log/host.log" } }

def stopped : Session := (startedIn ["home"]).runAll [.emit .stopping]

def loggedRun (level : String) : Session :=
  stopped.runAll [.start {} (logging level), .run withheldCall, .start {} .environment]

def refusal : String :=
  "ERROR pyhost::logging: Illegal access to static native method event=\"access_denied\"" ++
    " method=\"private static demo.Host.withheld(*args, **kwargs)\""

theorem canOpen_logging (level : String) :
    (startedIn ["home"]).CanOpen ((logging level).log {}) := by
  rintro path - hp
  cases hp
  have hpath : Files.components "/var/log/host.log" = ["var", "log"] ++ ["host.log"] := by decide
  have hnames : ∀ step ∈ ["var", "log"] ++ ["host.log"],
      step ≠ ".." ∧ LogPlace.isName step = true := by decide
  -- Nothing but the working directory is there.
  have hempty : ∀ more, (startedIn ["home"]).files.find? ("var" :: more) = none := fun _ => rfl
  rw [LogPlace.openFile_of_free hpath hnames (by decide) (by decide)]
  · rfl
  · intro before hbefore hne content
    obtain rfl | ⟨more, rfl, -⟩ := List.prefix_cons_iff.mp hbefore
    · exact absurd rfl hne
    · exact fun h => nomatch (hempty more).symm.trans h
  · exact fun entries h => nomatch (hempty ["log", "host.log"]).symm.trans h

theorem first_start_decides_withheld :
    stopped.console = [] ∧
    (loggedRun "warn").told = [⟨.error, "pyhost::logging", "Illegal access to static native method",
      [("event", .text "access_denied"),
        ("method", .text "private static demo.Host.withheld(*args, **kwargs)")]⟩] ∧
    (loggedRun "trace").told.map (fun r => (r.level, r.message)) =
      [(.info, "pyhost runtime initializing"), (.debug, "interop subsystem initialized"),
        (.debug, "Static native method called"), (.error, "Illegal access to static native method"),
        (.debug, "operation completed"), (.info, "pyhost runtime initializing"),
        (.debug, "interop subsystem initialized")] ∧
    (loggedRun "warn").console = (lines refusal).map .line ∧
    (loggedRun "warn").logFile = some (["var", "log", "host.log"], lines refusal) ∧
    (loggedRun "warn").told =
      (loggedRun "trace").told.filter fun r => r.level.rank ≤ Level.warn.rank := by
  have hbefore : ∀ a ∈ [Action.emit .stopping], a.isStart = false := by simp [Action.isStart]
  have hlevel : ((logging "warn").log {}).level = .warn := by decide +kernel
  have hother : (logging "trace").log {} = { (logging "warn").log {} with level := .trace } := by
    decide +kernel
  obtain ⟨⟨-, hconsole, -, -⟩, ⟨emitted, -, hlogs⟩, hstrict⟩ :=
    first_start_decides (s := startedIn ["home"]) rfl hbefore {} (logging "warn") rfl
      (canOpen_logging "warn") [.run withheldCall, .start {} .environment]
  obtain ⟨place, -, hfile, -, hplace⟩ := hlogs.filed "/var/log/host.log" rfl rfl
  refine ⟨hconsole, by decide +kernel, by decide +kernel, ?_, ?_, ?_⟩
  · have hshown : (loggedRun "warn").given.map Entry.consoleLine = [refusal] := by decide +kernel
    have hlines := congrArg (List.flatMap fun line => (lines line).map ConsoleOutput.line) hshown
    rw [List.flatMap_map, List.flatMap_singleton] at hlines
    exact hlogs.console.trans hlines
  · have hshown : (loggedRun "warn").given.map Entry.fileLine = [refusal] := by decide +kernel
    have hlines := congrArg (List.flatMap lines) hshown
    rw [List.flatMap_map, List.flatMap_singleton] at hlines
    rw [hplace ["var", "log"] "host.log" (by decide) (by decide)] at hfile
    exact hfile.trans (congrArg (fun shown => some (_, shown)) hlines)
  · have h := hstrict {} (logging "trace") .trace rfl hother
    rw [hlevel] at h
    exact h (by decide)

end Session

end HostBridge

import HostBridge.Config.Load
import HostBridge.Proofs.Paths
import Mathlib.Data.List.Basic

/-! # Which file discovery finds

Discovery looks for two names in a directory, then in its parent, and so on up. Taken together these
are candidates in a row, of which it finds the first that loads. A candidate before it that is there
is reported, and has no other effect.
-/
namespace HostBridge.Settings

open Files (FileSystem ancestors components isAbsolute join parent?)

def candidatesIn (directory : String) : List String :=
  [join directory ".pyhostrc", join directory ".pyhostrc.toml"]

/-- The files that are looked at, in this order: both names in a directory, then in its parents. -/
def candidates (start : String) : List String := (ancestors start).flatMap candidatesIn

/-- From a path these directories go up, one step at a time, until no step is left. -/
structure Climbs (start : String) (directories : List String) : Prop where
  begins : directories.head? = some start
  up : directories.IsChain fun below above =>
    above.toList <+: below.toList ∧ isAbsolute above = isAbsolute below ∧
      components above = (components below).dropLast
  ends : ∀ top, directories.getLast? = some top → components top = []

variable (fs : FileSystem)

/-- The settings in a file, if it can be read and makes sense. -/
def loaded? (path : String) : Option Settings := (ofFile (fs.read path)).toOption

/-- The report of a file that is there and does not load. -/
def complaint? (path : String) : Option Event :=
  match ofFile (fs.read path) with
  | .ok _ => none
  | .error e => if fs.isThere path then some (.skipped path e.headline) else none

/-- Of these files the first that loads is found, or the default if none does. All files before it
that are there are reported in order. -/
inductive Finds (paths : List String) : Settings × List Event → Prop where
  | chosen {before after : List String} {path : String} {s : Settings}
      (order : paths = before ++ path :: after) (loads : loaded? fs path = some s)
      (first : ∀ p ∈ before, loaded? fs p = none) :
      Finds paths (s, before.filterMap (complaint? fs))
  | nothing (none : ∀ p ∈ paths, loaded? fs p = none) :
      Finds paths ({}, paths.filterMap (complaint? fs))

/-! ## Directories and their candidates -/

theorem ancestors_of_parent {path up : String} (h : parent? path = some up) :
    ancestors path = path :: ancestors up := by
  rw [ancestors, h]

theorem ancestors_of_top {path : String} (h : parent? path = none) : ancestors path = [path] := by
  rw [ancestors, h]

theorem Climbs.below {up : String} {directories : List String} (hc : Climbs up directories)
    {path : String} (h : parent? path = some up) : Climbs path (path :: directories) := by
  obtain ⟨rest, rfl⟩ := List.head?_eq_some_iff.mp hc.begins
  refine ⟨rfl, ?_, fun top ht => hc.ends top (by rwa [List.getLast?_cons_cons] at ht)⟩
  exact hc.up.cons_cons
    ⟨(Files.parent?_isPrefix h).1, Files.isAbsolute_parent? h, Files.components_parent? h⟩

theorem climbs_ancestors (start : String) : Climbs start (ancestors start) := by
  cases h : parent? start with
  | some up =>
    rw [ancestors_of_parent h]
    exact (climbs_ancestors up).below h
  | none =>
    rw [ancestors_of_top h]
    refine ⟨rfl, .singleton start, fun top ht => ?_⟩
    cases ht
    exact Files.components_of_top h
termination_by start.length
decreasing_by exact (Files.parent?_isPrefix h).2

theorem components_candidatesIn (directory : String) :
    (candidatesIn directory).map components =
      [components directory ++ [".pyhostrc"], components directory ++ [".pyhostrc.toml"]] := by
  rw [candidatesIn, List.map_cons, List.map_cons, List.map_nil,
    Files.components_join (by decide) (by decide), Files.components_join (by decide) (by decide)]

/-! ## Files in a row -/

def firstLoaded (paths : List String) : Option Settings × List Event :=
  (paths.findSome? (loaded? fs),
    (paths.takeWhile fun p => (loaded? fs p).isNone).filterMap (complaint? fs))

theorem takeWhile_of_forall_none {paths : List String} (h : ∀ p ∈ paths, loaded? fs p = none)
    (rest : List String) :
    (paths ++ rest).takeWhile (fun p => (loaded? fs p).isNone) =
      paths ++ rest.takeWhile fun p => (loaded? fs p).isNone :=
  List.takeWhile_append_of_pos fun p hp => by rw [h p hp]; rfl

theorem firstLoaded_of_some {before after : List String} {path : String} {s : Settings}
    (hs : loaded? fs path = some s) (hbefore : ∀ p ∈ before, loaded? fs p = none) :
    firstLoaded fs (before ++ path :: after) = (some s, before.filterMap (complaint? fs)) := by
  have hfind : (before ++ path :: after).findSome? (loaded? fs) = some s :=
    List.findSome?_eq_some_iff.mpr ⟨before, path, after, rfl, hs, hbefore⟩
  have hstop : (path :: after).takeWhile (fun p => (loaded? fs p).isNone) = [] := by simp [hs]
  rw [firstLoaded, hfind, takeWhile_of_forall_none fs hbefore, hstop, List.append_nil]

theorem firstLoaded_of_none {paths : List String} (h : ∀ p ∈ paths, loaded? fs p = none) :
    firstLoaded fs paths = (none, paths.filterMap (complaint? fs)) := by
  have hstop := takeWhile_of_forall_none fs h []
  rw [List.append_nil, List.takeWhile_nil, List.append_nil] at hstop
  rw [firstLoaded, List.findSome?_eq_none_iff.mpr h, hstop]

theorem firstLoaded_cases (paths : List String) :
    (∃ before path after s, paths = before ++ path :: after ∧ loaded? fs path = some s ∧
      ∀ p ∈ before, loaded? fs p = none) ∨ ∀ p ∈ paths, loaded? fs p = none := by
  cases h : paths.findSome? (loaded? fs) with
  | none => exact .inr (List.findSome?_eq_none_iff.mp h)
  | some s =>
    obtain ⟨before, path, after, rfl, hs, hbefore⟩ := List.findSome?_eq_some_iff.mp h
    exact .inl ⟨before, path, after, s, rfl, hs, hbefore⟩

/-- One row of files after another is searched only if nothing was found in the first one. -/
theorem firstLoaded_append (paths rest : List String) :
    firstLoaded fs (paths ++ rest) =
      match firstLoaded fs paths with
      | (some s, reports) => (some s, reports)
      | (none, reports) => ((firstLoaded fs rest).1, reports ++ (firstLoaded fs rest).2) := by
  rcases firstLoaded_cases fs paths with ⟨before, path, after, s, rfl, hs, hbefore⟩ | hnone
  · rw [List.append_assoc, List.cons_append, firstLoaded_of_some fs hs hbefore,
      firstLoaded_of_some fs hs hbefore]
  · rw [firstLoaded_of_none fs hnone, firstLoaded, firstLoaded, List.findSome?_append,
      List.findSome?_eq_none_iff.mpr hnone, takeWhile_of_forall_none fs hnone,
      List.filterMap_append]
    rfl

/-- If the same files load, the same one is first, and the files to report are among the same ones. -/
theorem firstLoaded_of_same_loaded {other : FileSystem} {paths : List String}
    (h : ∀ p ∈ paths, loaded? other p = loaded? fs p) :
    ∃ s? before, before ⊆ paths ∧
      firstLoaded fs paths = (s?, before.filterMap (complaint? fs)) ∧
      firstLoaded other paths = (s?, before.filterMap (complaint? other)) := by
  rcases firstLoaded_cases fs paths with ⟨before, path, after, s, rfl, hs, hbefore⟩ | hnone
  · have hsub : before ⊆ before ++ path :: after := List.subset_append_left _ _
    have hs' : loaded? other path = some s := by rw [h path (by simp), hs]
    have hbefore' : ∀ p ∈ before, loaded? other p = none := by
      intro p hp
      rw [h p (hsub hp), hbefore p hp]
    exact ⟨some s, before, hsub, firstLoaded_of_some fs hs hbefore,
      firstLoaded_of_some other hs' hbefore'⟩
  · have hnone' : ∀ p ∈ paths, loaded? other p = none := by
      intro p hp
      rw [h p hp, hnone p hp]
    exact ⟨none, paths, List.Subset.refl _, firstLoaded_of_none fs hnone,
      firstLoaded_of_none other hnone'⟩

theorem finds_firstLoaded (paths : List String) :
    Finds fs paths ((firstLoaded fs paths).1.getD {}, (firstLoaded fs paths).2) := by
  rcases firstLoaded_cases fs paths with ⟨before, path, after, s, rfl, hs, hbefore⟩ | hnone
  · rw [firstLoaded_of_some fs hs hbefore]
    exact .chosen rfl hs hbefore
  · rw [firstLoaded_of_none fs hnone]
    exact .nothing hnone

theorem Finds.eq_firstLoaded {paths : List String} {found : Settings × List Event}
    (h : Finds fs paths found) :
    found = ((firstLoaded fs paths).1.getD {}, (firstLoaded fs paths).2) := by
  cases h with
  | chosen order loads first =>
    rw [order, firstLoaded_of_some fs loads first]
    rfl
  | nothing none =>
    rw [firstLoaded_of_none fs none]
    rfl

/-! ## The two loops -/

theorem isThere_of_ofFile {path : String} {s : Settings} (h : ofFile (fs.read path) = .ok s) :
    fs.isThere path = true := by
  cases hr : fs.read path with
  | ok text => exact fs.isThere_of_read hr
  | error e => rw [hr] at h; cases h

theorem firstLoaded_cons_of_error {path : String} {e : ConfigError}
    (h : ofFile (fs.read path) = .error e) (rest : List String) :
    firstLoaded fs (path :: rest) = ((firstLoaded fs rest).1,
      (if fs.isThere path then [.skipped path e.headline] else []) ++ (firstLoaded fs rest).2) := by
  have hnone : ∀ p ∈ [path], loaded? fs p = none := by simp [loaded?, h, Except.toOption]
  rw [← List.singleton_append, firstLoaded_append, firstLoaded_of_none fs hnone]
  by_cases hthere : fs.isThere path <;> simp [complaint?, h, hthere]

theorem searchIn_eq (directory : String) (names : List String) :
    searchIn fs directory names = firstLoaded fs (names.map (join directory)) := by
  induction names with
  | nil => rfl
  | cons name names ih =>
    rw [searchIn, List.map_cons, ih]
    cases hf : ofFile (fs.read (join directory name)) with
    | ok s =>
      have hs : loaded? fs (join directory name) = some s := by rw [loaded?, hf]; rfl
      have hfirst : firstLoaded fs ([] ++ join directory name :: names.map (join directory)) =
          (some s, []) := firstLoaded_of_some fs hs (by simp)
      rw [List.nil_append] at hfirst
      rw [hfirst, if_pos (isThere_of_ofFile fs hf)]
    | error e =>
      rw [firstLoaded_cons_of_error fs hf]
      by_cases hthere : fs.isThere (join directory name) <;> simp [hthere]

theorem searchIn_fileNames (directory : String) :
    searchIn fs directory fileNames = firstLoaded fs (candidatesIn directory) :=
  searchIn_eq fs directory fileNames

theorem candidates_of_parent {directory up : String} (h : parent? directory = some up) :
    candidates directory = candidatesIn directory ++ candidates up := by
  rw [candidates, ancestors_of_parent h, List.flatMap_cons, candidates]

theorem candidates_of_top {directory : String} (h : parent? directory = none) :
    candidates directory = candidatesIn directory := by
  rw [candidates, ancestors_of_top h, List.flatMap_cons, List.flatMap_nil, List.append_nil]

theorem discoverFrom_eq (directory : String) :
    discoverFrom fs directory =
      ((firstLoaded fs (candidates directory)).1.getD {},
        (firstLoaded fs (candidates directory)).2) := by
  -- Each round of the outer loop is the inner one on the next part of the row.
  fun_induction discoverFrom fs directory with
  | case1 directory s reports hs =>
    have hrow : ∃ rest, candidates directory = candidatesIn directory ++ rest := by
      rw [candidates, ancestors]
      exact ⟨_, List.flatMap_cons⟩
    obtain ⟨rest, hrest⟩ := hrow
    rw [searchIn_fileNames] at hs
    rw [hrest, firstLoaded_append, hs]
    rfl
  | case2 directory reports hs htop =>
    rw [searchIn_fileNames] at hs
    rw [candidates_of_top htop, hs]
    rfl
  | case3 directory reports hs up hup s later hlater ih =>
    rw [searchIn_fileNames] at hs
    rw [hlater] at ih
    rw [candidates_of_parent hup, firstLoaded_append, hs, (Prod.mk.inj ih).1, (Prod.mk.inj ih).2]

end HostBridge.Settings

namespace HostBridge

open Files (FileSystem ancestors components)
open Settings

/-- Discovery ends, and finds the first candidate that loads: the candidates have the two names in the
directory where it starts, then in its parents one after another. What it finds depends on nothing but
what the candidates hold: a file that does not load may as well not be there, and everything that is
seen of other files is none of its business. -/
theorem nearest_loadable_file_counts (fs : FileSystem) (start : String) :
    Climbs start (ancestors start) ∧
    (candidates start).map components = (ancestors start).flatMap (fun directory =>
      [components directory ++ [".pyhostrc"], components directory ++ [".pyhostrc.toml"]]) ∧
    (∀ found, Finds fs (candidates start) found ↔ discoverFrom fs start = found) ∧
    (∀ other : FileSystem,
      (∀ path ∈ candidates start, loaded? other path = loaded? fs path) →
      (discoverFrom other start).1 = (discoverFrom fs start).1) ∧
    ∀ other : FileSystem,
      (∀ path ∈ candidates start,
        other.isThere path = fs.isThere path ∧ other.read path = fs.read path) →
      discoverFrom other start = discoverFrom fs start := by
  refine ⟨climbs_ancestors start, ?_, fun found => ⟨fun h => ?_, ?_⟩, fun other h => ?_,
    fun other h => ?_⟩
  · rw [candidates, List.map_flatMap]
    exact List.flatMap_congr fun directory _ => components_candidatesIn directory
  · rw [discoverFrom_eq, h.eq_firstLoaded]
  · rintro rfl
    rw [discoverFrom_eq]
    exact finds_firstLoaded fs _
  · obtain ⟨s?, before, -, hfs, hother⟩ := firstLoaded_of_same_loaded fs h
    rw [discoverFrom_eq, discoverFrom_eq, hfs, hother]
  · have hloaded : ∀ path ∈ candidates start, loaded? other path = loaded? fs path := by
      intro path hp
      rw [loaded?, loaded?, (h path hp).2]
    obtain ⟨s?, before, hsub, hfs, hother⟩ := firstLoaded_of_same_loaded fs hloaded
    have hreports : before.filterMap (complaint? other) = before.filterMap (complaint? fs) := by
      refine List.filterMap_congr fun path hp => ?_
      rw [complaint?, complaint?, (h path (hsub hp)).1, (h path (hsub hp)).2]
    rw [discoverFrom_eq, discoverFrom_eq, hfs, hother, hreports]

/-! A file that is broken and a directory in the place of a file are reported, and do not hide the
settings above them: it is as if the directory of both were empty. -/

def treeOver (entries : List (String × Files.Node)) : Files.Node :=
  .directory [(".pyhostrc.toml", .file "interop = [false]".toUTF8), ("a", .directory entries)]

def brokenEntries : List (String × Files.Node) :=
  [(".pyhostrc", .file "[interop".toUTF8), (".pyhostrc.toml", .emptyDirectory)]

theorem candidates_home : candidates "/home/a" =
    ["/home/a/.pyhostrc", "/home/a/.pyhostrc.toml", "/home/.pyhostrc", "/home/.pyhostrc.toml",
      "/.pyhostrc", "/.pyhostrc.toml"] := by
  have hup : Files.parent? "/home/a" = some "/home" := by decide
  have htop : Files.parent? "/home" = some "/" := by decide
  have hroot : Files.parent? "/" = none := by decide
  rw [candidates_of_parent hup, candidates_of_parent htop, candidates_of_top hroot]
  decide

theorem nearest_loadable_file_counts_above :
    Settings.discover (treeOver brokenEntries) "/home" "a" =
      ({ calls := { trackStatistics := false } },
        [.skipped "/home/a/.pyhostrc" "Failed to parse config",
          .skipped "/home/a/.pyhostrc.toml" "Failed to access config"]) ∧
    (Settings.discover (treeOver brokenEntries) "/home" "a").1 =
      (Settings.discover (treeOver []) "/home" "a").1 := by
  let passed := ["/home/a/.pyhostrc", "/home/a/.pyhostrc.toml", "/home/.pyhostrc"]
  have hpassed : ∀ path ∈ passed,
      loaded? ((treeOver brokenEntries).mounted "/home") path = none := by decide +kernel
  have hreports : passed.filterMap (complaint? ((treeOver brokenEntries).mounted "/home")) =
      [.skipped "/home/a/.pyhostrc" "Failed to parse config",
        .skipped "/home/a/.pyhostrc.toml" "Failed to access config"] := by decide +kernel
  have hfound : loaded? ((treeOver brokenEntries).mounted "/home") "/home/.pyhostrc.toml" =
      some { calls := { trackStatistics := false } } := by decide +kernel
  constructor
  · rw [← hreports]
    exact ((nearest_loadable_file_counts _ "/home/a").2.2.1 _).mp
      (.chosen candidates_home hfound hpassed)
  · refine (nearest_loadable_file_counts ((treeOver []).mounted "/home") "/home/a").2.2.2.1
      ((treeOver brokenEntries).mounted "/home") ?_
    rw [candidates_home]
    simp only [List.forall_mem_cons, List.not_mem_nil, false_imp_iff, implies_true, and_true]
    refine ⟨?_, ?_, ?_, ?_, ?_, ?_⟩
    · decide
    · rfl
    · rfl
    · rfl
    · rfl
    · rfl

end HostBridge

import HostBridge.Log.Session
import HostBridge.Proofs.Paths
import HostBridge.Proofs.WrittenFile

/-! # Where a log file is

A log file is opened at the place that its path leads to from the working directory or, for an
absolute path, from the root of all files. Once it is open there is a file at this place.
-/
namespace HostBridge.LogPlace

open Files (Node components)
open Files.Node (find?)

/-- The place that steps lead to. A step back from the root stays there. -/
def after (place : LogPlace) (steps : List String) : LogPlace :=
  steps.foldl (fun place step => if step = ".." then place.dropLast else place ++ [step]) place

variable {root root' : Node} {here place place' : LogPlace} {path : String}

theorem after_of_enter {step : String} (h : enter root place step = some (root', place')) :
    place' = place.after [step] := by
  rw [after, List.foldl_cons, List.foldl_nil]
  unfold enter at h
  split at h
  · rename_i hback
    cases h
    rw [if_pos hback]
  · rename_i hforth
    rw [if_neg hforth]
    repeat' split at h
    all_goals cases h
    all_goals rfl

theorem after_of_enterAll {steps : List String}
    (h : enterAll root place steps = (root', some place')) : place' = place.after steps := by
  induction steps generalizing root place with
  | nil => cases h; rfl
  | cons step rest ih =>
    rw [enterAll] at h
    split at h
    · rename_i root₁ place₁ he
      rw [ih h, after_of_enter he]
      rfl
    · cases h

theorem openIn_eq {found : LogPlace} (h : openFile.openIn root place = (root', some found)) :
    found = place ∧ ∃ content, root'.find? place = some (.file content) := by
  unfold openFile.openIn at h
  split at h
  · cases h
  · rename_i content hf
    cases h
    exact ⟨rfl, content, hf⟩
  · cases h
    exact ⟨rfl, _, Node.find?_put_self _ _ _⟩

/-- A log file that could be opened is in the directory that its path names, and it is there. -/
theorem openFile_eq (h : openFile root here path = (root', some place)) :
    place = (base here (directoryPath path)).after (components (directoryPath path)) ++
        [fileName path] ∧
      ∃ content, root'.find? place = some (.file content) := by
  unfold openFile at h
  simp only at h
  split at h
  · cases h
  · split at h
    · cases h
    · rename_i he
      split at h
      · cases h
      · obtain ⟨hplace, hfile⟩ := openIn_eq h
        rw [after_of_enterAll he] at hplace hfile
        rw [hplace]
        exact ⟨rfl, hfile⟩

theorem directoryPath_of_parent {up : String} (h : Files.parent? path = some up) :
    directoryPath path = if up = "" then "." else up := by
  simp only [directoryPath, h]
  split <;> simp_all

theorem fileName_of_components {names : List String} {name : String}
    (h : components path = names ++ [name]) :
    fileName path = if name = ".." then defaultName else name := by
  simp only [fileName, h, List.getLast?_concat]
  split <;> simp_all

theorem directoryPath_of_components (here : List String) {names : List String} {name : String}
    (h : components path = names ++ [name]) :
    components (directoryPath path) = names ∧
      base here (directoryPath path) = base here path := by
  cases hp : Files.parent? path with
  | none =>
    rw [Files.components_of_top hp] at h
    simp at h
  | some up =>
    have hup := Files.components_parent? hp
    rw [h, List.dropLast_concat] at hup
    rw [directoryPath_of_parent hp, base, base, ← Files.isAbsolute_parent? hp]
    split
    · -- A path without a directory in front: its file is where a single point leads.
      rename_i hempty
      subst hempty
      exact ⟨hup, rfl⟩
    · exact ⟨hup, rfl⟩

/-- A path that ends in a name leads to a file of this name, over the steps before it. -/
theorem place_of_openFile {names : List String} {name : String}
    (h : openFile root here path = (root', some place))
    (hpath : components path = names ++ [name]) (hname : name ≠ "..") :
    place = (base here path).after names ++ [name] := by
  obtain ⟨hsteps, hbase⟩ := directoryPath_of_components here hpath
  rw [(openFile_eq h).1, hsteps, hbase, fileName_of_components hpath, if_neg hname]

/-! ## What can be opened -/

theorem enter_of_free {step : String} (hback : step ≠ "..") (hname : isName step = true)
    (hfree : ∀ content, root.find? (place ++ [step]) ≠ some (.file content)) :
    ∃ root', enter root place step = some (root', place ++ [step]) ∧
      ∀ more, more ≠ [] →
        root'.find? (place ++ [step] ++ more) = root.find? (place ++ [step] ++ more) := by
  cases hf : root.find? (place ++ [step]) with
  | none =>
    refine ⟨root.put (place ++ [step]) Node.emptyDirectory, by simp [enter, hback, hname, hf], ?_⟩
    intro more hmore
    obtain ⟨name, names, rfl⟩ := List.exists_cons_of_ne_nil hmore
    rw [Node.find?_append _ (place ++ [step]), Node.find?_append _ (place ++ [step]),
      Node.find?_put_self, hf]
    rfl
  | some node =>
    cases node with
    | file content => exact absurd hf (hfree content)
    | directory entries =>
      exact ⟨root, by simp [enter, hback, hname, hf], fun _ _ => rfl⟩

/-- Over names at which no file stands one gets from a directory to another one. What is below that
one stays as it is. -/
theorem enterAll_of_free {steps : List String}
    (hnames : ∀ step ∈ steps, step ≠ ".." ∧ isName step = true)
    (hfree : ∀ before, before <+: steps → before ≠ [] →
      ∀ content, root.find? (place ++ before) ≠ some (.file content)) :
    ∃ root', enterAll root place steps = (root', some (place ++ steps)) ∧
      ∀ name, root'.find? (place ++ steps ++ [name]) = root.find? (place ++ steps ++ [name]) := by
  induction steps generalizing root place with
  | nil => exact ⟨root, by rw [enterAll, List.append_nil], fun _ => rfl⟩
  | cons step rest ih =>
    obtain ⟨hback, hname⟩ := hnames step List.mem_cons_self
    obtain ⟨root₁, henter, hbelow⟩ := enter_of_free hback hname
      (hfree [step] (List.prefix_append [step] rest) (List.cons_ne_nil _ _))
    have hfree₁ : ∀ before, before <+: rest → before ≠ [] →
        ∀ content, root₁.find? (place ++ [step] ++ before) ≠ some (.file content) := by
      intro before hbefore hne content
      rw [hbelow before hne, List.append_assoc]
      exact hfree (step :: before) (List.cons_prefix_cons.mpr ⟨rfl, hbefore⟩)
        (List.cons_ne_nil _ _) content
    obtain ⟨root', hall, hsame⟩ :=
      ih (fun s hs => hnames s (List.mem_cons_of_mem _ hs)) hfree₁
    refine ⟨root', ?_, fun name => ?_⟩
    · rw [enterAll, henter]
      simpa using hall
    · have hmore := hbelow (rest ++ [name]) (by simp)
      have hlast := hsame name
      simp only [List.append_assoc, List.cons_append, List.nil_append] at hmore hlast ⊢
      rw [hlast, hmore]

/-- A log file can be opened where nothing is in the way: its path has names only and is short, no
file stands where a directory has to be, and no directory where the log file has to be. -/
theorem openFile_of_free {names : List String} {name : String}
    (hpath : components path = names ++ [name])
    (hnames : ∀ step ∈ names ++ [name], step ≠ ".." ∧ isName step = true)
    (hdirectory : isPath (directoryPath path) = true)
    (hfile : isPath (Files.join (directoryPath path) name) = true)
    (hfree : ∀ before, before <+: names → before ≠ [] →
      ∀ content, root.find? (base here path ++ before) ≠ some (.file content))
    (hlast : ∀ entries, root.find? (base here path ++ names ++ [name]) ≠ some (.directory entries)) :
    (openFile root here path).2 = some (base here path ++ names ++ [name]) := by
  obtain ⟨hsteps, hbase⟩ := directoryPath_of_components here hpath
  obtain ⟨hback, hname⟩ := hnames name (by simp)
  obtain ⟨root', hall, hsame⟩ :=
    enterAll_of_free (fun s hs => hnames s (List.mem_append_left _ hs)) hfree
  have hn : fileName path = name := by rw [fileName_of_components hpath, if_neg hback]
  simp only [openFile, hdirectory, hsteps, hbase, hall, hn, hname, hfile, openFile.openIn, hsame]
  simp only [Bool.not_true, Bool.or_self, Bool.false_eq_true, if_false]
  split
  · rename_i entries he
    exact absurd he (hlast entries)
  · rfl
  · rfl

end HostBridge.LogPlace

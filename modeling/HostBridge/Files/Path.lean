/-! # Paths

A path is a text of steps between slashes. Empty steps and single points lead nowhere and two points
lead back. The parent of a path is found in its text: nothing is looked up for it, and what stands
before the last step stays as it was written.
-/
namespace HostBridge.Files

def splitSlashes : List Char → List (List Char)
  | [] => [[]]
  | c :: rest =>
    match splitSlashes rest with
    | [] => [[c]]
    | part :: parts => if c = '/' then [] :: part :: parts else (c :: part) :: parts

/-- The steps of a path, empty ones included. -/
def steps (path : String) : List String := (splitSlashes path.toList).map String.ofList

def isAbsolute (path : String) : Bool := path.toList.head? = some '/'

def isStep (step : String) : Bool := step != "" && step != "."

def components (path : String) : List String := (steps path).filter isStep

/-- A path with another one behind it. An absolute path stands for itself. -/
def join (path more : String) : String :=
  if isAbsolute more then more
  else if path.toList.getLast?.all (· = '/') then path ++ more
  else path ++ "/" ++ more

/-! ## Parents -/

/-- What a path begins with, and the rest of it: the slash of an absolute path, or a point that is a
step, which counts only here. -/
def splitFront : List Char → List Char × List Char
  | '/' :: rest => (['/'], rest)
  | ['.'] => (['.'], [])
  | '.' :: '/' :: rest => (['.'], '/' :: rest)
  | cs => ([], cs)

/-- A text in reverse without the steps at its end that lead nowhere. -/
def dropIdle : List Char → List Char
  | '/' :: rest => dropIdle rest
  | ['.'] => []
  | '.' :: '/' :: rest => dropIdle rest
  | cs => cs

/-- A text in reverse without its last step, if it has one. -/
def dropStep? (cs : List Char) : Option (List Char) :=
  let shown := dropIdle cs
  if shown.isEmpty then none else some (dropIdle (shown.dropWhile (· != '/')))

/-- The path without its last step. A path without any step has no parent, but a point that it begins
with is taken away like a step. -/
def parent? (path : String) : Option String :=
  let (front, body) := splitFront path.toList
  match dropStep? body.reverse with
  | some up => some (String.ofList (front ++ up.reverse))
  | none => if front = ['.'] then some "" else none

theorem dropIdle_suffix (cs : List Char) : dropIdle cs <:+ cs := by
  fun_induction dropIdle cs with
  | case1 rest ih => exact ih.trans (List.suffix_cons _ _)
  | case2 => exact List.nil_suffix
  | case3 rest ih => exact ih.trans ((List.suffix_cons _ _).trans (List.suffix_cons _ _))
  | case4 cs => exact List.suffix_rfl

theorem head?_dropIdle (cs : List Char) : (dropIdle cs).head? ≠ some '/' := by
  fun_induction dropIdle cs with
  | case1 rest ih => exact ih
  | case2 => simp
  | case3 rest ih => exact ih
  | case4 cs hslash =>
    intro h
    obtain ⟨rest, rfl⟩ := List.head?_eq_some_iff.mp h
    exact hslash rest rfl

theorem dropStep?_suffix {cs up : List Char} (h : dropStep? cs = some up) :
    up <:+ cs ∧ up.length < cs.length := by
  have hshown := dropIdle_suffix cs
  have hhead := head?_dropIdle cs
  rw [dropStep?] at h
  cases hc : dropIdle cs with
  | nil => simp [hc] at h
  | cons c rest =>
    simp only [hc, List.isEmpty_cons, Bool.false_eq_true, if_false, Option.some.injEq] at h
    rw [hc] at hshown hhead
    have hdrop : (c :: rest).dropWhile (· != '/') = rest.dropWhile (· != '/') := by
      have hne : c ≠ '/' := by simpa using hhead
      simp [hne]
    have hup : up <:+ rest := by
      rw [← h, hdrop]
      exact (dropIdle_suffix _).trans (List.dropWhile_suffix _)
    refine ⟨hup.trans ((List.suffix_cons _ _).trans hshown), ?_⟩
    have hle := hup.length_le
    have hlt := hshown.length_le
    simp only [List.length_cons] at hlt
    omega

theorem splitFront_append (cs : List Char) : (splitFront cs).1 ++ (splitFront cs).2 = cs := by
  unfold splitFront
  split <;> rfl

/-- A parent is found in the text: it is the beginning of the path, and not all of it. -/
theorem parent?_isPrefix {path up : String} (h : parent? path = some up) :
    up.toList <+: path.toList ∧ up.length < path.length := by
  rw [← String.length_toList, ← String.length_toList]
  rw [parent?] at h
  have hpath := splitFront_append path.toList
  rcases hs : splitFront path.toList with ⟨front, body⟩
  simp only [hs] at h hpath
  cases hd : dropStep? body.reverse with
  | some rest =>
    simp only [hd, Option.some.injEq] at h
    obtain ⟨hsuffix, hlt⟩ := dropStep?_suffix hd
    rw [← h, ← hpath, String.toList_ofList, List.prefix_append_right_inj]
    refine ⟨by simpa using List.reverse_prefix.mpr hsuffix, ?_⟩
    simp only [List.length_append, List.length_reverse] at hlt ⊢
    omega
  | none =>
    simp only [hd, Option.ite_none_right_eq_some, Option.some.injEq] at h
    obtain ⟨rfl, rfl⟩ := h
    rw [← hpath]
    simp

/-- The path and its parents, nearest first. The last one has no parent. -/
def ancestors (path : String) : List String :=
  path :: match _h : parent? path with
    | some up => ancestors up
    | none => []
termination_by path.length
decreasing_by exact (parent?_isPrefix _h).2

end HostBridge.Files

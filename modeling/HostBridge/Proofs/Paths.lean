import HostBridge.Files.Path

/-! # The steps of a path

A path leads where its steps lead, those that lead nowhere left out. Its parent has all of them but
the last, and a name behind a path is one more.
-/
namespace HostBridge.Files

/-! ## Steps in a text -/

def stepsIn (cs : List Char) : List String := ((splitSlashes cs).map String.ofList).filter isStep

theorem components_ofList (cs : List Char) : components (String.ofList cs) = stepsIn cs := by
  rw [components, steps, String.toList_ofList, stepsIn]

theorem components_eq (path : String) : components path = stepsIn path.toList := rfl

theorem splitSlashes_ne_nil (cs : List Char) : splitSlashes cs ≠ [] := by
  fun_cases splitSlashes cs <;> simp

theorem splitSlashes_append_slash (before after : List Char) :
    splitSlashes (before ++ '/' :: after) = splitSlashes before ++ splitSlashes after := by
  induction before with
  | nil =>
    cases h : splitSlashes after with
    | nil => exact absurd h (splitSlashes_ne_nil after)
    | cons part parts => simp [splitSlashes, h]
  | cons c rest ih =>
    cases h : splitSlashes rest with
    | nil => exact absurd h (splitSlashes_ne_nil rest)
    | cons part parts =>
      rw [h] at ih
      by_cases hc : c = '/' <;> simp [splitSlashes, h, ih, hc]

theorem splitSlashes_of_not_mem {cs : List Char} (h : '/' ∉ cs) : splitSlashes cs = [cs] := by
  induction cs with
  | nil => rfl
  | cons c rest ih =>
    obtain ⟨hc, hrest⟩ := not_or.mp (mt List.mem_cons.mpr h)
    rw [splitSlashes, ih hrest]
    exact if_neg (Ne.symm hc)

theorem stepsIn_append_slash (before after : List Char) :
    stepsIn (before ++ '/' :: after) = stepsIn before ++ stepsIn after := by
  simp only [stepsIn, splitSlashes_append_slash, List.map_append, List.filter_append]

theorem stepsIn_of_isStep {cs : List Char} (hslash : '/' ∉ cs)
    (hs : isStep (String.ofList cs) = true) : stepsIn cs = [String.ofList cs] := by
  simp [stepsIn, splitSlashes_of_not_mem hslash, hs]

theorem stepsIn_nil : stepsIn [] = [] := by decide

theorem stepsIn_point : stepsIn ['.'] = [] := by decide

/-! ## Parents -/

/-- The end of a text that `dropIdle` has gone over is a step, or the text is empty. -/
theorem dropIdle_ends (cs : List Char) :
    dropIdle cs ≠ ['.'] ∧ ∀ rest, dropIdle cs ≠ '.' :: '/' :: rest := by
  fun_induction dropIdle cs with
  | case1 rest ih => exact ih
  | case2 => simp
  | case3 rest ih => exact ih
  | case4 cs hslash hpoint hidle => exact ⟨hpoint, hidle⟩

theorem stepsIn_dropIdle (cs : List Char) :
    stepsIn (dropIdle cs).reverse = stepsIn cs.reverse := by
  fun_induction dropIdle cs with
  | case1 rest ih =>
    rw [List.reverse_cons, stepsIn_append_slash, stepsIn_nil, List.append_nil, ih]
  | case2 => decide
  | case3 rest ih =>
    rw [List.reverse_cons, List.reverse_cons, List.append_assoc, List.singleton_append,
      stepsIn_append_slash, stepsIn_point, List.append_nil, ih]
  | case4 cs => rfl

/-- A text begins with a step. What follows it, if anything, begins with a slash. -/
theorem exists_firstStep (cs : List Char) : ∃ step, '/' ∉ step ∧
    (cs = step ∧ cs.dropWhile (· != '/') = [] ∨
      ∃ rest, cs = step ++ '/' :: rest ∧ cs.dropWhile (· != '/') = '/' :: rest) := by
  induction cs with
  | nil => exact ⟨[], List.not_mem_nil, .inl ⟨rfl, rfl⟩⟩
  | cons c rest ih =>
    by_cases hc : c = '/'
    · subst hc
      exact ⟨[], List.not_mem_nil, .inr ⟨rest, rfl, by simp⟩⟩
    · obtain ⟨step, hslash, h⟩ := ih
      refine ⟨c :: step, by simp [hslash, Ne.symm hc], ?_⟩
      rw [List.dropWhile_cons_of_pos (by simpa using hc)]
      refine h.imp ?_ ?_
      · rintro ⟨hstep, hdrop⟩
        exact ⟨congrArg (c :: ·) hstep, hdrop⟩
      · rintro ⟨after, hrest, hdrop⟩
        exact ⟨after, congrArg (c :: ·) hrest, hdrop⟩

/-- The text in reverse that is left without the last step has all the others. -/
theorem stepsIn_dropWhile {cs : List Char} (hne : cs ≠ []) (hhead : cs.head? ≠ some '/')
    (hpoint : cs ≠ ['.']) (hidle : ∀ rest, cs ≠ '.' :: '/' :: rest) :
    stepsIn (cs.dropWhile (· != '/')).reverse = (stepsIn cs.reverse).dropLast := by
  obtain ⟨step, hslash, h⟩ := exists_firstStep cs
  have hslash' : '/' ∉ step.reverse := mt List.mem_reverse.mp hslash
  rcases h with ⟨rfl, hdrop⟩ | ⟨rest, rfl, hdrop⟩
  · have hstep : isStep (String.ofList cs.reverse) = true := by
      simp [isStep, ← String.toList_inj, hne, hpoint]
    rw [hdrop, stepsIn_of_isStep hslash' hstep]
    exact stepsIn_nil
  · have hstep : isStep (String.ofList step.reverse) = true := by
      have hfirst : step ≠ [] := by
        rintro rfl
        exact hhead rfl
      have hsecond : step ≠ ['.'] := by
        rintro rfl
        exact hidle rest rfl
      simp [isStep, ← String.toList_inj, hfirst, hsecond]
    rw [hdrop, List.reverse_append, List.reverse_cons, List.append_assoc, List.singleton_append,
      stepsIn_append_slash, stepsIn_append_slash, stepsIn_nil, stepsIn_of_isStep hslash' hstep,
      List.append_nil, List.dropLast_concat]

theorem stepsIn_dropStep? {cs up : List Char} (h : dropStep? cs = some up) :
    stepsIn up.reverse = (stepsIn cs.reverse).dropLast := by
  simp only [dropStep?, Option.ite_none_left_eq_some, List.isEmpty_iff, Option.some.injEq] at h
  obtain ⟨hne, rfl⟩ := h
  rw [stepsIn_dropIdle, ← stepsIn_dropIdle cs]
  exact stepsIn_dropWhile hne (head?_dropIdle cs) (dropIdle_ends cs).1 (dropIdle_ends cs).2

theorem stepsIn_of_dropStep?_none {cs : List Char} (h : dropStep? cs = none) :
    stepsIn cs.reverse = [] := by
  simp only [dropStep?, ite_eq_left_iff, List.isEmpty_iff, reduceCtorEq, imp_false,
    Decidable.not_not] at h
  rw [← stepsIn_dropIdle, h]
  exact stepsIn_nil

/-- What a path begins with is no step of it. -/
theorem stepsIn_splitFront {cs front body : List Char} (hs : splitFront cs = (front, body))
    {shown : List Char} (h : shown <+: body) : stepsIn (front ++ shown) = stepsIn shown := by
  unfold splitFront at hs
  split at hs <;> cases hs
  · exact stepsIn_append_slash [] shown
  · rw [List.prefix_nil.mp h, List.append_nil, stepsIn_point, stepsIn_nil]
  · rcases List.prefix_cons_iff.mp h with rfl | ⟨after, rfl, -⟩
    · rw [List.append_nil, stepsIn_point, stepsIn_nil]
    · rw [stepsIn_append_slash, stepsIn_point, ← stepsIn_nil]
      exact (stepsIn_append_slash [] after).symm
  · rfl

theorem components_of_splitFront {path : String} {front body : List Char}
    (hs : splitFront path.toList = (front, body)) : components path = stepsIn body := by
  have hpath := splitFront_append path.toList
  rw [hs] at hpath
  rw [components_eq, ← hpath, stepsIn_splitFront hs List.prefix_rfl]

/-- The parent of a path has its steps without the last one. -/
theorem components_parent? {path up : String} (h : parent? path = some up) :
    components up = (components path).dropLast := by
  rw [parent?] at h
  rcases hs : splitFront path.toList with ⟨front, body⟩
  simp only [hs] at h
  rw [components_of_splitFront hs]
  cases hd : dropStep? body.reverse with
  | some rest =>
    simp only [hd, Option.some.injEq] at h
    have hrest : rest.reverse <+: body := by
      simpa using List.reverse_prefix.mpr (dropStep?_suffix hd).1
    rw [← h, components_ofList, stepsIn_splitFront hs hrest, stepsIn_dropStep? hd,
      List.reverse_reverse]
  | none =>
    simp only [hd, Option.ite_none_right_eq_some, Option.some.injEq] at h
    have hnone := stepsIn_of_dropStep?_none hd
    rw [List.reverse_reverse] at hnone
    rw [← h.2, hnone]
    decide

/-- A path without a parent has no step. -/
theorem components_of_top {path : String} (h : parent? path = none) : components path = [] := by
  rw [parent?] at h
  rcases hs : splitFront path.toList with ⟨front, body⟩
  simp only [hs] at h
  rw [components_of_splitFront hs]
  cases hd : dropStep? body.reverse with
  | some rest => simp [hd] at h
  | none => simpa using stepsIn_of_dropStep?_none hd

theorem isAbsolute_parent? {path up : String} (h : parent? path = some up) :
    isAbsolute up = isAbsolute path := by
  obtain ⟨rest, hrest⟩ := (parent?_isPrefix h).1
  rw [isAbsolute, isAbsolute, ← hrest]
  cases hup : up.toList with
  | cons c shown => rfl
  | nil =>
    -- The parent of an absolute path keeps the slash.
    rw [hup, List.nil_append] at hrest
    have hrelative : path.toList.head? ≠ some '/' := by
      intro hhead
      obtain ⟨body, hbody⟩ := List.head?_eq_some_iff.mp hhead
      rw [parent?, hbody, splitFront] at h
      cases hd : dropStep? body.reverse with
      | none => simp [hd] at h
      | some rest =>
        simp only [hd, Option.some.injEq] at h
        rw [← h, String.toList_ofList] at hup
        cases hup
    rw [List.nil_append, hrest]
    simpa using hrelative

/-! ## Names behind a path -/

theorem components_join {directory name : String} (hslash : '/' ∉ name.toList)
    (hs : isStep name = true) :
    components (join directory name) = components directory ++ [name] := by
  have hname : components name = [name] := by
    rw [components_eq, stepsIn_of_isStep hslash (by rwa [String.ofList_toList]),
      String.ofList_toList]
  have hrelative : isAbsolute name = false := by
    rw [isAbsolute]
    refine decide_eq_false fun hhead => hslash ?_
    exact List.mem_of_mem_head? hhead
  rw [join, hrelative, if_neg Bool.false_ne_true, ← hname]
  split
  · rename_i hend
    -- Nothing comes between them, but the directory ends in a slash if it is not empty.
    rcases List.eq_nil_or_concat directory.toList with hnil | ⟨before, c, hbefore⟩
    · rw [components_eq, components_eq directory, String.toList_append, hnil, stepsIn_nil]
      rfl
    · obtain rfl : c = '/' := by simpa [hbefore] using hend
      rw [components_eq, components_eq directory, components_eq name, String.toList_append, hbefore,
        List.concat_eq_append, List.append_assoc, List.singleton_append, stepsIn_append_slash,
        stepsIn_append_slash, stepsIn_nil, List.append_nil]
  · have hslashed : (directory ++ "/" ++ name).toList = directory.toList ++ '/' :: name.toList := by
      simp
    rw [components_eq, hslashed, stepsIn_append_slash]
    rfl

end HostBridge.Files

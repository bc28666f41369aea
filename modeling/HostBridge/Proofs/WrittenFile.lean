import HostBridge.Files.Tree

/-! # What is written to a file is read from it

A file is written at the place that its path leads to. The way there goes over directories, also where
it steps back, and these stay directories: so afterwards the path still leads to the same place, and
what is found there is the new file.
-/
namespace HostBridge.Files.Node

/-! ## Entries -/

section
variable {name other : String} {node : Node} {entries : List (String × Node)}

theorem lookup_setEntry_self : (setEntry name node entries).lookup name = some node := by
  induction entries with
  | nil => simp [setEntry]
  | cons entry rest ih =>
    by_cases h : entry.1 = name
    · simp [setEntry, h]
    · have hne : (name == entry.1) = false := by simpa using Ne.symm h
      rw [setEntry, if_neg h, List.lookup_cons, hne]
      exact ih

theorem lookup_setEntry_of_ne (h : other ≠ name) :
    (setEntry name node entries).lookup other = entries.lookup other := by
  induction entries with
  | nil =>
    have hne : (other == name) = false := by simpa using h
    simp [setEntry, List.lookup_cons, hne]
  | cons entry rest ih =>
    by_cases he : entry.1 = name
    · have hne : (other == name) = false := by simpa using h
      have hne' : (other == entry.1) = false := by rw [he, hne]
      rw [setEntry, if_pos he, List.lookup_cons, List.lookup_cons, hne, hne']
    · rw [setEntry, if_neg he, List.lookup_cons, List.lookup_cons, ih]

end

/-! ## Places -/

theorem find?_append (root : Node) (place more : List String) :
    root.find? (place ++ more) = (root.find? place).bind (find? more) := by
  induction place generalizing root with
  | nil => rfl
  | cons name names ih =>
    cases root with
    | file content => rfl
    | directory entries => cases h : entries.lookup name <;> simp [find?, h, ih]

theorem find?_put_self (root : Node) (place : List String) (new : Node) :
    (root.put place new).find? place = some new := by
  induction place generalizing root with
  | nil => cases root <;> rfl
  | cons name names ih =>
    cases root with
    | file content => simp [put, find?, ih]
    | directory entries => simp [put, find?, lookup_setEntry_self, ih]

/-- A directory stays one when something is put where no directory is. -/
theorem isDirectory_find?_put {root new : Node} {place here : List String}
    (hplace : ∀ entries, root.find? place ≠ some (directory entries))
    (hhere : ∃ entries, root.find? here = some (directory entries)) :
    ∃ entries, (root.put place new).find? here = some (directory entries) := by
  -- The two ways go down together. Where they part, what is put lies beside the other way.
  induction place generalizing root here with
  | nil =>
    obtain ⟨entries, he⟩ := hhere
    cases root with
    | directory entries => exact absurd rfl (hplace entries)
    | file content => cases here <;> cases he
  | cons name names ih =>
    cases root with
    | file content =>
      obtain ⟨entries, he⟩ := hhere
      cases here <;> cases he
    | directory entries =>
      cases here with
      | nil => exact ⟨_, rfl⟩
      | cons step rest =>
        by_cases hs : step = name
        · subst hs
          obtain ⟨inner, he⟩ := hhere
          simp only [find?] at hplace he
          cases hl : entries.lookup step with
          | none => simp [hl] at he
          | some child =>
            rw [hl, Option.bind_some] at he
            have hchild : ∀ entries, child.find? names ≠ some (directory entries) := by
              simpa [hl] using hplace
            simp only [put, find?, lookup_setEntry_self, hl, Option.getD_some, Option.bind_some]
            exact ih hchild ⟨inner, he⟩
        · simpa only [put, find?, lookup_setEntry_of_ne hs] using hhere

/-! ## Paths -/

/-- A path leads to the same place when every directory is still one. -/
theorem follow_eq_of_directories {root root' : Node}
    (h : ∀ here, (∃ entries, root.find? here = some (directory entries)) →
      ∃ entries, root'.find? here = some (directory entries))
    (steps : List String) {here place : List String} (hf : root.follow here steps = .ok place) :
    root'.follow here steps = .ok place := by
  induction steps generalizing here with
  | nil => exact hf
  | cons step rest ih =>
    rw [follow] at hf ⊢
    split at hf
    · cases hf
    · cases hf
    · rename_i entries hd
      obtain ⟨entries', hd'⟩ := h here ⟨entries, hd⟩
      rw [hd']
      simp only
      split at hf
      · rename_i hs
        rw [if_pos hs]
        exact ih hf
      · rename_i hs
        rw [if_neg hs]
        split at hf
        · rename_i hback
          rw [if_pos hback]
          split at hf
          · cases hf
          · rename_i htop
            rw [if_neg htop]
            exact ih hf
        · rename_i hforth
          rw [if_neg hforth]
          exact ih hf

theorem write_eq_ok {root saved : Node} {path : List String} {text : String}
    (h : root.write path text = .ok saved) :
    ∃ place, root.follow [] path = .ok place ∧
      (∀ entries, root.find? place ≠ some (directory entries)) ∧
      saved = root.put place (file text.toUTF8) := by
  unfold write at h
  simp only at h
  repeat' split at h
  all_goals cases h
  rename_i place hf _ hd
  exact ⟨place, hf, fun entries he => hd entries he, rfl⟩

theorem fromUTF8?_toUTF8 (text : String) : String.fromUTF8? text.toUTF8 = some text := by
  rw [String.fromUTF8?, String.toUTF8_eq_toByteArray, dif_pos text.isValidUTF8]
  rfl

theorem read_of_write {root saved : Node} {path : List String} {text : String}
    (h : root.write path text = .ok saved) : saved.read path = .ok text := by
  obtain ⟨place, hf, hplace, rfl⟩ := write_eq_ok h
  have hdirectories : ∀ here, (∃ entries, root.find? here = some (directory entries)) →
      ∃ entries, (root.put place (file text.toUTF8)).find? here = some (directory entries) :=
    fun here hd => isDirectory_find?_put hplace hd
  have hfollow := follow_eq_of_directories hdirectories path hf
  have hget : (root.put place (file text.toUTF8)).get path = .ok (file text.toUTF8) := by
    simp only [get, hfollow, find?_put_self]
  simp only [read, hget, fromUTF8?_toUTF8]

end HostBridge.Files.Node

import HostBridge.Proofs.Spelling

/-! # The writer of texts

Between double quotes the writer escapes what it has to, so every text is spelled there. Single
quotes have no escapes: the writer chooses them only for texts that show themselves. Either way the
text is read back, whatever it holds, and no carriage return is written bare, so making line ends
uniform does not touch what is written.
-/
namespace HostBridge.Document
namespace TextForm

/-! ## Between double quotes -/

section
variable {multiline : Bool} {c : Char}

theorem stands_of_not_isHidden (hquote : c ≠ '"') (hescape : c ≠ '\\') (hline : c ≠ '\n')
    (hh : isHidden c = false) : Stands ⟨'"', true, multiline⟩ c := by
  refine ⟨?_, hquote, fun _ => hescape⟩
  have hplain : isPlain c = true := by
    simp only [isHidden, isPlain, Bool.or_eq_false_iff, Bool.and_eq_false_iff, bne_eq_false_iff_eq,
      decide_eq_false_iff_not, Bool.or_eq_true, Bool.and_eq_true, decide_eq_true_eq,
      bne_iff_ne] at hh ⊢
    rcases hh.1 with (h | h) | h
    · exact .inr ⟨by omega, hh.2⟩
    · exact .inl h
    · exact absurd h hline
  simp [allows, hplain]

theorem isHidden_lt (hh : isHidden c = true) : c.toNat < 256 := by
  simp only [isHidden, Bool.or_eq_true, Bool.and_eq_true, decide_eq_true_eq] at hh
  omega

theorem basicChar_spells (hc : c ≠ '"') :
    (basicChar multiline c = [c] ∧ Stands ⟨'"', true, multiline⟩ c) ∨
      Escape c (basicChar multiline c) := by
  have short : ∀ e, escapeOf? e = some c → Escape c ['\\', e] := fun e h => .short h
  unfold basicChar
  split
  · rename_i h; subst h; exact .inr (short 'b' rfl)
  split
  · rename_i h; subst h; exact .inr (short 't' rfl)
  split
  · rename_i h
    subst h
    cases multiline with
    | false => exact .inr (short 'n' rfl)
    | true => exact .inl ⟨rfl, by decide, by decide, fun _ => by decide⟩
  split
  · rename_i h; subst h; exact .inr (short 'f' rfl)
  split
  · rename_i h; subst h; exact .inr (short 'r' rfl)
  split
  · rename_i h; subst h; exact .inr (short '\\' rfl)
  split
  · rename_i h; exact .inr (.code (isHidden_lt h))
  · rename_i hline _ _ hescape hh
    exact .inl ⟨rfl, stands_of_not_isHidden hc hescape hline (by simpa using hh)⟩

end

/-- The quotes that stand bare, together with those just before, are never three. -/
theorem spells_basicBody (multiline : Bool) (cs : List Char) {before : Nat} (hb : before ≤ 2) :
    Spells ⟨'"', true, multiline⟩ cs (basicBody multiline before cs) ∧
      quotes ⟨'"', true, multiline⟩ (basicBody multiline before cs) + before ≤ 2 := by
  have hne : ∀ c : Char, c ≠ '"' → c ≠ (⟨'"', true, multiline⟩ : TextForm).quote := fun _ h => h
  -- Any character but a bare quote lets the count begin anew, so it is held for every `before`.
  induction cs generalizing before with
  | nil => exact ⟨.nil, by simpa [basicBody] using hb⟩
  | cons c rest ih =>
    by_cases hc : c = '"'
    · subst hc
      cases hbare : multiline && decide (before < 2) with
      | true =>
        obtain ⟨hm, hlt⟩ := Bool.and_eq_true_iff.mp hbare
        have hroom : before + 1 ≤ 2 := of_decide_eq_true hlt
        obtain ⟨hs, hq⟩ := ih hroom
        have hwritten : basicBody multiline before ('"' :: rest) =
            '"' :: basicBody multiline (before + 1) rest := by
          rw [basicBody, if_pos rfl, if_pos hbare]
        rw [hwritten]
        refine ⟨.quote hm (by omega) hs, ?_⟩
        have hcount : quotes ⟨'"', true, multiline⟩ ('"' :: basicBody multiline (before + 1) rest) =
            quotes ⟨'"', true, multiline⟩ (basicBody multiline (before + 1) rest) + 1 :=
          quotes_quote
        omega
      | false =>
        have hwritten : basicBody multiline before ('"' :: rest) =
            ['\\', '"'] ++ basicBody multiline 0 rest := by
          rw [basicBody, if_pos rfl, if_neg (Bool.eq_false_iff.mp hbare)]
          rfl
        rw [hwritten]
        refine ⟨.escaped rfl (.short rfl) (ih (Nat.zero_le _)).1, ?_⟩
        rw [List.cons_append, quotes_of_ne (hne '\\' (by decide))]
        omega
    · have hwritten : basicBody multiline before (c :: rest) =
          basicChar multiline c ++ basicBody multiline 0 rest := by
        rw [basicBody, if_neg hc]
      rw [hwritten]
      have hrest := (ih (Nat.zero_le 2)).1
      have hchar : (basicChar multiline c = [c] ∧ Stands ⟨'"', true, multiline⟩ c) ∨
          Escape c (basicChar multiline c) := basicChar_spells hc
      rcases hchar with ⟨he, hs⟩ | he
      · rw [he, List.singleton_append, quotes_of_ne hs.ne_quote]
        exact ⟨.plain hs hrest, by omega⟩
      · refine ⟨.escaped rfl he hrest, ?_⟩
        obtain ⟨tail, htail⟩ := he.exists_eq_cons
        rw [htail, List.cons_append, quotes_of_ne (hne '\\' (by decide))]
        omega

/-! ## Between single quotes -/

theorem go_mono (x : Char) (cs : List Char) {run run' : Nat} (h : run ≤ run') :
    longestRun.go x run cs ≤ longestRun.go x run' cs := by
  induction cs generalizing run run' with
  | nil => exact h
  | cons c rest ih =>
    simp only [longestRun.go]
    split
    · exact ih (by omega)
    · omega

theorem add_quotes_le_go (form : TextForm) (cs : List Char) (run : Nat) :
    run + form.quotes cs ≤ longestRun.go form.quote run cs := by
  induction cs generalizing run with
  | nil => exact Nat.le_refl _
  | cons c rest ih =>
    by_cases hc : c = form.quote
    · subst hc
      have hrest := ih (run + 1)
      simp only [longestRun.go, if_true, quotes_quote]
      omega
    · simp only [longestRun.go, if_neg hc, quotes_of_ne hc]
      exact Nat.le_max_left _ _

theorem longestRun_le_cons (x c : Char) (cs : List Char) :
    longestRun x cs ≤ longestRun x (c :: cs) := by
  simp only [longestRun, longestRun.go]
  split
  · exact go_mono x cs (by omega)
  · exact Nat.le_max_right _ _

/-- A text without anything hidden and without too many quotes in a row spells itself. -/
theorem spells_self {form : TextForm} (he : form.escapes = false) {cs : List Char}
    (hallows : ∀ c ∈ cs, form.allows c = true) (hrun : longestRun form.quote cs ≤ form.room) :
    Spells form cs cs := by
  induction cs with
  | nil => exact .nil
  | cons c rest ih =>
    have hs : Spells form rest rest :=
      ih (fun d hd => hallows d (by simp [hd])) (Nat.le_trans (longestRun_le_cons _ c rest) hrun)
    by_cases hc : c = form.quote
    · subst hc
      have hq : form.quotes rest + 1 ≤ form.room := by
        have hgo := add_quotes_le_go form (form.quote :: rest) 0
        rw [quotes_quote, Nat.zero_add] at hgo
        exact Nat.le_trans hgo hrun
      cases hm : form.multiline with
      | false => simp [room, hm] at hq
      | true =>
        have h2 : form.quotes rest < 2 := Nat.lt_of_succ_le (by simpa [room, hm] using hq)
        exact .quote hm h2 hs
    · exact .plain ⟨hallows c (by simp), hc, by simp [he]⟩ hs

theorem allows_of_shows {form : TextForm} {cs : List Char} (h : form.shows cs = true) :
    (∀ c ∈ cs, form.allows c = true) ∧ longestRun form.quote cs ≤ form.room := by
  simp only [shows, Bool.and_eq_true, decide_eq_true_eq] at h
  obtain ⟨⟨⟨hhidden, -⟩, hrun⟩, hlines⟩ := h
  refine ⟨fun c hc => ?_, hrun⟩
  have hh : isHidden c = false := by
    have hall : ∀ c ∈ cs, isHidden c = false := by simpa using hhidden
    exact hall c hc
  by_cases hline : c = '\n'
  · subst hline
    have hm : form.multiline = true := by simpa [hc] using hlines
    simp [allows, hm]
  · simp [allows, isPlain, isHidden] at hh ⊢
    by_cases htab : c = '\t'
    · exact .inl (.inl htab)
    · have hshown : 0x20 ≤ c.toNat := by
        rcases Nat.lt_or_ge c.toNat 0x20 with hlt | hge
        · exact absurd (hh.1 hlt htab) hline
        · exact hge
      exact .inl (.inr ⟨hshown, hh.2⟩)

/-! ## The chosen form -/

/-- The characters between the quotes. -/
def inside (form : TextForm) (cs : List Char) : List Char :=
  if form.escapes then basicBody form.multiline 0 cs else cs

/-- A form that texts are written in, and the text is spelled between its quotes. -/
structure Suits (form : TextForm) (cs : List Char) : Prop where
  proper : form.Proper
  spells : Spells form cs (form.inside cs)

theorem suits_choose (cs : List Char) : (choose cs).Suits cs := by
  have double : ∀ multiline, Suits ⟨'"', true, multiline⟩ cs := fun multiline =>
    ⟨.inl ⟨rfl, rfl⟩, (spells_basicBody multiline cs (Nat.zero_le 2)).1⟩
  have single : ∀ multiline, shows ⟨'\'', false, multiline⟩ cs = true →
      Suits ⟨'\'', false, multiline⟩ cs := fun multiline h =>
    ⟨.inr ⟨rfl, rfl⟩, spells_self rfl (allows_of_shows h).1 (allows_of_shows h).2⟩
  unfold choose
  split
  · exact double false
  split
  · rename_i h; exact single false h
  split
  · exact double true
  split
  · rename_i h; exact single true h
  split
  · exact double true
  · exact double false

theorem open?_delimiter {form : TextForm} (hp : form.Proper) {tail : List Char}
    (hsingle : form.multiline = false → form.quotes tail < 2)
    (hmulti : form.multiline = true → tail.head? ≠ some '\n') :
    open? (form.delimiter ++ tail) = some (form, tail) := by
  rcases form with ⟨quote, escapes, multiline⟩
  simp only at hsingle hmulti
  -- One quote is not mistaken for the first of three, and no line end is taken away.
  have two : multiline = false → ∀ rest, tail ≠ quote :: quote :: rest := by
    rintro hm rest rfl
    have h2 := hsingle hm
    simp only [quotes, List.takeWhile_cons, decide_true, if_true, List.length_cons] at h2
    omega
  have line : multiline = true → ∀ rest, tail ≠ '\n' :: rest := by
    rintro hm rest rfl
    exact hmulti hm rfl
  rcases hp with ⟨rfl, rfl⟩ | ⟨rfl, rfl⟩ <;> cases multiline
  · exact open?.eq_3 tail (fun _ => two rfl _) (fun _ => two rfl _)
  · exact open?.eq_2 tail (line rfl)
  · exact open?.eq_6 tail (fun _ => two rfl _) (fun _ => two rfl _)
  · exact open?.eq_5 tail (line rfl)

/-- After three quotes a line end that the writer put there is passed over. -/
theorem open?_delimiter_newline {form : TextForm} (hp : form.Proper)
    (hm : form.multiline = true) (tail : List Char) :
    open? (form.delimiter ++ '\n' :: tail) = some (form, tail) := by
  rcases form with ⟨quote, escapes, multiline⟩
  simp only at hm
  subst hm
  rcases hp with ⟨rfl, rfl⟩ | ⟨rfl, rfl⟩ <;> rfl

theorem open?_write {form : TextForm} {cs tail : List Char} (h : form.Suits cs)
    (htail : form.quotes tail = 0) :
    open? (form.write cs ++ tail) = some (form, form.inside cs ++ form.delimiter ++ tail) := by
  have hwrite : form.write cs ++ tail = form.delimiter ++
      ((if form.multiline && cs.contains '\n' then ['\n'] else []) ++
        (form.inside cs ++ form.delimiter ++ tail)) := by
    simp [write, inside]
  rw [hwrite]
  cases hline : form.multiline && cs.contains '\n' with
  | true => exact open?_delimiter_newline h.proper (Bool.and_eq_true_iff.mp hline).1 _
  | false =>
    rw [if_neg Bool.false_ne_true, List.nil_append]
    refine open?_delimiter h.proper (fun hm => ?_) (fun hm => ?_)
    · have hzero := h.spells.quotes_eq_zero h.proper hm
      cases hin : form.inside cs with
      | nil =>
        have hone : form.delimiter ++ tail = form.quote :: tail := by simp [delimiter, hm]
        rw [List.nil_append, hone, quotes_quote, htail]
        exact Nat.lt_succ_self 1
      | cons c rest =>
        have hc : c ≠ form.quote := by
          rintro rfl
          rw [hin, quotes_quote] at hzero
          omega
        rw [List.cons_append, List.cons_append, quotes_of_ne hc]
        exact Nat.zero_lt_two
    · have hn : '\n' ∉ cs := by simpa [hm] using hline
      have hfirst := h.spells.head?_ne_newline h.proper hn
      cases hin : form.inside cs with
      | nil => simpa [delimiter, hm, List.replicate_succ] using h.proper.ne_newline
      | cons c rest => simpa [hin] using hfirst

/-! ## No carriage return -/

theorem Escape.return_not_mem {c : Char} {escape : List Char} (h : Escape c escape) :
    '\r' ∉ escape := by
  cases h with
  | @short e h =>
    have he : e ≠ '\r' := by
      rintro rfl
      cases h
    simpa using he.symm
  | code h =>
    have hdigit : ∀ n < 16, codeEscape.digit n ≠ '\r' := by decide
    have hhigh := hdigit (c.toNat / 16) (by omega)
    have hlow := hdigit (c.toNat % 16) (by omega)
    simpa [codeEscape] using ⟨hhigh.symm, hlow.symm⟩

theorem Spells.return_not_mem {form : TextForm} (hp : form.Proper) {cs written : List Char}
    (h : Spells form cs written) : '\r' ∉ written := by
  induction h with
  | nil => simp
  | plain hc _ ih =>
    have hne := hc.allows
    rintro (_ | ⟨_, hm⟩)
    · simp [TextForm.allows, isPlain] at hne
    · exact ih hm
  | quote _ _ _ ih =>
    have hne : '\r' ≠ form.quote := by rcases hp with ⟨h, -⟩ | ⟨h, -⟩ <;> rw [h] <;> decide
    simpa [hne] using ih
  | escaped _ he _ ih => simpa using ⟨he.return_not_mem, ih⟩

end TextForm

theorem return_not_mem_writeText (s : String) : '\r' ∉ (writeText s).toList := by
  have h := TextForm.suits_choose s.toList
  have hq : '\r' ≠ (TextForm.choose s.toList).quote := by
    rcases h.proper with ⟨hq, -⟩ | ⟨hq, -⟩ <;> rw [hq] <;> decide
  have hdelimiter : '\r' ∉ (TextForm.choose s.toList).delimiter := fun hm =>
    hq (List.eq_of_mem_replicate hm)
  have hinside := h.spells.return_not_mem h.proper
  simp only [TextForm.inside] at hinside
  simp only [writeText, TextForm.write, String.toList_ofList, List.mem_append, not_or]
  refine ⟨⟨⟨hdelimiter, ?_⟩, hinside⟩, hdelimiter⟩
  split <;> simp

/-- Any text is read back from what is written for it, if the line ends there. -/
theorem readText_writeText (s : String) (tail : List Char) :
    readText ((writeText s).toList ++ '\n' :: tail) = some (s, '\n' :: tail) := by
  have h := TextForm.suits_choose s.toList
  have htail : (TextForm.choose s.toList).quotes ('\n' :: tail) = 0 :=
    TextForm.quotes_of_ne h.proper.ne_newline.symm
  rw [writeText, String.toList_ofList, readText, TextForm.open?_write h htail]
  simp only [h.spells.body_eq h.proper htail, Option.map_some, String.ofList_toList]

end HostBridge.Document

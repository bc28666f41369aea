import HostBridge.Document.Writer

/-! # Written texts are read back

A text is written between quotes in one of four forms, chosen by what it holds. How characters may be
spelled between the quotes of a form is said here once, as a relation: a character stands as it is, or
it is escaped, or it is one of at most two quotes in a row where three close the text. The writer
only produces such spellings, and the reader gives back what they spell, up to the last quote.
-/
namespace HostBridge.Document
namespace TextForm

/-! ## Quotes in a row -/

/-- How many quotes stand in front. -/
def quotes (form : TextForm) (cs : List Char) : Nat := (cs.takeWhile (· = form.quote)).length

/-- How many quotes may stand in a row in the middle of a text. -/
def room (form : TextForm) : Nat := if form.multiline then 2 else 0

section
variable {form : TextForm} {c : Char} {cs tail : List Char}

@[simp] theorem quotes_nil : form.quotes [] = 0 := rfl

@[simp] theorem quotes_quote : form.quotes (form.quote :: cs) = form.quotes cs + 1 := by
  simp [quotes]

theorem quotes_of_ne (hc : c ≠ form.quote) : form.quotes (c :: cs) = 0 := by
  simp [quotes, hc]

theorem quotes_replicate_append (n : Nat) (htail : form.quotes tail = 0) :
    form.quotes (List.replicate n form.quote ++ tail) = n := by
  induction n with
  | zero => simpa using htail
  | succ n ih => rw [List.replicate_succ, List.cons_append, quotes_quote, ih]

/-- What follows a text that is not all quotes does not change how many there are in front. -/
theorem quotes_append (h : ∃ c ∈ cs, c ≠ form.quote) :
    form.quotes (cs ++ tail) = form.quotes cs := by
  induction cs with
  | nil => simp at h
  | cons d rest ih =>
    by_cases hd : d = form.quote
    · have hrest : ∃ c ∈ rest, c ≠ form.quote := by
        obtain ⟨c, hc, hne⟩ := h
        rcases List.mem_cons.mp hc with rfl | hc
        · exact absurd hd hne
        · exact ⟨c, hc, hne⟩
      rw [hd, List.cons_append, quotes_quote, quotes_quote, ih hrest]
    · rw [List.cons_append, quotes_of_ne hd, quotes_of_ne hd]

end

/-! ## Spellings -/

/-- A character of a text with escapes, as its escape: a letter after the backslash, or a code. -/
inductive Escape : Char → List Char → Prop where
  | short {c e : Char} (h : escapeOf? e = some c) : Escape c ['\\', e]
  | code {c : Char} (h : c.toNat < 256) : Escape c (codeEscape c)

/-- The character means itself. -/
structure Stands (form : TextForm) (c : Char) : Prop where
  allows : form.allows c = true
  ne_quote : c ≠ form.quote
  ne_escape : form.escapes = true → c ≠ '\\'

/-- The characters of a text, and how they are written between the quotes of a form. -/
inductive Spells (form : TextForm) : List Char → List Char → Prop where
  | nil : Spells form [] []
  | plain {c : Char} {cs written : List Char} (hc : form.Stands c) (hs : Spells form cs written) :
      Spells form (c :: cs) (c :: written)
  | quote {cs written : List Char} (hm : form.multiline = true) (hq : form.quotes written < 2)
      (hs : Spells form cs written) : Spells form (form.quote :: cs) (form.quote :: written)
  | escaped {c : Char} {escape cs written : List Char} (hf : form.escapes = true)
      (he : Escape c escape) (hs : Spells form cs written) :
      Spells form (c :: cs) (escape ++ written)

/-- The forms there are: texts between double quotes have escapes, those between single quotes none. -/
def Proper (form : TextForm) : Prop :=
  (form.quote = '"' ∧ form.escapes = true) ∨ (form.quote = '\'' ∧ form.escapes = false)

theorem Proper.ne_backslash {form : TextForm} (hp : form.Proper) : form.quote ≠ '\\' := by
  rcases hp with ⟨h, -⟩ | ⟨h, -⟩ <;> rw [h] <;> decide

theorem Proper.ne_newline {form : TextForm} (hp : form.Proper) : form.quote ≠ '\n' := by
  rcases hp with ⟨h, -⟩ | ⟨h, -⟩ <;> rw [h] <;> decide

theorem Proper.allows_quote {form : TextForm} (hp : form.Proper) :
    form.allows form.quote = true := by
  rcases hp with ⟨h, -⟩ | ⟨h, -⟩ <;> simp [allows, h, isPlain]

theorem Escape.exists_eq_cons {c : Char} {escape : List Char} (h : Escape c escape) :
    ∃ rest, escape = '\\' :: rest := by
  cases h with
  | short _ => exact ⟨_, rfl⟩
  | code _ => exact ⟨_, rfl⟩

/-! ## Reading a spelling -/

section
variable {form : TextForm} {c : Char} {tail : List Char}

theorem close?_eq_none (h : form.quotes tail ≤ form.room) : form.close? tail = none := by
  cases hm : form.multiline with
  | false =>
    have h0 : form.quotes tail = 0 := by simpa [room, hm] using h
    simp only [quotes] at h0
    simp [close?, hm, h0]
  | true =>
    have h3 : form.quotes tail < 3 := by
      have h2 : form.quotes tail ≤ 2 := by simpa [room, hm] using h
      omega
    simp only [quotes] at h3
    simp [close?, hm, h3]

theorem body_stands (hc : form.Stands c) :
    form.body .nothing (c :: tail) = withFirst c (form.body .nothing tail) := by
  have hclose : form.close? (c :: tail) = none := by
    apply close?_eq_none
    rw [quotes_of_ne hc.ne_quote]
    exact Nat.zero_le _
  have hescape : (form.escapes && decide (c = '\\')) = false := by
    cases he : form.escapes with
    | false => rfl
    | true => simpa using hc.ne_escape he
  rw [body]
  simp only [roleOf, hclose, hescape, hc.allows, if_true, Bool.false_eq_true, if_false]

theorem body_quote (hp : form.Proper) (hm : form.multiline = true) (hq : form.quotes tail < 2) :
    form.body .nothing (form.quote :: tail) = withFirst form.quote (form.body .nothing tail) := by
  have hclose : form.close? (form.quote :: tail) = none := by
    apply close?_eq_none
    simp only [quotes_quote, room, hm, if_true]
    omega
  rw [body]
  simp [roleOf, hclose, hp.allows_quote, hp.ne_backslash]

theorem hexDigit?_digit : ∀ n < 16, hexDigit? (codeEscape.digit n) = some n := by decide

theorem escapeOf?_ne {e : Char} (h : escapeOf? e = some c) :
    isBlank e = false ∧ e ≠ '\n' ∧ e ≠ 'u' ∧ e ≠ 'U' := by
  unfold escapeOf? at h
  repeat' split at h
  all_goals first | (subst_vars; decide) | cases h

theorem body_escape (hp : form.Proper) (hf : form.escapes = true) {escape : List Char}
    (he : Escape c escape) :
    form.body .nothing (escape ++ tail) = withFirst c (form.body .nothing tail) := by
  have hbegin : ∀ rest, form.body .nothing ('\\' :: rest) = form.body .escape rest := by
    intro rest
    have hclose : form.close? ('\\' :: rest) = none := by
      apply close?_eq_none
      rw [quotes_of_ne hp.ne_backslash.symm]
      exact Nat.zero_le _
    rw [body]
    simp [roleOf, hclose, hf]
  cases he with
  | short h =>
    obtain ⟨hblank, hline, hu, hU⟩ := escapeOf?_ne h
    rw [List.cons_append, List.cons_append, hbegin, body]
    simp [hblank, hline, hu, hU, h]
  | code h =>
    have hhigh := hexDigit?_digit (c.toNat / 16) (by omega)
    have hlow := hexDigit?_digit (c.toNat % 16) (by omega)
    have hzero : hexDigit? '0' = some 0 := by decide
    have hchar : charOf? (16 * (c.toNat / 16) + c.toNat % 16) = some c := by
      have hn : 16 * (c.toNat / 16) + c.toNat % 16 = c.toNat := by omega
      rw [hn, charOf?, if_pos (show c.toNat.isValidChar from c.valid), Char.ofNat_toNat]
    simp only [codeEscape, List.cons_append, List.nil_append]
    rw [hbegin, body]
    simp [isBlank, body, hzero, hhigh, hlow, hchar]

/-- At the end up to two quotes belong to the text if it is closed by three. -/
theorem body_closes {n : Nat} (hn : n ≤ form.room) (htail : form.quotes tail = 0) :
    form.body .nothing (List.replicate n form.quote ++ form.delimiter ++ tail) =
      some (List.replicate n form.quote, tail) := by
  cases hm : form.multiline with
  | false =>
    have h0 : n = 0 := by simpa [room, hm] using hn
    subst h0
    simp only [delimiter, hm, Bool.false_eq_true, if_false, List.replicate_zero, List.nil_append,
      List.replicate_one, List.cons_append]
    rw [body]
    simp [roleOf, close?, hm]
  | true =>
    have h2 : n ≤ 2 := by simpa [room, hm] using hn
    have hcount : ((List.replicate (n + 3) form.quote ++ tail).takeWhile
        (· = form.quote)).length = n + 3 := quotes_replicate_append (n + 3) htail
    have hdrop : (List.replicate (n + 3) form.quote ++ tail).drop (n + 3) = tail :=
      List.drop_left' List.length_replicate
    have hclose : form.close? (List.replicate (n + 3) form.quote ++ tail) =
        some (List.replicate n form.quote, tail) := by
      have hmin : min (n + 3) 5 = n + 3 := by omega
      simp only [close?, hm, if_true, hcount, hmin, hdrop, Nat.add_sub_cancel]
      rw [if_neg (by omega)]
    have hwritten : List.replicate n form.quote ++ form.delimiter ++ tail =
        List.replicate (n + 3) form.quote ++ tail := by
      rw [delimiter, if_pos hm, List.replicate_append_replicate]
    rw [hwritten]
    rw [List.replicate_succ, List.cons_append] at hclose ⊢
    rw [body]
    simp only [roleOf, hclose]

end

namespace Spells
variable {form : TextForm} {cs written tail : List Char}

theorem eq_of_all_quotes (hp : form.Proper) (h : Spells form cs written)
    (hall : ∀ c ∈ written, c = form.quote) : cs = written := by
  induction h with
  | nil => rfl
  | plain hc _ _ => exact absurd (hall _ (by simp)) hc.ne_quote
  | quote _ _ _ ih => rw [ih fun c hc => hall c (by simp [hc])]
  | escaped _ he _ _ =>
    obtain ⟨rest, rfl⟩ := he.exists_eq_cons
    exact absurd (hall '\\' (by simp)).symm hp.ne_backslash

/-- The reader takes the spelling and the closing quotes and gives back what is spelled. -/
theorem body_eq (hp : form.Proper) (h : Spells form cs written) (htail : form.quotes tail = 0) :
    form.body .nothing (written ++ form.delimiter ++ tail) = some (cs, tail) := by
  induction h with
  | nil => exact body_closes (Nat.zero_le _) htail
  | plain hc _ ih => rw [List.cons_append, List.cons_append, body_stands hc, ih]; rfl
  | @quote cs written hm hq hs ih =>
    by_cases hall : ∀ c ∈ written, c = form.quote
    · -- Nothing but quotes is left, so they are read together with the closing ones.
      have hrun : written = List.replicate written.length form.quote :=
        List.eq_replicate_of_mem hall
      have hlen : form.quotes written = written.length := by
        rw [hrun, ← List.append_nil (List.replicate _ _), quotes_replicate_append _ quotes_nil]
        simp
      have hcs := hs.eq_of_all_quotes hp hall
      have hn : written.length + 1 ≤ form.room := by
        simp only [room, hm, if_true]
        omega
      have hclosed := body_closes hn htail
      rw [List.replicate_succ, ← hrun] at hclosed
      rw [hcs]
      exact hclosed
    · have hother : ∃ c ∈ written, c ≠ form.quote := by simpa using hall
      have hq' : form.quotes (written ++ form.delimiter ++ tail) < 2 := by
        rw [List.append_assoc, quotes_append hother]
        exact hq
      rw [List.cons_append, List.cons_append, body_quote hp hm hq', ih]
      rfl
  | escaped hf he _ ih => rw [List.append_assoc, List.append_assoc, body_escape hp hf he,
      ← List.append_assoc, ih]; rfl

theorem quotes_eq_zero (hp : form.Proper) (h : Spells form cs written)
    (hm : form.multiline = false) : form.quotes written = 0 := by
  cases h with
  | nil => rfl
  | plain hc _ => exact quotes_of_ne hc.ne_quote
  | quote hm' _ _ => cases hm.symm.trans hm'
  | escaped _ he _ =>
    obtain ⟨rest, rfl⟩ := he.exists_eq_cons
    exact quotes_of_ne hp.ne_backslash.symm

/-- A spelling has a line end only where the text has one. -/
theorem head?_ne_newline (hp : form.Proper) (h : Spells form cs written) (hn : '\n' ∉ cs) :
    written.head? ≠ some '\n' := by
  cases h with
  | nil => simp
  | plain hc _ => simp only [List.mem_cons, not_or] at hn; simpa using fun he => hn.1 he.symm
  | quote _ _ _ => simpa using hp.ne_newline
  | escaped _ he _ =>
    obtain ⟨rest, rfl⟩ := he.exists_eq_cons
    simp

end Spells

end TextForm
end HostBridge.Document

import HostBridge.Proofs.DictText
import HostBridge.Proofs.Labels
import Mathlib

/-! # Texts that tell values apart

What is printed of Nones, Bools, Ints and texts, and of lists and dicts of such values whose keys
are bare, can be read in one way only. The first character tells the type, a quoted text ends at its
first bare quote, and an Int at the first character that it cannot have. So a text and what follows
it determine the value, and the induction goes over what follows.
-/
namespace HostBridge
open Text

/-! ## Quoted texts -/

namespace Text

/-- What comes before the first bare quote, without backslashes, and what comes after it. -/
def unquoted : List Char → List Char × List Char
  | '\'' :: rest => ([], rest)
  | '\\' :: c :: rest => (c :: (unquoted rest).1, (unquoted rest).2)
  | c :: rest => (c :: (unquoted rest).1, (unquoted rest).2)
  | [] => ([], [])

theorem unquoted_quotedBody (cs rest : List Char) :
    unquoted (quotedBody cs ++ '\'' :: rest) = (cs, rest) := by
  induction cs with
  | nil => rfl
  | cons c cs ih =>
    have hcons : quotedBody (c :: cs) = quotedChar c ++ quotedBody cs := rfl
    rw [hcons, List.append_assoc]
    by_cases hb : c = '\\'
    · simp [quotedChar, hb, unquoted, ih]
    · by_cases hq : c = '\''
      · simp [quotedChar, hq, unquoted, ih]
      · rw [quotedChar, if_neg hb, if_neg hq, List.singleton_append, unquoted, ih]
        · exact hq
        · intro _ _ h _
          exact hb h

theorem quotedBody_append_inj {cs ds r s : List Char}
    (h : quotedBody cs ++ '\'' :: r = quotedBody ds ++ '\'' :: s) : cs = ds ∧ r = s := by
  have hcs := unquoted_quotedBody cs r
  rw [h, unquoted_quotedBody] at hcs
  cases hcs
  exact ⟨rfl, rfl⟩

end Text

/-! ## Ints -/

/-- Nothing follows, or a character that separates or closes the parts of a value. -/
def Ends (rest : List Char) : Prop := ∀ c ∈ rest.head?, c ∈ [',', ']', '\x7d']

def isIntChar (c : Char) : Bool := c.isDigit || c = '-'

theorem isIntChar_of_mem {i : Int} {c : Char} (h : c ∈ (toString i).toList) :
    isIntChar c = true := by
  have hdigits : ∀ n : Nat, c ∈ n.repr.toList → isIntChar c = true := by
    intro n hn
    have hdigit := Nat.isDigit_of_mem_toDigits (b := 10) (by decide) (by decide)
      (by simpa [Nat.repr] using hn)
    simp [isIntChar, hdigit]
  cases i with
  | ofNat n => exact hdigits n h
  | negSucc n =>
    have hc : c ∈ ("-" ++ (n + 1).repr).toList := h
    rw [String.toList_append, List.mem_append] at hc
    rcases hc with hc | hc
    · cases List.mem_singleton.mp hc
      rfl
    · exact hdigits _ hc

theorem exists_int_eq_cons (i : Int) :
    ∃ c rest, (toString i).toList = c :: rest ∧ isIntChar c = true := by
  cases htext : (toString i).toList with
  | nil =>
    have hempty : toString i = "" := String.toList_injective htext
    cases i with
    | ofNat n => exact absurd hempty Nat.repr_ne_empty
    | negSucc n =>
      have hne : "-" ++ (n + 1).repr ≠ "" := by simp
      exact absurd hempty hne
  | cons c rest =>
    refine ⟨c, rest, rfl, isIntChar_of_mem (i := i) ?_⟩
    rw [htext]
    exact List.mem_cons_self

theorem takeWhile_int_append (i : Int) {rest : List Char} (hr : Ends rest) :
    ((toString i).toList ++ rest).takeWhile isIntChar = (toString i).toList := by
  have hrest : rest.takeWhile isIntChar = [] := by
    cases rest with
    | nil => rfl
    | cons c rest =>
      have hc : isIntChar c = false := by
        have hmem := hr c rfl
        simp only [List.mem_cons, List.not_mem_nil, or_false] at hmem
        rcases hmem with rfl | rfl | rfl <;> rfl
      rw [List.takeWhile_cons, if_neg (by simp [hc])]
  rw [List.takeWhile_append_of_pos fun c hc => isIntChar_of_mem hc, hrest, List.append_nil]

theorem int_append_inj {i j : Int64} {r s : List Char} (hr : Ends r) (hs : Ends s)
    (h : (toString i.toInt).toList ++ r = (toString j.toInt).toList ++ s) : i = j ∧ r = s := by
  have htext := congrArg (List.takeWhile isIntChar) h
  rw [takeWhile_int_append _ hr, takeWhile_int_append _ hs] at htext
  have hrepr : i.toInt.repr = j.toInt.repr := String.toList_injective htext
  rw [htext] at h
  exact ⟨Int64.toInt_inj.mp (Int.repr_inj.mp hrepr), List.append_cancel_left h⟩

/-! ## Parts between brackets -/

section
variable {α β : Type} {write : α → List Char} {tree : α → β} {good : α → Prop}

/-- The text of `x` and what follows are the text of a good value and what follows that only if both
have the same tree, and the same follows. -/
def TellsApart (write : α → List Char) (tree : α → β) (good : α → Prop) (x : α) : Prop :=
  ∀ y r s, good y → Ends r → Ends s → write x ++ r = write y ++ s → tree x = tree y ∧ r = s

theorem intercalate_cons (sep part : List α) (rest : List (List α)) :
    sep.intercalate (part :: rest) = part ++ rest.flatMap (sep ++ ·) := by
  induction rest generalizing part with
  | nil => simp
  | cons next rest ih =>
    rw [List.intercalate_cons_cons, ih, List.flatMap_cons, List.append_assoc, List.append_assoc]

theorem ends_closed {closing : Char} (hc : closing ∈ [']', '\x7d']) (texts : List (List Char))
    (rest : List Char) : Ends (texts.flatMap (comma ++ ·) ++ closing :: rest) := by
  intro c h
  cases texts with
  | nil =>
    cases h
    exact List.mem_cons_of_mem _ hc
  | cons text texts =>
    cases h
    exact List.mem_cons_self

/-- Parts that each follow a comma. -/
theorem further_parts_inj {closing : Char} (hc : closing ∈ [']', '\x7d']) {xs ys : List α}
    (hxs : ∀ x ∈ xs, TellsApart write tree good x) (hys : ∀ y ∈ ys, good y) {r s : List Char}
    (h : (xs.map write).flatMap (comma ++ ·) ++ closing :: r =
      (ys.map write).flatMap (comma ++ ·) ++ closing :: s) :
    xs.map tree = ys.map tree ∧ r = s := by
  have hcomma : closing ≠ ',' := by
    rintro rfl
    revert hc
    decide
  induction xs generalizing ys with
  | nil =>
    cases ys with
    | nil => exact ⟨rfl, (List.cons.inj h).2⟩
    | cons y ys => exact absurd (List.cons.inj h).1 hcomma
  | cons x xs ih =>
    cases ys with
    | nil => exact absurd (List.cons.inj h).1.symm hcomma
    | cons y ys =>
      simp only [List.map_cons, List.flatMap_cons, List.append_assoc,
        List.append_cancel_left_eq] at h
      obtain ⟨hx, hxs⟩ := List.forall_mem_cons.mp hxs
      obtain ⟨hy, hys⟩ := List.forall_mem_cons.mp hys
      obtain ⟨htree, hrest⟩ := hx y _ _ hy (ends_closed hc _ _) (ends_closed hc _ _) h
      obtain ⟨htrees, hrs⟩ := ih hxs hys hrest
      exact ⟨by rw [List.map_cons, List.map_cons, htree, htrees], hrs⟩

theorem bracketed_inj {opening closing : Char} (hc : closing ∈ [']', '\x7d']) {xs ys : List α}
    (hxs : ∀ x ∈ xs, good x ∧ TellsApart write tree good x) (hys : ∀ y ∈ ys, good y)
    (hfirst : ∀ x, good x → ∃ c rest, write x = c :: rest ∧ c ≠ closing) {r s : List Char}
    (h : bracketed opening closing (xs.map write) ++ r =
      bracketed opening closing (ys.map write) ++ s) :
    xs.map tree = ys.map tree ∧ r = s := by
  simp only [bracketed, List.cons_append, List.cons.injEq, true_and, List.append_assoc,
    List.nil_append] at h
  cases xs with
  | nil =>
    cases ys with
    | nil => exact ⟨rfl, (List.cons.inj h).2⟩
    | cons y ys =>
      obtain ⟨c, rest, hw, hne⟩ := hfirst y (hys y List.mem_cons_self)
      rw [List.map_cons, intercalate_cons, hw] at h
      exact absurd (List.cons.inj h).1.symm hne
  | cons x xs =>
    obtain ⟨⟨hgood, hx⟩, hxs⟩ := List.forall_mem_cons.mp hxs
    cases ys with
    | nil =>
      obtain ⟨c, rest, hw, hne⟩ := hfirst x hgood
      rw [List.map_cons, intercalate_cons, hw] at h
      exact absurd (List.cons.inj h).1 hne
    | cons y ys =>
      obtain ⟨hy, hys⟩ := List.forall_mem_cons.mp hys
      simp only [List.map_cons, intercalate_cons, List.append_assoc] at h
      obtain ⟨htree, hrest⟩ := hx y _ _ hy (ends_closed hc _ _) (ends_closed hc _ _) h
      obtain ⟨htrees, hrs⟩ := further_parts_inj hc (fun x hx => (hxs x hx).2) hys hrest
      exact ⟨by rw [List.map_cons, List.map_cons, htree, htrees], hrs⟩

end

/-! ## Plain values -/

/-- The layer is of those that are printed unambiguously. -/
def Payload.isPlain : Payload → Bool
  | none | bool _ | int _ | str _ | list _ => true
  | dict entries => entries.all fun e => isBare e.1
  | float _ | callable _ | object _ _ => false

/-- The payloads are of the same plain type. -/
inductive Payload.SameType : Payload → Payload → Prop
  | none : SameType .none .none
  | bool (a b : Bool) : SameType (.bool a) (.bool b)
  | int (i j : Int64) : SameType (.int i) (.int j)
  | str (s t : String) : SameType (.str s) (.str t)
  | list (xs ys : List Value) : SameType (.list xs) (.list ys)
  | dict (xs ys : List (String × Value)) : SameType (.dict xs) (.dict ys)

namespace Value

/-- Nones, Bools, Ints and texts, and lists and dicts of such values; no key of a dict has a quote or
a backslash in it. -/
def IsPlain (v : Value) : Prop := v.Entirely fun u => u.payload.isPlain = true

/-- The type of the plain values whose text begins with the character. -/
def typeOpenedBy : Char → String
  | 'N' => "NoneType"
  | 'T' | 'F' => "bool"
  | '\'' => "str"
  | '[' => "list"
  | '\x7b' => "dict"
  | _ => "int"

theorem IsPlain.payload {v : Value} (hv : v.IsPlain) : v.payload.isPlain = true := hv v .refl

theorem IsPlain.of_within {u v : Value} (hv : v.IsPlain) (hu : u.Within v) : u.IsPlain :=
  (entirely_iff.mp hv).2 u hu

theorem IsPlain.entry {e : String × Value} {entries : List (String × Value)} {type : HostType}
    (hv : (mk (.dict entries) type).IsPlain) (he : e ∈ entries) :
    isBare e.1 = true ∧ e.2.IsPlain :=
  ⟨List.all_eq_true.mp hv.payload e he, hv.of_within (.entry he)⟩

theorem isPlain_scalar {p : Payload} (hp : p.isPlain = true) (hs : p.isScalar = true)
    (type : HostType) : (mk p type).IsPlain :=
  entirely_iff.mpr ⟨hp, fun _ hu => absurd hu (not_within_of_isScalar hs)⟩

theorem isPlain_list {items : List Value} (h : ∀ v ∈ items, v.IsPlain) (type : HostType) :
    (mk (.list items) type).IsPlain := by
  refine entirely_iff.mpr ⟨rfl, fun u hu => ?_⟩
  cases hu with
  | item hv => exact h u hv

theorem isPlain_dict {entries : List (String × Value)}
    (h : ∀ e ∈ entries, isBare e.1 = true ∧ e.2.IsPlain) (type : HostType) :
    (mk (.dict entries) type).IsPlain := by
  refine entirely_iff.mpr ⟨List.all_eq_true.mpr fun e he => (h e he).1, fun u hu => ?_⟩
  cases hu with
  | entry he => exact (h _ he).2

theorem typeOpenedBy_of_isIntChar {c : Char} (h : isIntChar c = true) : typeOpenedBy c = "int" := by
  unfold typeOpenedBy
  split
  case h_7 => rfl
  all_goals exact absurd h (by decide)

theorem exists_represented_eq_cons {v : Value} (hv : v.payload.isPlain = true) :
    ∃ c rest, v.represented = c :: rest ∧ typeOpenedBy c = v.typeName ∧ c ≠ ']' := by
  rcases v with ⟨p, type⟩
  cases p with
  | none => exact ⟨'N', "one".toList, rfl, rfl, by decide⟩
  | bool b =>
    cases b with
    | true => exact ⟨'T', "rue".toList, rfl, rfl, by decide⟩
    | false => exact ⟨'F', "alse".toList, rfl, rfl, by decide⟩
  | int i =>
    obtain ⟨c, rest, htext, hc⟩ := exists_int_eq_cons i.toInt
    refine ⟨c, rest, htext, typeOpenedBy_of_isIntChar hc, ?_⟩
    rintro rfl
    revert hc
    decide
  | str s =>
    refine ⟨'\'', quotedBody s.toList ++ ['\''], ?_, rfl, by decide⟩
    simp [represented, Payload.represented, quoted]
  | list items => exact ⟨'[', representedItems items, rfl, rfl, by decide⟩
  | dict entries => exact ⟨'\x7b', representedEntries entries, rfl, rfl, by decide⟩
  | float | callable | object => cases hv

theorem sameType_of_typeName_eq {p q : Payload} {type type' : HostType} (hp : p.isPlain = true)
    (hq : q.isPlain = true) (h : (mk p type).typeName = (mk q type').typeName) : p.SameType q := by
  cases p <;> cases q <;> first
    | constructor
    | exact absurd hp Bool.false_ne_true
    | exact absurd hq Bool.false_ne_true
    | exact absurd h (by simp [typeName, Value.payload])

/-- Values whose texts begin alike are of the same type. -/
theorem sameType_of_append_eq {v w : Value} (hv : v.payload.isPlain = true)
    (hw : w.payload.isPlain = true) {r s : List Char}
    (h : v.represented ++ r = w.represented ++ s) : v.payload.SameType w.payload := by
  obtain ⟨c, rest, hc, htype, -⟩ := exists_represented_eq_cons hv
  obtain ⟨d, rest', hd, htype', -⟩ := exists_represented_eq_cons hw
  rw [hc, hd] at h
  have hname : v.typeName = w.typeName := by rw [← htype, ← htype', (List.cons.inj h).1]
  rcases v with ⟨p, type⟩
  rcases w with ⟨q, type'⟩
  exact sameType_of_typeName_eq hv hw hname

/-- An entry with a bare key is told apart if its value is. -/
theorem tellsApart_entry {e : String × Value} (he : isBare e.1 = true)
    (hv : TellsApart represented unlabelled IsPlain e.2) :
    TellsApart representedEntry unlabelledEntry (fun f => isBare f.1 = true ∧ f.2.IsPlain) e := by
  rintro ⟨key', w⟩ r s ⟨hf, hw⟩ hr hs h
  rcases e with ⟨key, v⟩
  simp only [representedEntry_eq, List.cons_append, List.append_assoc, List.cons.injEq,
    true_and] at h
  rw [← quotedBody_of_isBare he, ← quotedBody_of_isBare hf] at h
  obtain ⟨hkey, hrest⟩ := quotedBody_append_inj h
  obtain ⟨htree, hrs⟩ := hv w r s hw hr hs (by simpa using hrest)
  have hname : key = key' := String.toList_injective hkey
  refine ⟨?_, hrs⟩
  rw [unlabelledEntry, unlabelledEntry, hname]
  exact congrArg (key', ·) htree

/-- The text of a plain value and what follows it determine the value, but for its host types, and
what follows. -/
theorem IsPlain.tellsApart {v : Value} (hv : v.IsPlain) :
    TellsApart represented unlabelled IsPlain v := by
  induction v using Value.induction with
  | step v ih =>
    intro w r s hw hr hs h
    have htype := sameType_of_append_eq hv.payload hw.payload h
    rcases v with ⟨p, host⟩
    rcases w with ⟨q, host'⟩
    change p.SameType q at htype
    cases htype with
    | none => exact ⟨rfl, List.append_cancel_left h⟩
    | bool a b =>
      cases a <;> cases b
      · exact ⟨rfl, List.append_cancel_left h⟩
      · exact absurd (List.cons.inj h).1 (by decide)
      · exact absurd (List.cons.inj h).1 (by decide)
      · exact ⟨rfl, List.append_cancel_left h⟩
    | int i j =>
      obtain ⟨rfl, hrs⟩ := int_append_inj hr hs h
      exact ⟨rfl, hrs⟩
    | str a b =>
      have hquoted : quotedBody a.toList ++ '\'' :: r = quotedBody b.toList ++ '\'' :: s := by
        simpa [represented, Payload.represented, quoted] using h
      obtain ⟨hab, hrs⟩ := quotedBody_append_inj hquoted
      obtain rfl := String.toList_injective hab
      exact ⟨rfl, hrs⟩
    | list xs ys =>
      rw [represented_list, represented_list] at h
      have hxs : ∀ x ∈ xs, x.IsPlain ∧ TellsApart represented unlabelled IsPlain x := fun x hx =>
        ⟨hv.of_within (.item hx), ih x (.item hx) (hv.of_within (.item hx))⟩
      obtain ⟨htrees, hrs⟩ := bracketed_inj (by decide) hxs (fun y hy => hw.of_within (.item hy))
        (fun x hx => by
          obtain ⟨c, rest, hc, -, hne⟩ := exists_represented_eq_cons hx.payload
          exact ⟨c, rest, hc, hne⟩) h
      refine ⟨?_, hrs⟩
      simp only [unlabelled, Payload.unlabelled, unlabelledItems_eq, htrees]
      rfl
    | dict xs ys =>
      rw [represented_dict, represented_dict] at h
      have hxs : ∀ e ∈ xs, (isBare e.1 = true ∧ e.2.IsPlain) ∧ TellsApart representedEntry
          unlabelledEntry (fun f => isBare f.1 = true ∧ f.2.IsPlain) e := by
        intro e he
        obtain ⟨hkey, hvalue⟩ := hv.entry he
        exact ⟨hv.entry he, tellsApart_entry hkey (ih e.2 (.entry he) hvalue)⟩
      obtain ⟨htrees, hrs⟩ := bracketed_inj (by decide) hxs (fun f hf => hw.entry hf)
        (fun e _ => ⟨'\'', _, representedEntry_eq e, by decide⟩) h
      refine ⟨?_, hrs⟩
      simp only [unlabelled, Payload.unlabelled, unlabelledEntries_eq, htrees]
      rfl

/-! ## Equal values -/

theorem IsPlain.eq_self {v : Value} (hv : v.IsPlain) : v.eq v = true := by
  refine eq_self_iff_entirely.mpr (hv.imp fun u hu => ?_)
  rcases u with ⟨p, type⟩
  cases p with
  | float => cases hu
  | none | bool | int | str | list | dict | callable | object => rfl

theorem map_eq_of_forall₂ {α β : Type} {R : α → α → Prop} {f : α → β} {xs ys : List α}
    (h : List.Forall₂ R xs ys) (hf : ∀ x ∈ xs, ∀ y ∈ ys, R x y → f x = f y) :
    xs.map f = ys.map f := by
  induction h with
  | nil => rfl
  | cons hxy _ ih =>
    rw [List.map_cons, List.map_cons, hf _ List.mem_cons_self _ List.mem_cons_self hxy]
    exact congrArg _ (ih fun x hx y hy => hf x (.tail _ hx) y (.tail _ hy))

/-- Plain values are equal only if they differ in nothing but host types. -/
theorem IsPlain.unlabelled_eq {v w : Value} (hv : v.IsPlain) (hw : w.IsPlain)
    (h : v.eq w = true) : v.unlabelled = w.unlabelled := by
  induction v using Value.induction generalizing w with
  | step v ih =>
    rcases v with ⟨p, host⟩
    rcases w with ⟨q, host'⟩
    have hm : p.Matches q := Value.eq_iff.mp h
    have hp : p.isPlain = true := hv.payload
    have hq : q.isPlain = true := hw.payload
    cases hm with
    | none | bool | int | str => rfl
    | float | floatInt | native | bound | closure | object => cases hp
    | intFloat => cases hq
    | list hxs =>
      have htrees := map_eq_of_forall₂ (f := unlabelled) hxs fun x hx y hy hxy =>
        ih x (.item hx) (hv.of_within (.item hx)) (hw.of_within (.item hy)) hxy
      simp only [unlabelled, Payload.unlabelled, unlabelledItems_eq, htrees]
      rfl
    | dict hes =>
      have htrees := map_eq_of_forall₂ (f := unlabelledEntry) hes fun e he f hf hef => by
        have htree := ih e.2 (.entry he) (hv.entry he).2 (hw.entry hf).2 hef.2
        rw [unlabelledEntry, unlabelledEntry, hef.1, htree]
      simp only [unlabelled, Payload.unlabelled, unlabelledEntries_eq, htrees]
      rfl

end Value

/-- Plain values are represented alike if and only if they differ in nothing but host types, and if
and only if they are equal. -/
theorem repr_tells_values_apart {v w : Value} (hv : v.IsPlain) (hw : w.IsPlain) :
    (v.repr = w.repr ↔ v.unlabelled = w.unlabelled) ∧ (v.repr = w.repr ↔ v.eq w = true) := by
  have htree : v.repr = w.repr ↔ v.unlabelled = w.unlabelled := by
    constructor
    · intro h
      have hnone : Ends [] := nofun
      have htexts : v.represented ++ [] = w.represented ++ [] := by
        rw [String.ofList_injective h]
      exact (hv.tellsApart w [] [] hw hnone hnone htexts).1
    · exact Value.observed_eq Value.repr_unlabelled
  refine ⟨htree, fun h => ?_, fun h => htree.mpr (hv.unlabelled_eq hw h)⟩
  have heq := Value.observed_eq (f := fun t => t.eq w) (fun t => Value.eq_unlabelled t w)
    (htree.mp h)
  exact heq.trans hw.eq_self

/-! A text that looks like two elements of a list, inside of a dict. -/

def oneText : Value := .ofEntries [("k", .ofList [.ofString "a', 'b", .ofInt (-1)])]

def twoTexts : Value := .ofEntries [("k", .ofList [.ofString "a", .ofString "b", .ofInt (-1)])]

theorem repr_tells_values_apart_looking_alike :
    oneText.IsPlain ∧ twoTexts.IsPlain ∧ oneText.repr ≠ twoTexts.repr := by
  have hdict : ∀ items : List Value, (∀ v ∈ items, v.IsPlain) →
      (Value.ofEntries [("k", .ofList items)]).IsPlain := by
    intro items hitems
    have hkey : isBare "k" = true := by decide
    refine Value.isPlain_dict (fun e he => ?_) .dict
    cases List.mem_singleton.mp he
    exact ⟨hkey, Value.isPlain_list hitems .list⟩
  have hone : oneText.IsPlain := by
    refine hdict _ fun v hv => ?_
    rcases List.mem_pair.mp hv with rfl | rfl <;> exact Value.isPlain_scalar rfl rfl _
  have htwo : twoTexts.IsPlain := by
    refine hdict _ fun v hv => ?_
    simp only [List.mem_cons, List.not_mem_nil, or_false] at hv
    rcases hv with rfl | rfl | rfl <;> exact Value.isPlain_scalar rfl rfl _
  exact ⟨hone, htwo, fun h => absurd ((repr_tells_values_apart hone htwo).2.mp h) (by decide)⟩

end HostBridge

import HostBridge.Proofs.SortedEntries
import HostBridge.Value.Equality
import HostBridge.Value.Text
import Mathlib.Algebra.GroupWithZero.Nat
import Mathlib.Algebra.Order.BigOperators.Group.List

/-! # How dicts are printed

A list and a dict are printed part by part, with commas between the parts, wherever in a value they
stand. The key of an entry is put between quotes as it is. That is how a text of this key would be
printed if there is no quote and no backslash in it, and only then.
-/
namespace HostBridge

/-! ## Quoted texts -/

namespace Text

/-- The character is written with a backslash before it when it stands in a quoted text. -/
def needsBackslash (c : Char) : Bool := c = '\\' || c = '\''

def isBare (s : String) : Bool := s.toList.all fun c => !needsBackslash c

theorem length_quotedBody (cs : List Char) :
    (quotedBody cs).length = cs.length + cs.countP needsBackslash := by
  induction cs with
  | nil => rfl
  | cons c rest ih =>
    have hcons : quotedBody (c :: rest) = quotedChar c ++ quotedBody rest := rfl
    rw [hcons, List.length_append, ih, List.length_cons, List.countP_cons]
    by_cases hb : c = '\\'
    · simp [quotedChar, needsBackslash, hb]
      omega
    · by_cases hq : c = '\''
      · simp [quotedChar, needsBackslash, hq]
        omega
      · simp [quotedChar, needsBackslash, hb, hq]
        omega

theorem isBare_iff {s : String} : isBare s = true ↔ s.toList.countP needsBackslash = 0 := by
  simp [isBare]

theorem quotedBody_of_isBare {s : String} (h : isBare s = true) :
    quotedBody s.toList = s.toList := by
  have hchar : ∀ c ∈ s.toList, quotedChar c = [c] := by
    intro c hc
    have hplain : needsBackslash c = false := by simpa using List.all_eq_true.mp h c hc
    simp only [needsBackslash, Bool.or_eq_false_iff, decide_eq_false_iff_not] at hplain
    rw [quotedChar, if_neg hplain.1, if_neg hplain.2]
  rw [quotedBody, List.flatMap_congr hchar]
  exact List.flatMap_singleton' _

end Text

open Text

/-! ## Parts with commas between them -/

section
variable {α : Type} (sep : List α)

theorem length_intercalate (parts : List (List α)) :
    (sep.intercalate parts).length =
      (parts.map List.length).sum + sep.length * (parts.length - 1) := by
  induction parts with
  | nil => rfl
  | cons part rest ih =>
    cases rest with
    | nil => simp
    | cons next rest =>
      rw [List.intercalate_cons_cons, List.length_append, List.length_append, ih]
      simp only [List.map_cons, List.sum_cons, List.length_cons, Nat.add_sub_cancel, Nat.mul_succ]
      omega

/-- Longer parts make a longer whole. -/
theorem intercalate_map_ne {β : Type} {f g : β → List α} {xs : List β}
    (hle : ∀ x ∈ xs, (f x).length ≤ (g x).length) (hlt : ∃ x ∈ xs, (f x).length < (g x).length) :
    sep.intercalate (xs.map f) ≠ sep.intercalate (xs.map g) := by
  intro h
  have hlen := congrArg List.length h
  have hsum := List.sum_lt_sum (fun x => (f x).length) (fun x => (g x).length) hle hlt
  rw [length_intercalate, length_intercalate, List.length_map, List.length_map, List.map_map,
    List.map_map, Nat.add_right_cancel_iff] at hlen
  exact absurd hlen (Nat.ne_of_lt hsum)

theorem isInfix_intercalate {part : List α} {parts : List (List α)} (h : part ∈ parts) :
    part <:+: sep.intercalate parts := by
  induction parts with
  | nil => cases h
  | cons first rest ih =>
    cases rest with
    | nil =>
      cases List.mem_singleton.mp h
      simp
    | cons next rest =>
      rw [List.intercalate_cons_cons, List.append_assoc]
      rcases List.mem_cons.mp h with rfl | h
      · exact (List.prefix_append _ _).isInfix
      · exact (ih h).trans ((List.suffix_append _ _).trans (List.suffix_append _ _)).isInfix

end

/-- What stands between two parts. -/
def comma : List Char := [',', ' ']

/-- The parts of a list or a dict between its brackets. -/
def bracketed (opening closing : Char) (parts : List (List Char)) : List Char :=
  opening :: (comma.intercalate parts ++ [closing])

theorem isInfix_bracketed {opening closing : Char} {part : List Char} {parts : List (List Char)}
    (h : part ∈ parts) : part <:+: bracketed opening closing parts :=
  (isInfix_intercalate comma h).trans
    ((List.prefix_append _ _).isInfix.trans (List.suffix_cons _ _).isInfix)

theorem representedItems_eq (items : List Value) :
    representedItems items = comma.intercalate (items.map Value.represented) ++ [']'] := by
  induction items with
  | nil => rfl
  | cons v rest ih =>
    cases rest with
    | nil => simp [representedItems]
    | cons w rest => simp [representedItems, ih, comma, List.intercalate_cons_cons]

theorem representedEntries_eq (entries : List (String × Value)) :
    representedEntries entries = comma.intercalate (entries.map representedEntry) ++ ['\x7d'] := by
  induction entries with
  | nil => rfl
  | cons e rest ih =>
    cases rest with
    | nil => simp [representedEntries]
    | cons f rest => simp [representedEntries, ih, comma, List.intercalate_cons_cons]

theorem representedEntry_eq (e : String × Value) :
    representedEntry e = '\'' :: (e.1.toList ++ '\'' :: ':' :: ' ' :: e.2.represented) := by
  rcases e with ⟨key, v⟩
  rfl

namespace Value

theorem represented_list (items : List Value) (type : HostType) :
    (mk (.list items) type).represented = bracketed '[' ']' (items.map represented) := by
  rw [represented, Payload.represented, representedItems_eq, bracketed]

theorem represented_dict (entries : List (String × Value)) (type : HostType) :
    (mk (.dict entries) type).represented =
      bracketed '\x7b' '\x7d' (entries.map representedEntry) := by
  rw [represented, Payload.represented, representedEntries_eq, bracketed]

/-! ## Values that are printed within a value -/

/-- The value is printed within another: as the element of a list or the value of a dict, at any
depth. What a bound method keeps is not printed. -/
inductive PrintedIn (u : Value) : Value → Prop
  | self : u.PrintedIn u
  | item {v : Value} {items : List Value} {type : HostType} (h : u.PrintedIn v) (hv : v ∈ items) :
      u.PrintedIn (mk (.list items) type)
  | entry {e : String × Value} {entries : List (String × Value)} {type : HostType}
      (h : u.PrintedIn e.2) (he : e ∈ entries) : u.PrintedIn (mk (.dict entries) type)

theorem PrintedIn.isInfix {u v : Value} (h : u.PrintedIn v) : u.represented <:+: v.represented := by
  induction h with
  | self => exact List.infix_rfl
  | item _ hv ih =>
    rw [represented_list]
    exact ih.trans (isInfix_bracketed (List.mem_map_of_mem hv))
  | @entry e entries type _ he ih =>
    have hvalue : e.2.represented <:+: representedEntry e := by
      rw [representedEntry_eq]
      exact ⟨'\'' :: e.1.toList ++ ['\'', ':', ' '], [], by simp⟩
    rw [represented_dict]
    exact ih.trans (hvalue.trans (isInfix_bracketed (List.mem_map_of_mem he)))

/-- The text of a dict whose keys are written in the given way. -/
def dictText (write : String → String) (entries : List (String × Value)) : String :=
  "\x7b" ++ ", ".intercalate (entries.map fun e => write e.1 ++ ": " ++ e.2.repr) ++ "\x7d"

theorem toList_dictText (write : String → String) (entries : List (String × Value)) :
    (dictText write entries).toList = bracketed '\x7b' '\x7d'
      (entries.map fun e => (write e.1).toList ++ ':' :: ' ' :: e.2.represented) := by
  simp [dictText, bracketed, comma, repr, Function.comp_def]

/-- The key between quotes, as it is. -/
def bareKey (key : String) : String := "'" ++ key ++ "'"

theorem repr_dict (entries : List (String × Value)) (type : HostType) :
    (mk (.dict entries) type).repr = dictText bareKey entries := by
  refine String.toList_injective ?_
  rw [repr, String.toList_ofList, represented_dict, toList_dictText]
  simp [bareKey, funext representedEntry_eq]

/-- The key as a text of its own is represented. -/
def quotedKey (key : String) : String := (ofString key).repr

theorem length_bareKey (key : String) : (bareKey key).toList.length = key.toList.length + 2 := by
  simp [bareKey]

theorem toList_quotedKey (key : String) :
    (quotedKey key).toList = '\'' :: quotedBody key.toList ++ ['\''] := by
  simp [quotedKey, repr, ofString, represented, Payload.represented, quoted]

theorem length_quotedKey (key : String) :
    (quotedKey key).toList.length = key.toList.length + key.toList.countP needsBackslash + 2 := by
  rw [toList_quotedKey, List.cons_append, List.length_cons, List.length_append, length_quotedBody]
  rfl

theorem quotedKey_eq_bareKey {key : String} (h : isBare key = true) :
    quotedKey key = bareKey key := by
  refine String.toList_injective ?_
  rw [toList_quotedKey, quotedBody_of_isBare h]
  simp [bareKey]

theorem dictText_bareKey_eq_iff (entries : List (String × Value)) :
    dictText bareKey entries = dictText quotedKey entries ↔ ∀ e ∈ entries, isBare e.1 = true := by
  constructor
  · -- A key that needs a backslash makes the text with quoted keys longer.
    intro h
    by_contra hkeys
    push Not at hkeys
    obtain ⟨e, he, hbare⟩ := hkeys
    have hlists := congrArg String.toList h
    simp only [toList_dictText, bracketed, List.cons.injEq, true_and, List.append_cancel_right_eq]
      at hlists
    refine intercalate_map_ne comma (fun f _ => ?_) ⟨e, he, ?_⟩ hlists
    · rw [List.length_append, List.length_append, length_bareKey, length_quotedKey]
      omega
    · have hmarks : e.1.toList.countP needsBackslash ≠ 0 := fun h0 => hbare (isBare_iff.mpr h0)
      rw [List.length_append, List.length_append, length_bareKey, length_quotedKey]
      omega
  · intro hkeys
    have hwrite : ∀ e ∈ entries,
        bareKey e.1 ++ ": " ++ e.2.repr = quotedKey e.1 ++ ": " ++ e.2.repr := by
      intro e he
      rw [quotedKey_eq_bareKey (hkeys e he)]
    rw [dictText, List.map_congr_left hwrite, dictText]

/-- Wherever in a value a dict is printed, its text stands there as a whole: the entries between
braces with commas between them, each as its key between quotes, a colon and its value as it is
represented. The entries of a dict that is made of any entries come in the order of their keys. The
keys are written as texts are represented if and only if no key has a quote or a backslash in it. -/
theorem dict_prints_entries {whole u : Value} {entries : List (String × Value)}
    (hu : u.PrintedIn whole) (hd : u.payload = .dict entries) :
    (∃ before after, whole.repr = before ++ u.repr ++ after) ∧
    u.display = u.repr ∧ u.repr = dictText bareKey entries ∧
    (∀ given, entries = sortEntries given → Ascending entries) ∧
    (u.repr = dictText quotedKey entries ↔ ∀ e ∈ entries, isBare e.1 = true) := by
  rcases u with ⟨p, type⟩
  cases hd
  refine ⟨?_, rfl, repr_dict entries type, ?_, ?_⟩
  · obtain ⟨before, after, h⟩ := hu.isInfix
    exact ⟨.ofList before, .ofList after, String.toList_injective (by simp [repr, ← h])⟩
  · rintro given rfl
    exact ascending_sortEntries given
  · rw [repr_dict]
    exact dictText_bareKey_eq_iff entries

/-! A list holds a dict with a key that has a quote in it, and inside of it a dict with bare keys. -/

def plainDict : Value := ofEntries [("b", ofInt 2), ("a", ofString "it's")]

def quotingDict : Value := ofEntries [("it's", plainDict)]

theorem dict_prints_entries_nested :
    (∃ before after, (ofList [none, quotingDict]).repr = before ++ plainDict.repr ++ after) ∧
    plainDict.repr = dictText quotedKey [("a", ofString "it's"), ("b", ofInt 2)] ∧
    quotingDict.repr ≠ dictText quotedKey [("it's", plainDict)] := by
  have hlist : quotingDict ∈ [none, quotingDict] := by simp
  have hquoting : quotingDict.PrintedIn (ofList [none, quotingDict]) := .item .self hlist
  have hplain : plainDict.PrintedIn (ofList [none, quotingDict]) :=
    .item (.entry (e := ("it's", plainDict)) .self List.mem_cons_self) hlist
  obtain ⟨hinside, -, -, -, hbare⟩ := dict_prints_entries hplain rfl
  obtain ⟨-, -, -, -, hquoted⟩ := dict_prints_entries hquoting rfl
  refine ⟨hinside, hbare.mpr (by decide), fun h => ?_⟩
  exact absurd (hquoted.mp h) (by decide)

/-- A key with a quote in it is not printed as a text is. So it can be mistaken for the end of the
key and for a further entry: two dicts that are not equal, and have not even as many entries, are
printed alike. -/
theorem key_mistaken_for_entries :
    let one := ofEntries [("a': 1, 'b", ofInt 2)]
    let two := ofEntries [("a", ofInt 1), ("b", ofInt 2)]
    one.repr ≠ dictText quotedKey [("a': 1, 'b", ofInt 2)] ∧ one.repr = two.repr ∧
      one.eq two = false := by
  decide

end Value

end HostBridge

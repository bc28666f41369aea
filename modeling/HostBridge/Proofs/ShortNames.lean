import HostBridge.Host.HostType
import Mathlib.Data.List.Infix
import Mathlib.Data.String.Basic

/-! # Short names of host types

A short name is the end of a name whose generic arguments are dropped. It begins behind the last pair
of colons, and with the name itself if there is none. Either place lies between two characters, so
there is always something to cut off there, and what stands among the arguments does not move it.
-/
namespace HostBridge

/-! ## The last pair of colons -/

theorem afterLastColons?_eq_none {cs : List Char} :
    afterLastColons? cs = none ↔ ¬ [':', ':'] <:+: cs := by
  fun_induction afterLastColons? cs with
  | case1 rest _ => simpa using (List.prefix_append [':', ':'] rest).isInfix
  | case2 c rest hpair ih =>
    have hfront : ¬ [':', ':'] <+: c :: rest := by
      rintro ⟨tail, he⟩
      obtain ⟨rfl, rfl⟩ := List.cons.inj he
      exact hpair tail rfl rfl
    rw [ih, List.infix_cons_iff, not_or]
    exact (and_iff_right hfront).symm
  | case3 => simp

/-- What is left over begins behind a pair of colons, and no pair comes later, not even one that
shares a colon with it. -/
theorem of_afterLastColons? {cs rest : List Char} (h : afterLastColons? cs = some rest) :
    (∃ path, cs = path ++ ':' :: ':' :: rest) ∧ ¬ [':', ':'] <:+: ':' :: rest := by
  fun_induction afterLastColons? cs with
  | case1 tail ih =>
    cases hlater : afterLastColons? (':' :: tail) with
    | none =>
      cases h.symm.trans (by rw [hlater, Option.getD_none])
      exact ⟨⟨[], rfl⟩, afterLastColons?_eq_none.mp hlater⟩
    | some later =>
      cases h.symm.trans (by rw [hlater, Option.getD_some])
      obtain ⟨⟨path, hpath⟩, hlast⟩ := ih hlater
      exact ⟨⟨':' :: path, by rw [hpath, List.cons_append]⟩, hlast⟩
  | case2 c tail _ ih =>
    obtain ⟨⟨path, hpath⟩, hlast⟩ := ih h
    exact ⟨⟨c :: path, by rw [hpath, List.cons_append]⟩, hlast⟩
  | case3 => cases h

theorem not_pair_of_not_mem {cs : List Char} (h : ':' ∉ cs) : ¬ [':', ':'] <:+: ':' :: cs := by
  rw [List.infix_cons_iff, not_or]
  constructor
  · rintro ⟨tail, he⟩
    exact h ((List.cons.inj he).2 ▸ List.mem_cons_self)
  · intro hpair
    exact h (hpair.subset List.mem_cons_self)

theorem afterLastColons?_append {last : List Char} (h : ':' ∉ last) (path : List Char) :
    afterLastColons? (path ++ ':' :: ':' :: last) = some last := by
  induction path with
  | nil =>
    rw [List.nil_append, afterLastColons?, afterLastColons?_eq_none.mpr (not_pair_of_not_mem h)]
    rfl
  | cons c path ih =>
    rw [List.cons_append, afterLastColons?.eq_def]
    split
    · rename_i rest he
      rw [← (List.cons.inj he).2, ih]
      rfl
    · rename_i rest _ he
      rw [← (List.cons.inj he).2, ih]
    · rename_i he
      cases he

/-! ## Cutting a name -/

namespace HostType

/-- The name up to its generic arguments. -/
def base (t : HostType) : String := String.ofList (t.name.toList.takeWhile (· != '<'))

/-- Part of a name between pairs of colons. -/
def IsSegment (s : String) : Prop := '<' ∉ s.toList ∧ ':' ∉ s.toList

instance : DecidablePred IsSegment := fun _ => inferInstanceAs (Decidable (_ ∧ _))

/-- Generic arguments with anything in them, or none. -/
def IsArguments (s : String) : Prop := s = "" ∨ ∃ inside, s = "<" ++ inside ++ ">"

/-- The position where the last segment of a text begins: behind the last pair of colons, where no
further one begins, or at the front of a text that has none. -/
inductive LastSegment (text : String) : String.Pos.Raw → String → Prop where
  | whole (none : ¬ "::".toList <:+: text.toList) : LastSegment text 0 text
  | behind {path segment : String} (he : text = path ++ "::" ++ segment)
      (last : ¬ "::".toList <:+: ':' :: segment.toList) :
      LastSegment text (path ++ "::").rawEndPos segment

theorem short_eq (t : HostType) :
    t.short = String.ofList ((afterLastColons? t.base.toList).getD t.base.toList) := by
  rw [short, shortName, base, String.toList_ofList]

theorem exists_name_eq (t : HostType) : ∃ arguments, t.name = t.base ++ arguments := by
  refine ⟨String.ofList (t.name.toList.dropWhile (· != '<')), ?_⟩
  rw [base, ← String.ofList_append, List.takeWhile_append_dropWhile, String.ofList_toList]

theorem not_mem_base (t : HostType) : '<' ∉ t.base.toList := by
  intro h
  rw [base, String.toList_ofList] at h
  simpa using List.all_eq_true.mp List.all_takeWhile _ h

theorem lastSegment_short (t : HostType) : ∃ start, LastSegment t.base start t.short := by
  rw [t.short_eq]
  cases h : afterLastColons? t.base.toList with
  | none =>
    rw [Option.getD_none, String.ofList_toList]
    exact ⟨0, .whole (afterLastColons?_eq_none.mp h)⟩
  | some segment =>
    obtain ⟨⟨path, hpath⟩, hlast⟩ := of_afterLastColons? h
    rw [Option.getD_some]
    have hbase : t.base = String.ofList path ++ "::" ++ String.ofList segment := by
      apply String.toList_injective
      simp [hpath]
    refine ⟨_, .behind hbase ?_⟩
    rw [String.toList_ofList (l := segment)]
    exact hlast

namespace LastSegment
variable {text segment : String} {start : String.Pos.Raw}

theorem exists_append (h : LastSegment text start segment) :
    ∃ path, text = path ++ segment ∧ start = path.rawEndPos := by
  cases h with
  | whole none => exact ⟨"", by simp, rfl⟩
  | behind he last => exact ⟨_, he, rfl⟩

theorem isValid (h : LastSegment text start segment) : start.IsValid text := by
  obtain ⟨path, he, hstart⟩ := h.exists_append
  exact String.Pos.Raw.isValid_iff_exists_append.mpr ⟨path, segment, he, hstart⟩

theorem isSuffix (h : LastSegment text start segment) : segment.toList <:+ text.toList := by
  obtain ⟨path, he, -⟩ := h.exists_append
  exact ⟨path.toList, by rw [he, String.toList_append]⟩

theorem not_pair (h : LastSegment text start segment) : ¬ "::".toList <:+: segment.toList := by
  cases h with
  | whole none => exact none
  | behind he last => exact fun hpair => last (hpair.trans (List.suffix_cons _ _).isInfix)

end LastSegment

/-! ## Names made of segments -/

theorem base_eq {path arguments : String} (hpath : '<' ∉ path.toList)
    (harguments : IsArguments arguments) : base ⟨path ++ arguments⟩ = path := by
  have hall : ∀ c ∈ path.toList, (c != '<') = true := by
    intro c hc
    simpa using ne_of_mem_of_not_mem hc hpath
  have hnone : arguments.toList.takeWhile (· != '<') = [] := by
    rcases harguments with rfl | ⟨inside, rfl⟩
    · rfl
    · simp
  rw [base, String.toList_append, List.takeWhile_append_of_pos hall, hnone, List.append_nil,
    String.ofList_toList]

theorem intercalate_concat (sep : List Char) (front : List (List Char)) (last : List Char) :
    sep.intercalate (front ++ [last]) = front.flatMap (· ++ sep) ++ last := by
  induction front with
  | nil => simp
  | cons part rest ih =>
    have hcons : sep.intercalate (part :: (rest ++ [last])) =
        part ++ sep ++ sep.intercalate (rest ++ [last]) := by
      cases rest <;> exact List.intercalate_cons_cons
    rw [List.cons_append, hcons, ih, List.flatMap_cons, List.append_assoc _ _ last]

theorem toList_path (front : List String) (last : String) :
    ("::".intercalate (front ++ [last])).toList =
      front.flatMap (fun s => s.toList ++ [':', ':']) ++ last.toList := by
  rw [String.toList_intercalate, List.map_append, List.map_singleton, intercalate_concat,
    List.flatMap_map]
  rfl

theorem not_mem_path {front : List String} {last : String} (hfront : ∀ s ∈ front, IsSegment s)
    (hlast : IsSegment last) : '<' ∉ ("::".intercalate (front ++ [last])).toList := by
  rw [toList_path, List.mem_append, not_or]
  refine ⟨fun h => ?_, hlast.1⟩
  obtain ⟨s, hs, hmem⟩ := List.mem_flatMap.mp h
  rcases List.mem_append.mp hmem with hmem | hmem
  · exact (hfront s hs).1 hmem
  · exact absurd hmem (by decide)

theorem afterLastColons?_path {front : List String} {last : String} (hlast : IsSegment last) :
    (afterLastColons? ("::".intercalate (front ++ [last])).toList).getD
      ("::".intercalate (front ++ [last])).toList = last.toList := by
  rw [toList_path]
  cases front using List.reverseRecOn with
  | nil =>
    have hnone : ¬ [':', ':'] <:+: last.toList := fun h => hlast.2 (h.subset List.mem_cons_self)
    rw [List.flatMap_nil, List.nil_append, afterLastColons?_eq_none.mpr hnone]
    rfl
  | append_singleton front s =>
    have hsplit : (front ++ [s]).flatMap (fun s => s.toList ++ [':', ':']) ++ last.toList =
        front.flatMap (fun s => s.toList ++ [':', ':']) ++ s.toList ++ ':' :: ':' :: last.toList := by
      simp
    rw [hsplit, afterLastColons?_append hlast.2]
    rfl

end HostType

open HostType

/-- The short name of a path is its last segment, whatever generic arguments follow the path. Every
short name is a contiguous part of the name without the sign that opens arguments and without a pair
of colons: it is what the base of the name has from a position on that lies inside this text. -/
theorem short_name_is_last_segment :
    (∀ (front : List String) (last arguments : String), (∀ s ∈ front, IsSegment s) →
      IsSegment last → IsArguments arguments →
      HostType.short ⟨"::".intercalate (front ++ [last]) ++ arguments⟩ = last) ∧
    ∀ t : HostType,
      (∃ start, LastSegment t.base start t.short ∧ start.IsValid t.base) ∧
      t.short.toList <:+: t.name.toList ∧
      '<' ∉ t.short.toList ∧ ¬ "::".toList <:+: t.short.toList := by
  constructor
  · intro front last arguments hfront hlast harguments
    rw [short_eq, base_eq (not_mem_path hfront hlast) harguments, afterLastColons?_path hlast,
      String.ofList_toList]
  · intro t
    obtain ⟨start, hshort⟩ := t.lastSegment_short
    obtain ⟨arguments, hname⟩ := t.exists_name_eq
    have hbase : t.base.toList <+: t.name.toList := by
      rw [hname, String.toList_append]
      exact List.prefix_append _ _
    exact ⟨⟨start, hshort, hshort.isValid⟩, hshort.isSuffix.isInfix.trans hbase.isInfix,
      fun h => t.not_mem_base (hshort.isSuffix.subset h), hshort.not_pair⟩

/-! A map type whose arguments are paths and tuples of generic types, some with colons of their own. -/

def nestedArguments : String :=
  "<" ++ "(a::B, [c::D<i64>; 2]), core::option::Option<:::>" ++ ">"

theorem short_name_is_last_segment_nested :
    HostType.short ⟨"::".intercalate (["alloc", "collections", "btree", "map"] ++ ["BTreeMap"]) ++
      nestedArguments⟩ = "BTreeMap" :=
  short_name_is_last_segment.1 ["alloc", "collections", "btree", "map"] "BTreeMap" nestedArguments
    (by decide) (by decide) (.inr ⟨_, rfl⟩)

end HostBridge

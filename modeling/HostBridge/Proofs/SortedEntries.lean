import HostBridge.Proofs.Parts
import Mathlib.Data.List.Sort
import Mathlib.Data.String.Basic

/-! # Entries in the order of their keys

Entries that are given one after another end up in strictly ascending order of their keys, and each
key has the value that was given for it last.
-/
namespace HostBridge.Value

/-- The keys ascend, so none occurs twice. -/
def Ascending (entries : List (String × Value)) : Prop := entries.Pairwise fun e f => e.1 < f.1

/-- The value that was given last for a key. -/
def latest (entries : List (String × Value)) (key : String) : Option Value :=
  entries.reverse.lookup key

namespace Ascending
variable {e : String × Value} {entries others : List (String × Value)}

theorem lt_of_mem (h : Ascending (e :: entries)) {f : String × Value} (hf : f ∈ entries) :
    e.1 < f.1 := (List.pairwise_cons.mp h).1 f hf

theorem tail (h : Ascending (e :: entries)) : Ascending entries := (List.pairwise_cons.mp h).2

theorem keys (h : Ascending entries) : (entries.map Prod.fst).Pairwise (· < ·) :=
  List.pairwise_map.mpr h

theorem nodup_keys (h : Ascending entries) : (entries.map Prod.fst).Nodup := by
  refine h.keys.imp ?_
  intro k l hkl he
  exact String.lt_irrefl l (he ▸ hkl)

theorem keys_eq (h : Ascending entries) (h' : Ascending others)
    (hk : ∀ key, key ∈ entries.map Prod.fst ↔ key ∈ others.map Prod.fst) :
    entries.map Prod.fst = others.map Prod.fst := by
  have hperm := (List.perm_ext_iff_of_nodup h.nodup_keys h'.nodup_keys).mpr hk
  refine hperm.eq_of_pairwise ?_ h.keys h'.keys
  intro k l _ _ hkl hlk
  exact absurd hlk (String.lt_asymm hkl)

theorem insertEntry (h : Ascending entries) (key : String) (value : Value) :
    Ascending (insertEntry key value entries) := by
  induction entries with
  | nil => exact List.pairwise_singleton _ _
  | cons first rest ih =>
    unfold Value.insertEntry
    split
    · rename_i hlt
      refine List.pairwise_cons.mpr ⟨?_, h⟩
      intro f hf
      rcases List.mem_cons.mp hf with rfl | hf
      · exact hlt
      · exact String.lt_trans hlt (h.lt_of_mem hf)
    split
    · rename_i heq
      refine List.pairwise_cons.mpr ⟨?_, h.tail⟩
      intro f hf
      have hfirst := h.lt_of_mem hf
      rwa [← heq] at hfirst
    · rename_i hnlt hne
      have hfirst : first.1 < key := lt_of_le_of_ne (not_lt.mp hnlt) (Ne.symm hne)
      refine List.pairwise_cons.mpr ⟨?_, ih h.tail⟩
      intro f hf
      rcases mem_insertEntry hf with rfl | hf
      · exact hfirst
      · exact h.lt_of_mem hf

end Ascending

theorem ascending_sortEntries (entries : List (String × Value)) :
    Ascending (sortEntries entries) := by
  induction entries using List.reverseRecOn with
  | nil => exact List.Pairwise.nil
  | append_singleton rest last ih =>
    rw [sortEntries, List.foldl_append, List.foldl_cons, List.foldl_nil]
    exact ih.insertEntry last.1 last.2

/-! ## Looking up -/

theorem lookup_cons_ite (e : String × Value) (rest : List (String × Value)) (key : String) :
    (e :: rest).lookup key = if key = e.1 then some e.2 else rest.lookup key := by
  rcases e with ⟨k, v⟩
  by_cases hk : key = k
  · rw [List.lookup_cons, if_pos hk, beq_iff_eq.mpr hk]
  · rw [List.lookup_cons, if_neg hk, beq_false_of_ne hk]

theorem lookup_insertEntry (key other : String) (value : Value) (entries : List (String × Value)) :
    (insertEntry key value entries).lookup other =
      if other = key then some value else entries.lookup other := by
  induction entries with
  | nil => rw [insertEntry, lookup_cons_ite]
  | cons first rest ih =>
    unfold insertEntry
    split
    · rw [lookup_cons_ite]
    split
    · rename_i heq
      rw [lookup_cons_ite, lookup_cons_ite first]
      by_cases ho : other = key
      · simp only [if_pos ho]
      · rw [if_neg ho, if_neg ho, if_neg (heq ▸ ho)]
    · rename_i hne
      rw [lookup_cons_ite, lookup_cons_ite first, ih]
      by_cases hf : other = first.1
      · have ho : other ≠ key := fun h => hne (h.symm.trans hf)
        rw [if_pos hf, if_neg ho, if_pos hf]
      · simp only [if_neg hf]

theorem lookup_sortEntries (entries : List (String × Value)) (key : String) :
    (sortEntries entries).lookup key = latest entries key := by
  induction entries using List.reverseRecOn with
  | nil => rfl
  | append_singleton rest last ih =>
    have hsorted : sortEntries (rest ++ [last]) =
        insertEntry last.1 last.2 (sortEntries rest) := by
      rw [sortEntries, List.foldl_append, List.foldl_cons, List.foldl_nil, sortEntries]
    have hlatest : latest (rest ++ [last]) key =
        if key = last.1 then some last.2 else latest rest key := by
      rw [latest, List.reverse_append, List.reverse_singleton, List.singleton_append,
        lookup_cons_ite, latest]
    rw [hsorted, hlatest, lookup_insertEntry, ih]

theorem mem_keys_iff_lookup {entries : List (String × Value)} {key : String} :
    key ∈ entries.map Prod.fst ↔ (entries.lookup key).isSome := by
  induction entries with
  | nil => simp
  | cons e rest ih =>
    rw [List.map_cons, List.mem_cons, ih, lookup_cons_ite]
    by_cases hk : key = e.1 <;> simp [hk]

theorem mem_keys_sortEntries {entries : List (String × Value)} {key : String} :
    key ∈ (sortEntries entries).map Prod.fst ↔ key ∈ entries.map Prod.fst := by
  rw [mem_keys_iff_lookup, lookup_sortEntries, latest, ← mem_keys_iff_lookup, List.map_reverse,
    List.mem_reverse]

end HostBridge.Value

import Cogniform.Lib.TreeMap
import Mathlib.Data.List.Nodup

/-!
# Entries kept in a table and in an order

Entries that are found by key and served in order are kept twice: in a map, and as a list of keys.
`Roster` says that the two are one list of entries, `Tally` the same of a set and a list.
-/

namespace Cogniform

variable {K V : Type} [Ord K] [Std.TransOrd K] [Std.LawfulEqOrd K] [DecidableEq K]

structure Roster (order : List K) (table : Std.ExtTreeMap K V) (entries : List (K × V)) : Prop where
  order_eq : order = entries.map Prod.fst
  nodup : order.Nodup
  get_iff : ∀ {k : K} {v : V}, table[k]? = some v ↔ (k, v) ∈ entries

omit [Ord K] [Std.TransOrd K] [Std.LawfulEqOrd K] [DecidableEq K] in
theorem idxOf?_middle [BEq K] [LawfulBEq K] {before after : List K} {k : K} (h : k ∉ before) :
    (before ++ k :: after).idxOf? k = some before.length := by
  rw [List.idxOf?_eq_some_iff]
  refine ⟨by simp, by simp [List.getElem_append_right], fun position hposition => ?_⟩
  rw [List.getElem_append_left hposition]
  exact fun heq => h (heq ▸ List.getElem_mem _)

namespace Roster

variable {order : List K} {table : Std.ExtTreeMap K V} {entries before after : List (K × V)}
  {k old : K} {v w : V}

omit [Std.LawfulEqOrd K] [DecidableEq K] in
theorem empty : Roster [] (∅ : Std.ExtTreeMap K V) [] := ⟨rfl, .nil, by simp⟩

omit [Std.LawfulEqOrd K] [DecidableEq K] in
theorem mem_table (h : Roster order table entries) : k ∈ table ↔ k ∈ order := by
  rw [TreeMap.mem_iff, h.order_eq, List.mem_map]
  constructor
  · rintro ⟨v, hget⟩
    exact ⟨(k, v), h.get_iff.mp hget, rfl⟩
  · rintro ⟨⟨_, v⟩, hmem, rfl⟩
    exact ⟨v, h.get_iff.mpr hmem⟩

omit [Std.LawfulEqOrd K] [DecidableEq K] in
theorem getElem?_middle (h : Roster order table (before ++ (k, v) :: after)) :
    table[k]? = some v := by
  rw [h.get_iff]
  simp

omit [Std.LawfulEqOrd K] [DecidableEq K] in
theorem order_middle (h : Roster order table (before ++ (k, v) :: after)) :
    order = before.map Prod.fst ++ k :: after.map Prod.fst := by
  rw [h.order_eq, List.map_append, List.map_cons]

omit [Std.LawfulEqOrd K] [DecidableEq K] in
theorem ne_of_mem (h : Roster order table (before ++ (k, v) :: after)) {entry : K × V}
    (hentry : entry ∈ before ++ after) : entry.1 ≠ k := by
  have hnodup := h.nodup
  rw [h.order_middle, List.nodup_middle, List.nodup_cons, ← List.map_append] at hnodup
  intro heq
  exact hnodup.1 (heq ▸ List.mem_map_of_mem hentry)

omit [Std.LawfulEqOrd K] [DecidableEq K] in
theorem idxOf?_eq [BEq K] [LawfulBEq K] (h : Roster order table (before ++ (k, v) :: after)) :
    order.idxOf? k = some before.length := by
  have hbefore : k ∉ before.map Prod.fst := by
    intro hmem
    obtain ⟨entry, hentry, heq⟩ := List.mem_map.mp hmem
    exact h.ne_of_mem (List.mem_append_left _ hentry) heq
  rw [h.order_middle, idxOf?_middle hbefore, List.length_map]

theorem push (h : Roster order table entries) (hfresh : k ∉ order) (v : V) :
    Roster (order ++ [k]) (table.insert k v) (entries ++ [(k, v)]) := by
  refine ⟨by rw [h.order_eq, List.map_append]; rfl, ?_, fun {a b} => ?_⟩
  · refine List.nodup_append.mpr ⟨h.nodup, List.nodup_singleton k, fun a ha b hb => ?_⟩
    rw [List.mem_singleton.mp hb]
    rintro rfl
    exact hfresh ha
  · rw [TreeMap.getElem?_insert, List.mem_append, List.mem_singleton, Prod.mk.injEq, ← h.get_iff]
    split
    · rename_i heq
      rw [heq, TreeMap.not_mem_iff.mp (mt h.mem_table.mp hfresh)]
      simp [eq_comm]
    · rename_i hne
      simp [hne]

theorem remove (h : Roster order table (before ++ (k, v) :: after)) :
    Roster (order.eraseIdx before.length) (table.erase k) (before ++ after) := by
  have hnodup := h.nodup
  have horder : order.eraseIdx before.length = (before ++ after).map Prod.fst := by
    rw [h.order_middle, List.eraseIdx_append_of_length_le (by simp), List.map_append]
    simp
  rw [h.order_middle, List.nodup_middle, List.nodup_cons, ← List.map_append] at hnodup
  refine ⟨horder, horder ▸ hnodup.2, fun {a b} => ?_⟩
  rw [TreeMap.getElem?_erase]
  split
  · rename_i heq
    constructor
    · simp
    · intro hmem
      exact absurd heq (h.ne_of_mem hmem)
  · rename_i hne
    rw [h.get_iff, List.mem_append, List.mem_append, List.mem_cons, Prod.mk.injEq]
    simp [hne]

theorem mem_remove (h : Roster order table (before ++ (old, v) :: after)) :
    k ∈ order.eraseIdx before.length ↔ k ≠ old ∧ k ∈ order := by
  rw [← h.remove.mem_table, TreeMap.mem_erase, h.mem_table]

theorem sublist_remove (h : Roster order table (before ++ (k, v) :: after)) {keys : List K}
    (hsublist : (k :: keys).Sublist order) : keys.Sublist (order.eraseIdx before.length) := by
  have hsublist := hsublist.erase k
  have hbefore : k ∉ before.map Prod.fst := by
    intro hmem
    obtain ⟨entry, hentry, heq⟩ := List.mem_map.mp hmem
    exact h.ne_of_mem (List.mem_append_left _ hentry) heq
  rw [List.erase_cons_head, h.order_middle, List.erase_append_right _ hbefore,
    List.erase_cons_head, ← List.map_append, ← h.remove.order_eq] at hsublist
  exact hsublist

theorem pop (h : Roster (k :: order) table ((k, v) :: entries)) :
    Roster order (table.erase k) entries := by
  have h' : Roster (k :: order) table ([] ++ (k, v) :: entries) := h
  exact h'.remove

theorem replace (h : Roster order table (before ++ (old, w) :: after)) (hfresh : k ∉ order)
    (v : V) :
    Roster (order.set before.length k) ((table.erase old).insert k v)
      (before ++ (k, v) :: after) := by
  have hremoved := h.remove
  have horder : order.set before.length k = (before ++ (k, v) :: after).map Prod.fst := by
    rw [h.order_middle, List.set_append_right _ _ (by simp)]
    simp
  have hfresh' : k ∉ (before ++ after).map Prod.fst := by
    intro hmem
    rw [h.order_middle] at hfresh
    rw [List.map_append, List.mem_append] at hmem
    exact hfresh (List.mem_append.mpr (hmem.imp_right (List.mem_cons_of_mem _)))
  refine ⟨horder, ?_, fun {a b} => ?_⟩
  · rw [horder, List.map_append, List.map_cons, List.nodup_middle, List.nodup_cons,
      ← List.map_append]
    exact ⟨hfresh', hremoved.order_eq ▸ hremoved.nodup⟩
  · rw [TreeMap.getElem?_insert, List.mem_append, List.mem_cons, Prod.mk.injEq]
    split
    · rename_i heq
      have hnone : (k, b) ∉ before ++ after := fun hmem => hfresh' (List.mem_map_of_mem hmem)
      rw [List.mem_append, not_or] at hnone
      simp [heq, hnone, eq_comm]
    · rename_i hne
      rw [hremoved.get_iff, List.mem_append]
      simp [hne]

omit [DecidableEq K] in
theorem order_perm_keys (h : Roster order table entries) : order.Perm table.keys := by
  refine (List.perm_ext_iff_of_nodup h.nodup Std.ExtTreeMap.nodup_keys).mpr fun k => ?_
  rw [Std.ExtTreeMap.mem_keys, h.mem_table]

omit [DecidableEq K] in
theorem toList_perm (h : Roster order table entries) : table.toList.Perm entries := by
  have hentries : entries.Nodup := List.Nodup.of_map Prod.fst (h.order_eq ▸ h.nodup)
  have htable : table.toList.Nodup :=
    List.Nodup.of_map Prod.fst (by
      rw [Std.ExtTreeMap.map_fst_toList_eq_keys]
      exact Std.ExtTreeMap.nodup_keys)
  refine (List.perm_ext_iff_of_nodup htable hentries).mpr fun ⟨k, v⟩ => ?_
  rw [Std.ExtTreeMap.mem_toList_iff_getElem?_eq_some, h.get_iff]

end Roster

structure Tally (set : Std.ExtTreeSet K) (elements : List K) : Prop where
  mem_iff : ∀ {k : K}, k ∈ set ↔ k ∈ elements
  nodup : elements.Nodup

namespace Tally

variable {set : Std.ExtTreeSet K} {elements elements' : List K} {k : K}

omit [Std.LawfulEqOrd K] [DecidableEq K] in
theorem empty : Tally (∅ : Std.ExtTreeSet K) [] := ⟨by simp, .nil⟩

omit [Std.LawfulEqOrd K] [DecidableEq K] in
theorem perm (h : Tally set elements) (hperm : elements.Perm elements') : Tally set elements' :=
  ⟨h.mem_iff.trans hperm.mem_iff, hperm.nodup_iff.mp h.nodup⟩

omit [DecidableEq K] in
theorem insert (h : Tally set elements) (hfresh : k ∉ elements) :
    Tally (set.insert k) (k :: elements) := by
  refine ⟨fun {a} => ?_, List.nodup_cons.mpr ⟨hfresh, h.nodup⟩⟩
  rw [TreeSet.mem_insert, List.mem_cons, h.mem_iff]

omit [DecidableEq K] in
theorem erase (h : Tally set (k :: elements)) : Tally (set.erase k) elements := by
  obtain ⟨hfresh, hnodup⟩ := List.nodup_cons.mp h.nodup
  refine ⟨fun {a} => ?_, hnodup⟩
  rw [TreeSet.mem_erase, h.mem_iff, List.mem_cons]
  constructor
  · rintro ⟨hne, heq | hmem⟩
    · exact absurd heq hne
    · exact hmem
  · intro hmem
    exact ⟨fun heq => hfresh (heq ▸ hmem), .inr hmem⟩

omit [DecidableEq K] in
theorem toList_perm (h : Tally set elements) : set.toList.Perm elements := by
  refine (List.perm_ext_iff_of_nodup (TreeSet.nodup_toList set) h.nodup).mpr fun k => ?_
  rw [Std.ExtTreeSet.mem_toList, h.mem_iff]

omit [DecidableEq K] in
theorem size_eq (h : Tally set elements) : set.size = elements.length := by
  rw [← Std.ExtTreeSet.length_toList, h.toList_perm.length_eq]

end Tally

end Cogniform

import Mathlib.Algebra.Order.Ring.Nat
import Mathlib.Data.List.Perm.Subperm
import Mathlib.Logic.Relation
import Std.Data.ExtTreeSet

/-!
# Forests given by a parent function

A forest is a partial function from a node to its parent. `HasDepth` says that climbing from a node
reaches a root after a given number of steps. Two loops over forests are developed here, each with
the fuel that suffices for it: `findAbove` climbs from a node looking for a marked ancestor, and
`traverse` is a depth-first worklist over an arbitrary successor function.
-/

namespace Cogniform

namespace Forest

variable {K : Type}

/-! ### Depth -/

section Depth

variable {parent : K → Option K}

inductive HasDepth (parent : K → Option K) : K → ℕ → Prop where
  | root {x : K} (h : parent x = none) : HasDepth parent x 0
  | step {x p : K} {n : ℕ} (h : parent x = some p) (hp : HasDepth parent p n) :
      HasDepth parent x (n + 1)

theorem HasDepth.unique {x : K} {n m : ℕ} (hn : HasDepth parent x n) (hm : HasDepth parent x m) :
    n = m := by
  induction hn generalizing m with
  | root h =>
    cases hm with
    | root => rfl
    | step h' => rw [h] at h'; cases h'
  | step h _ ih =>
    cases hm with
    | root h' => rw [h] at h'; cases h'
    | step h' hp' =>
      rw [h] at h'
      cases h'
      rw [ih hp']

theorem HasDepth.pred {x p : K} {n : ℕ} (h : parent x = some p) (hx : HasDepth parent x n) :
    ∃ m, n = m + 1 ∧ HasDepth parent p m := by
  cases hx with
  | root h' => rw [h] at h'; cases h'
  | step h' hp =>
    rw [h] at h'
    cases h'
    exact ⟨_, rfl, hp⟩

abbrev Above (parent : K → Option K) : K → K → Prop :=
  Relation.TransGen fun x y => parent x = some y

theorem HasDepth.lt_of_above {x a : K} {n : ℕ} (hx : HasDepth parent x n)
    (ha : Above parent x a) : ∃ m < n, HasDepth parent a m := by
  induction ha with
  | single h =>
    obtain ⟨m, rfl, hp⟩ := hx.pred h
    exact ⟨m, Nat.lt_succ_self m, hp⟩
  | tail _ h ih =>
    obtain ⟨m, hm, hb⟩ := ih
    obtain ⟨k, rfl, hc⟩ := hb.pred h
    exact ⟨k, Nat.lt_of_succ_lt hm, hc⟩

theorem HasDepth.exists_chain {x : K} {n : ℕ} (hx : HasDepth parent x n) :
    ∃ chain : List K, chain.Nodup ∧ chain.length = n ∧
      ∀ y ∈ chain, (∃ p, parent y = some p) ∧ ∃ m ≤ n, HasDepth parent y m := by
  induction hx with
  | root => exact ⟨[], List.nodup_nil, rfl, by simp⟩
  | @step x p n h hp ih =>
    obtain ⟨chain, hnodup, hlength, hchain⟩ := ih
    have hx : HasDepth parent x (n + 1) := .step h hp
    refine ⟨x :: chain, List.nodup_cons.mpr ⟨fun hmem => ?_, hnodup⟩, by simp [hlength], ?_⟩
    · obtain ⟨-, m, hm, hxm⟩ := hchain x hmem
      have := hx.unique hxm
      omega
    · intro y hy
      rcases List.mem_cons.mp hy with rfl | hy
      · exact ⟨⟨p, h⟩, n + 1, Nat.le_refl _, hx⟩
      · obtain ⟨hparent, m, hm, hym⟩ := hchain y hy
        exact ⟨hparent, m, Nat.le_succ_of_le hm, hym⟩

theorem HasDepth.le_length {x : K} {n : ℕ} (hx : HasDepth parent x n) {nodes : List K}
    (hnodes : ∀ y p, parent y = some p → y ∈ nodes) : n ≤ nodes.length := by
  obtain ⟨chain, hnodup, rfl, hchain⟩ := hx.exists_chain
  refine (List.subperm_of_subset hnodup fun y hy => ?_).length_le
  obtain ⟨⟨p, hp⟩, -⟩ := hchain y hy
  exact hnodes y p hp

def findAbove (parent : K → Option K) (marked : K → Bool) : ℕ → K → Option Bool
  | 0, _ => none
  | fuel + 1, x =>
    match parent x with
    | none => some false
    | some p => if marked p then some true else findAbove parent marked fuel p

theorem findAbove_eq (marked : K → Bool) {x : K} {n : ℕ} (hx : HasDepth parent x n) :
    ∀ {fuel : ℕ}, n < fuel → ∃ found, findAbove parent marked fuel x = some found ∧
      (found = true ↔ ∃ a, Above parent x a ∧ marked a = true) := by
  induction hx with
  | @root x h =>
    intro fuel hfuel
    obtain ⟨fuel, rfl⟩ := Nat.exists_eq_succ_of_ne_zero (by omega : fuel ≠ 0)
    refine ⟨false, by simp [findAbove, h], by simp, ?_⟩
    rintro ⟨a, ha, -⟩
    -- a root has no first step
    rcases Relation.TransGen.head'_iff.mp ha with ⟨p, hp, -⟩
    rw [h] at hp
    cases hp
  | @step x p n h hp ih =>
    intro fuel hfuel
    obtain ⟨fuel, rfl⟩ := Nat.exists_eq_succ_of_ne_zero (by omega : fuel ≠ 0)
    by_cases hmarked : marked p = true
    · exact ⟨true, by simp [findAbove, h, hmarked], by simpa using ⟨p, .single h, hmarked⟩⟩
    · obtain ⟨found, hfound, hiff⟩ := ih (by omega : n < fuel)
      refine ⟨found, by simp [findAbove, h, hmarked, hfound], hiff.trans ⟨?_, ?_⟩⟩
      · rintro ⟨a, ha, hma⟩
        exact ⟨a, .head h ha, hma⟩
      · rintro ⟨a, ha, hma⟩
        obtain ⟨q, hq, hqa⟩ := Relation.TransGen.head'_iff.mp ha
        rw [h] at hq
        cases hq
        rcases Relation.reflTransGen_iff_eq_or_transGen.mp hqa with rfl | hqa
        · exact absurd hma hmarked
        · exact ⟨a, hqa, hma⟩

end Depth

/-! ### Traversal -/

section Traversal

inductive Reach (next : K → List K) (roots : List K) : K → Prop where
  | root {x : K} (h : x ∈ roots) : Reach next roots x
  | step {x y : K} (hx : Reach next roots x) (h : y ∈ next x) : Reach next roots y

variable [Ord K] [Std.TransOrd K] [Std.LawfulEqOrd K]

/-- Depth-first worklist: pop a node, skip it when it was seen, else list it and push its
successors. -/
def traverse (next : K → List K) : ℕ → List K → Std.ExtTreeSet K → List K → Option (List K)
  | 0, _, _, _ => none
  | _ + 1, [], _, visited => some visited
  | fuel + 1, x :: pending, seen, visited =>
    if x ∈ seen then traverse next fuel pending seen visited
    else traverse next fuel (next x ++ pending) (seen.insert x) (visited ++ [x])

/-- What the loop keeps: visited nodes were taken once, everything in sight is reachable, and a node
enters the worklist as a root or after a predecessor was visited. -/
structure Traversing (next : K → List K) (roots pending : List K) (seen : Std.ExtTreeSet K)
    (visited : List K) : Prop where
  mem_seen : ∀ x, x ∈ seen ↔ x ∈ visited
  nodup : visited.Nodup
  sound : ∀ x, x ∈ pending ∨ x ∈ visited → Reach next roots x
  roots_covered : ∀ x ∈ roots, x ∈ pending ∨ x ∈ visited
  next_covered : ∀ x ∈ visited, ∀ y ∈ next x, y ∈ pending ∨ y ∈ visited
  pending_entered : ∀ y ∈ pending, y ∈ roots ∨ ∃ x ∈ visited, y ∈ next x
  visited_entered : ∀ before y after, visited = before ++ y :: after →
    y ∈ roots ∨ ∃ x ∈ before, y ∈ next x

namespace Traversing

variable {next : K → List K} {roots pending visited : List K} {seen : Std.ExtTreeSet K} {x : K}

omit [Std.LawfulEqOrd K] in
theorem init (next : K → List K) (roots : List K) : Traversing next roots roots ∅ [] where
  mem_seen := by simp
  nodup := List.nodup_nil
  sound x hx := .root (by simpa using hx)
  roots_covered x hx := .inl hx
  next_covered := by simp
  pending_entered y hy := .inl hy
  visited_entered := by simp

omit [Std.LawfulEqOrd K] in
theorem skip (h : Traversing next roots (x :: pending) seen visited) (hx : x ∈ seen) :
    Traversing next roots pending seen visited := by
  have hvisited := (h.mem_seen x).mp hx
  have hdrop : ∀ y, y ∈ x :: pending ∨ y ∈ visited → y ∈ pending ∨ y ∈ visited := by
    rintro y (hy | hy)
    · rcases List.mem_cons.mp hy with rfl | hy
      · exact .inr hvisited
      · exact .inl hy
    · exact .inr hy
  exact {
    mem_seen := h.mem_seen
    nodup := h.nodup
    sound := fun y hy => h.sound y (hy.imp_left (List.mem_cons_of_mem x))
    roots_covered := fun y hy => hdrop y (h.roots_covered y hy)
    next_covered := fun y hy z hz => hdrop z (h.next_covered y hy z hz)
    pending_entered := fun y hy => h.pending_entered y (List.mem_cons_of_mem x hy)
    visited_entered := h.visited_entered }

theorem visit (h : Traversing next roots (x :: pending) seen visited) (hx : x ∉ seen) :
    Traversing next roots (next x ++ pending) (seen.insert x) (visited ++ [x]) := by
  have hnew : x ∉ visited := fun hmem => hx ((h.mem_seen x).mpr hmem)
  have hreach : Reach next roots x := h.sound x (.inl (List.mem_cons_self ..))
  have hmove : ∀ y, y ∈ x :: pending ∨ y ∈ visited →
      y ∈ next x ++ pending ∨ y ∈ visited ++ [x] := by
    intro y hy
    simp only [List.mem_cons, List.mem_append, List.not_mem_nil, or_false] at hy ⊢
    tauto
  refine ⟨fun y => ?_, ?_, fun y hy => ?_, fun y hy => hmove y (h.roots_covered y hy),
    fun y hy z hz => ?_, fun y hy => ?_, fun before y after hsplit => ?_⟩
  · simp only [Std.ExtTreeSet.mem_insert, Std.LawfulEqCmp.compare_eq_iff_eq, h.mem_seen y,
      List.mem_append, List.mem_singleton]
    tauto
  · exact List.nodup_append.mpr ⟨h.nodup, by simp, by
      rintro a ha b hb rfl
      rw [List.mem_singleton] at hb
      exact hnew (hb ▸ ha)⟩
  · simp only [List.mem_append, List.mem_singleton] at hy
    rcases hy with (hy | hy) | hy | rfl
    · exact .step hreach hy
    · exact h.sound y (.inl (List.mem_cons_of_mem x hy))
    · exact h.sound y (.inr hy)
    · exact hreach
  · rcases List.mem_append.mp hy with hy | hy
    · exact hmove z (h.next_covered y hy z hz)
    · rw [List.mem_singleton] at hy
      subst hy
      exact .inl (List.mem_append_left _ hz)
  · rcases List.mem_append.mp hy with hy | hy
    · exact .inr ⟨x, by simp, hy⟩
    · exact (h.pending_entered y (List.mem_cons_of_mem x hy)).imp_right
        fun ⟨z, hz, hyz⟩ => ⟨z, List.mem_append_left _ hz, hyz⟩
  · -- the new node is the last one, so a split is either an old one or ends at it
    rcases List.eq_nil_or_concat after with rfl | ⟨after, z, rfl⟩
    · obtain ⟨rfl, hxy⟩ := List.append_inj' hsplit rfl
      cases hxy
      exact h.pending_entered _ (List.mem_cons_self ..)
    · have hsplit' : visited ++ [x] = (before ++ y :: after) ++ [z] := by simpa using hsplit
      obtain ⟨hvisited, -⟩ := List.append_inj' hsplit' rfl
      exact h.visited_entered before y after hvisited

omit [Std.LawfulEqOrd K] in
theorem mem_visited_iff (h : Traversing next roots [] seen visited) (y : K) :
    y ∈ visited ↔ Reach next roots y := by
  refine ⟨fun hy => h.sound y (.inr hy), fun hy => ?_⟩
  induction hy with
  | root hy => simpa using h.roots_covered _ hy
  | step _ hyz ih => simpa using h.next_covered _ ih _ hyz

end Traversing

theorem traverse_traversing {next : K → List K} {roots : List K} {fuel : ℕ} :
    ∀ {pending visited result : List K} {seen : Std.ExtTreeSet K},
      Traversing next roots pending seen visited →
        traverse next fuel pending seen visited = some result →
          ∃ seen', Traversing next roots [] seen' result := by
  induction fuel with
  | zero => intro _ _ _ _ _ h; cases h
  | succ fuel ih =>
    intro pending visited result seen hinv h
    match pending with
    | [] =>
      cases h
      exact ⟨seen, hinv⟩
    | x :: pending =>
      rw [traverse] at h
      split at h
      · exact ih (hinv.skip ‹_›) h
      · exact ih (hinv.visit ‹_›) h

/-- **Traversal.** The nodes listed are the reachable ones, each once, and a node that is not a
root comes after one of its predecessors. -/
theorem traverse_spec {next : K → List K} {roots : List K} {fuel : ℕ} {result : List K}
    (h : traverse next fuel roots ∅ [] = some result) :
    result.Nodup ∧ (∀ x, x ∈ result ↔ Reach next roots x) ∧
      ∀ before y after, result = before ++ y :: after → y ∈ roots ∨ ∃ x ∈ before, y ∈ next x := by
  obtain ⟨seen, hinv⟩ := traverse_traversing (.init next roots) h
  exact ⟨hinv.nodup, hinv.mem_visited_iff, hinv.visited_entered⟩

def unpushed (next : K → List K) (nodes : List K) (seen : Std.ExtTreeSet K) : ℕ :=
  (nodes.map fun x => if x ∈ seen then 0 else (next x).length).sum

/-- Fuel that suffices for a traversal whose nodes with successors are among `nodes`. -/
def traverseFuel (next : K → List K) (nodes roots : List K) : ℕ :=
  roots.length + unpushed next nodes ∅ + 1

omit [Std.LawfulEqOrd K] in
@[simp] theorem unpushed_cons (next : K → List K) (y : K) (nodes : List K)
    (seen : Std.ExtTreeSet K) :
    unpushed next (y :: nodes) seen =
      (if y ∈ seen then 0 else (next y).length) + unpushed next nodes seen := rfl

theorem unpushed_insert_le (next : K → List K) (nodes : List K) (seen : Std.ExtTreeSet K) (x : K) :
    unpushed next nodes (seen.insert x) ≤ unpushed next nodes seen := by
  induction nodes with
  | nil => exact Nat.le_refl _
  | cons y nodes ih =>
    rcases eq_or_ne x y with rfl | hyx
    · by_cases hx : x ∈ seen <;> simp [hx] <;> omega
    · by_cases hy : y ∈ seen <;> simp [hy, hyx] <;> omega

theorem unpushed_insert {next : K → List K} {nodes : List K} {seen : Std.ExtTreeSet K} {x : K}
    (hx : x ∉ seen) (hmem : x ∈ nodes) :
    unpushed next nodes (seen.insert x) + (next x).length ≤ unpushed next nodes seen := by
  induction nodes with
  | nil => cases hmem
  | cons y nodes ih =>
    by_cases hyx : x = y
    · subst hyx
      have := unpushed_insert_le next nodes seen x
      simp [hx]
      omega
    · have := ih ((List.mem_cons.mp hmem).resolve_left hyx)
      by_cases hy : y ∈ seen <;> simp [hy, hyx] <;> omega

theorem traverse_isSome {next : K → List K} {nodes : List K}
    (hnodes : ∀ x, next x ≠ [] → x ∈ nodes) {fuel : ℕ} :
    ∀ {pending visited : List K} {seen : Std.ExtTreeSet K},
      pending.length + unpushed next nodes seen < fuel →
        (traverse next fuel pending seen visited).isSome := by
  induction fuel with
  | zero => intro _ _ _ h; omega
  | succ fuel ih =>
    intro pending visited seen h
    match pending with
    | [] => rfl
    | x :: pending =>
      rw [List.length_cons] at h
      rw [traverse]
      split
      · exact ih (by omega)
      · rename_i hx
        refine ih ?_
        rw [List.length_append]
        -- a node without successors may lie outside `nodes`
        by_cases hnext : next x = []
        · have := unpushed_insert_le next nodes seen x
          rw [hnext]
          simp only [List.length_nil]
          omega
        · have : unpushed next nodes (seen.insert x) + (next x).length ≤ unpushed next nodes seen :=
            unpushed_insert hx (hnodes x hnext)
          omega

theorem exists_traverse {next : K → List K} {nodes : List K}
    (hnodes : ∀ x, next x ≠ [] → x ∈ nodes) (roots : List K) :
    ∃ result, traverse next (traverseFuel next nodes roots) roots ∅ [] = some result :=
  Option.isSome_iff_exists.mp (traverse_isSome hnodes (Nat.lt_succ_self _))

end Traversal

end Forest

end Cogniform

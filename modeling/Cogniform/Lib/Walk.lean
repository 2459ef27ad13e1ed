import Cogniform.Lib.Ancestry
import Mathlib.Data.List.Chain

/-!
# Cycles of a partial function

`cycleFrom` follows a partial function with the path in hand and stops at the first node seen twice;
the part of the path from there on is the cycle. Starting from every node in turn finds every node
of every cycle.
-/

namespace Cogniform

namespace Walk

open Forest

variable {K : Type}

abbrev Reaches (next : K → Option K) : K → K → Prop :=
  Relation.ReflTransGen fun x y => next x = some y

variable {next : K → Option K} {x y z : K}

theorem Reaches.of_above (h : Above next x z) (hy : next x = some y) : Reaches next y z := by
  obtain ⟨y', hy', hz⟩ := Relation.TransGen.head'_iff.mp h
  rw [hy] at hy'
  cases hy'
  exact hz

theorem reaches_last {path : List K} (h : (path ++ [z]).IsChain fun x y => next x = some y)
    (hx : x ∈ path) : Above next x z := by
  induction path generalizing x with
  | nil => cases hx
  | cons first rest ih =>
    rw [List.cons_append] at h
    have hrest := h.tail
    rcases List.mem_cons.mp hx with rfl | hx
    · cases rest with
      | nil => exact .single (List.isChain_cons_cons.mp h).1
      | cons second rest =>
        exact .head (List.isChain_cons_cons.mp h).1 (ih hrest (List.mem_cons_self ..))
    · exact ih hrest hx

theorem reaches_of_mem {path : List K} (h : (x :: path).IsChain fun x y => next x = some y)
    (hy : y ∈ x :: path) : Reaches next x y := by
  induction path generalizing x with
  | nil =>
    obtain rfl := List.mem_singleton.mp hy
    exact .refl
  | cons second rest ih =>
    obtain ⟨hnext, hrest⟩ := List.isChain_cons_cons.mp h
    rcases List.mem_cons.mp hy with rfl | hy
    · exact .refl
    · exact .head hnext (ih hrest hy)

theorem mem_of_reaches {path : List K}
    (h : (x :: path ++ [x]).IsChain fun x y => next x = some y) (hy : Reaches next x y) :
    y ∈ x :: path := by
  -- The successor of every node of the path is on it: the next one, or the first.
  have hclosed : ∀ a ∈ x :: path, ∀ b, next a = some b → b ∈ x :: path := by
    intro a ha b hb
    obtain ⟨before, after, hsplit⟩ := List.append_of_mem ha
    rw [hsplit, List.append_assoc] at h
    have htail := (List.isChain_append.mp h).2.1
    cases after with
    | nil =>
      have hlast : next a = some x := (List.isChain_cons_cons.mp htail).1
      rw [hb] at hlast
      cases hlast
      exact List.mem_cons_self ..
    | cons second after =>
      have hstep : next a = some second := (List.isChain_cons_cons.mp htail).1
      rw [hb] at hstep
      cases hstep
      rw [hsplit]
      simp
  induction hy with
  | refl => exact List.mem_cons_self ..
  | tail _ hstep ih => exact hclosed _ ih _ hstep

variable [DecidableEq K]

def cycleFrom (next : K → Option K) : ℕ → List K → K → Option (List K)
  | 0, _, _ => none
  | fuel + 1, path, x =>
    match path.idxOf? x with
    | some start => some (path.drop start)
    | none =>
      match next x with
      | none => some []
      | some y => cycleFrom next fuel (path ++ [x]) y

theorem mem_cycleFrom {fuel : ℕ} {cycle : List K} :
    ∀ {path : List K} {x : K}, (path ++ [x]).IsChain (fun x y => next x = some y) →
      cycleFrom next fuel path x = some cycle →
      ∀ y, y ∈ cycle ↔ Above next y y ∧ Reaches next x y := by
  induction fuel with
  | zero =>
    intro path x _ h
    cases h
  | succ fuel ih =>
    intro path x hchain h y
    rw [cycleFrom] at h
    split at h
    · rename_i start hstart
      cases h
      obtain ⟨hlt, hget, -⟩ := List.idxOf?_eq_some_iff.mp hstart
      have hdrop : path.drop start = x :: path.drop (start + 1) := by
        rw [← hget, List.getElem_cons_drop]
      have hround : (x :: path.drop (start + 1) ++ [x]).IsChain fun x y => next x = some y := by
        rw [← List.take_append_drop start path, List.append_assoc, hdrop] at hchain
        exact (List.isChain_append.mp hchain).2.1
      rw [hdrop]
      constructor
      · intro hy
        have hback : Above next y x := reaches_last hround hy
        have hforth : Reaches next x y :=
          reaches_of_mem (List.isChain_append.mp hround).1 hy
        exact ⟨hback.trans_left hforth, hforth⟩
      · rintro ⟨-, hreaches⟩
        exact mem_of_reaches hround hreaches
    · rename_i hnew
      split at h
      · rename_i hend
        cases h
        have hdepth : HasDepth next x 0 := .root hend
        refine iff_of_false List.not_mem_nil ?_
        rintro ⟨hcycle, hreaches⟩
        rcases Relation.reflTransGen_iff_eq_or_transGen.mp hreaches with rfl | habove
        · exact hdepth.not_above_self hcycle
        · obtain ⟨m, hm, -⟩ := hdepth.lt_of_above habove
          exact Nat.not_lt_zero m hm
      · rename_i z hz
        have hchain' : ((path ++ [x]) ++ [z]).IsChain fun x y => next x = some y := by
          refine List.isChain_append.mpr ⟨hchain, List.isChain_singleton z, ?_⟩
          simp [hz]
        rw [ih hchain' h y]
        refine and_congr_right fun hcycle => ⟨fun hreaches => .head hz hreaches, fun hreaches => ?_⟩
        rcases Relation.reflTransGen_iff_eq_or_transGen.mp hreaches with rfl | habove
        · exact Reaches.of_above hcycle hz
        · exact Reaches.of_above habove hz

theorem exists_cycleFrom {nodes : List K}
    (hnodes : ∀ x ∈ nodes, ∀ y, next x = some y → y ∈ nodes) {fuel : ℕ} :
    ∀ {path : List K} {x : K}, path.Nodup → (∀ y ∈ path, y ∈ nodes) → x ∈ nodes →
      nodes.length < fuel + path.length → ∃ cycle, cycleFrom next fuel path x = some cycle := by
  induction fuel with
  | zero =>
    intro path x hnodup hpath _ hfuel
    have hle := (List.subperm_of_subset hnodup hpath).length_le
    omega
  | succ fuel ih =>
    intro path x hnodup hpath hx hfuel
    rw [cycleFrom]
    split
    · exact ⟨_, rfl⟩
    · rename_i hnew
      have hfresh : x ∉ path := List.idxOf?_eq_none_iff.mp hnew
      split
      · exact ⟨_, rfl⟩
      · rename_i y hy
        refine ih (List.nodup_append.mpr ⟨hnodup, List.nodup_singleton x, ?_⟩) ?_
          (hnodes x hx y hy) ?_
        · rintro a ha b hb rfl
          obtain rfl := List.mem_singleton.mp hb
          exact hfresh ha
        · intro z hz
          rcases List.mem_append.mp hz with hz | hz
          · exact hpath z hz
          · obtain rfl := List.mem_singleton.mp hz
            exact hx
        · rw [List.length_append, List.length_singleton]
          omega

theorem hasDepth_of_cycleFrom_nil {fuel : ℕ} :
    ∀ {path : List K} {x : K}, cycleFrom next fuel path x = some [] → ∃ n, HasDepth next x n := by
  induction fuel with
  | zero =>
    intro path x h
    cases h
  | succ fuel ih =>
    intro path x h
    rw [cycleFrom] at h
    split at h
    · rename_i start hstart
      obtain ⟨hlt, -⟩ := List.idxOf?_eq_some_iff.mp hstart
      have hnil := List.drop_eq_nil_iff.mp (Option.some.inj h)
      omega
    · split at h
      · rename_i hend
        exact ⟨0, .root hend⟩
      · rename_i y hy
        obtain ⟨n, hn⟩ := ih h
        exact ⟨n + 1, .step hy hn⟩

theorem exists_hasDepth {nodes : List K} (hnodes : ∀ x ∈ nodes, ∀ y, next x = some y → y ∈ nodes)
    (hacyclic : ∀ x, ¬ Above next x x) {x : K} (hx : x ∈ nodes) : ∃ n, HasDepth next x n := by
  obtain ⟨cycle, hcycle⟩ := exists_cycleFrom hnodes List.nodup_nil
    (fun y hy => absurd hy List.not_mem_nil) hx (Nat.lt_succ_self _)
  have hnil : cycle = [] := List.eq_nil_iff_forall_not_mem.mpr fun y hy =>
    hacyclic y ((mem_cycleFrom (List.isChain_singleton x) hcycle y).mp hy).1
  rw [hnil] at hcycle
  exact hasDepth_of_cycleFrom_nil hcycle

end Walk

end Cogniform

import Mathlib.Data.List.Basic
import Mathlib.Data.List.Nodup
import Mathlib.Data.Nat.Notation

/-!
# A waiting line with replacement

Items join a line at its end, are served from its front, and an item may be replaced where it
stands. Every item that ever entered should hold a `Ticket`, numbered in the order of entry, whose
slot is its place in line; replacing takes over the slot of the ticket replaced. `Line.Orderly` says
that no item is lost or duplicated, and that slots are served in the order in which they were
opened.
-/

namespace Cogniform

structure Ticket (α : Type) where
  number : ℕ
  slot : ℕ
  item : α

structure Line (α : Type) where
  entered : List α
  waiting : List (Ticket α)
  served : List (Ticket α)
  replaced : List (Ticket α × Ticket α)

namespace Line

variable {α : Type}

def empty : Line α := ⟨[], [], [], []⟩

def join (line : Line α) (item : α) : Line α :=
  { line with
    entered := line.entered ++ [item]
    waiting := line.waiting ++ [⟨line.entered.length, line.entered.length, item⟩] }

def replace (line : Line α) (p : α → Bool) (item : α) : Line α :=
  match line.waiting.findIdx? fun ticket => p ticket.item with
  | none => { line with entered := line.entered ++ [item] }
  | some position =>
    match line.waiting[position]? with
    | none => { line with entered := line.entered ++ [item] }
    | some old =>
      { line with
        entered := line.entered ++ [item]
        waiting := line.waiting.set position ⟨line.entered.length, old.slot, item⟩
        replaced := line.replaced ++ [(old, ⟨line.entered.length, old.slot, item⟩)] }

def serve (line : Line α) : Line α :=
  match line.waiting with
  | [] => line
  | ticket :: waiting => { line with waiting := waiting, served := line.served ++ [ticket] }

def tickets (line : Line α) : List (Ticket α) :=
  line.served ++ line.waiting ++ line.replaced.map Prod.fst

theorem exists_split_of_findIdx? {p : α → Bool} {l : List α} {position : ℕ}
    (h : l.findIdx? p = some position) :
    ∃ before x after, l = before ++ x :: after ∧ p x = true ∧ l[position]? = some x ∧
      ∀ y, l.set position y = before ++ y :: after := by
  obtain ⟨hlt, hp, -⟩ := List.findIdx?_eq_some_iff_getElem.mp h
  refine ⟨l.take position, l[position], l.drop (position + 1), ?_, hp,
    List.getElem?_eq_getElem hlt, fun y => ?_⟩
  · rw [List.getElem_cons_drop, List.take_append_drop]
  · rw [List.set_eq_take_append_cons_drop, if_pos hlt]

theorem replace_eq {line : Line α} {p : α → Bool} (item : α)
    (h : ∃ ticket ∈ line.waiting, p ticket.item = true) :
    ∃ before old after, line.waiting = before ++ old :: after ∧ p old.item = true ∧
      line.replace p item =
        { line with
          entered := line.entered ++ [item]
          waiting := before ++ ⟨line.entered.length, old.slot, item⟩ :: after
          replaced := line.replaced ++ [(old, ⟨line.entered.length, old.slot, item⟩)] } := by
  cases hfind : line.waiting.findIdx? fun ticket => p ticket.item with
  | none =>
    obtain ⟨ticket, hticket, hp⟩ := h
    rw [List.findIdx?_eq_none_iff.mp hfind ticket hticket] at hp
    cases hp
  | some position =>
    obtain ⟨before, old, after, hsplit, hp, hget, hset⟩ := exists_split_of_findIdx? hfind
    refine ⟨before, old, after, hsplit, hp, ?_⟩
    rw [replace, hfind]
    simp only [hget, hset]

theorem map_item_replace {line : Line α} {p : α → Bool} {before after : List α} {x : α} (item : α)
    (hwaiting : line.waiting.map Ticket.item = before ++ x :: after) (hx : p x = true)
    (hbefore : ∀ y ∈ before, p y = false) :
    (line.replace p item).waiting.map Ticket.item = before ++ item :: after := by
  have hfind : line.waiting.findIdx? (fun ticket => p ticket.item) = some before.length := by
    rw [show (fun ticket : Ticket α => p ticket.item) = p ∘ Ticket.item from rfl, ← List.findIdx?_map,
      hwaiting, List.findIdx?_append, List.findIdx?_eq_none_iff.mpr hbefore, List.findIdx?_cons, hx]
    simp
  have hlength : before.length < line.waiting.length := by
    have := congrArg List.length hwaiting
    simp only [List.length_map, List.length_append, List.length_cons] at this
    omega
  rw [replace, hfind]
  simp only [List.getElem?_eq_getElem hlength, List.map_set, hwaiting]
  simp

theorem map_item_serve (line : Line α) :
    line.serve.waiting.map Ticket.item = (line.waiting.map Ticket.item).tail := by
  rw [serve]
  split
  · rename_i hwaiting
    rw [hwaiting]
    rfl
  · rename_i hwaiting
    rw [hwaiting]
    rfl

/-- Nothing is lost or duplicated, and slots are served in the order they were opened. Items are only
replaced by items they stand in relation `R` to. -/
structure Orderly (R : α → α → Prop) (line : Line α) : Prop where
  /-- Every item that entered is waiting, served or replaced, and only one of these, once. -/
  accounted : (line.tickets.map Ticket.number).Perm (List.range line.entered.length)
  item : ∀ ticket ∈ line.tickets, line.entered[ticket.number]? = some ticket.item
  ordered : ((line.served ++ line.waiting).map Ticket.slot).Pairwise (· < ·)
  opened : ∀ ticket ∈ line.served ++ line.waiting, ticket.slot < line.entered.length
  /-- A replacement has entered later, has the same place and is related to what it replaced. -/
  replaced : ∀ pair ∈ line.replaced, pair.2 ∈ line.tickets ∧ pair.1.number < pair.2.number ∧
    pair.1.slot = pair.2.slot ∧ R pair.1.item pair.2.item
  /-- A ticket has its own slot, or that of the ticket it replaced. -/
  origin : ∀ ticket ∈ line.tickets, ticket.slot = ticket.number ∨
    ∃ old, (old, ticket) ∈ line.replaced

namespace Orderly

variable {R : α → α → Prop} {line line' : Line α}

theorem empty (R : α → α → Prop) : Orderly R (Line.empty : Line α) where
  accounted := .refl _
  item := by simp [Line.tickets, Line.empty]
  ordered := .nil
  opened := by simp [Line.empty]
  replaced := by simp [Line.empty]
  origin := by simp [Line.tickets, Line.empty]

theorem number_lt (h : Orderly R line) {ticket : Ticket α} (hticket : ticket ∈ line.tickets) :
    ticket.number < line.entered.length :=
  List.mem_range.mp (h.accounted.mem_iff.mp (List.mem_map_of_mem hticket))

theorem enter (h : Orderly R line) {item : α} {slot : ℕ}
    (hentered : line'.entered = line.entered ++ [item])
    (htickets : line'.tickets.Perm (line.tickets ++ [⟨line.entered.length, slot, item⟩])) :
    (line'.tickets.map Ticket.number).Perm (List.range line'.entered.length) ∧
      ∀ ticket ∈ line'.tickets, line'.entered[ticket.number]? = some ticket.item := by
  refine ⟨?_, fun ticket hticket => ?_⟩
  · refine (htickets.map _).trans ?_
    rw [List.map_append, hentered, List.length_append, List.length_singleton, List.range_succ]
    exact h.accounted.append_right _
  · rw [hentered]
    rcases List.mem_append.mp (htickets.mem_iff.mp hticket) with hold | hnew
    · rw [List.getElem?_append_left (h.number_lt hold)]
      exact h.item ticket hold
    · rw [List.mem_singleton.mp hnew]
      simp

theorem join (h : Orderly R line) (item : α) : Orderly R (line.join item) := by
  have htickets : (line.join item).tickets.Perm
      (line.tickets ++ [⟨line.entered.length, line.entered.length, item⟩]) := by
    simp only [Line.join, tickets, List.append_assoc]
    exact List.Perm.append_left _ (List.Perm.append_left _ List.perm_append_comm)
  have hlength : (line.join item).entered.length = line.entered.length + 1 := List.length_append
  obtain ⟨haccounted, hitem⟩ := h.enter rfl htickets
  refine ⟨haccounted, hitem, ?_, fun ticket hticket => ?_, fun pair hpair => ?_,
    fun ticket hticket => ?_⟩
  · rw [show (line.join item).served ++ (line.join item).waiting =
      line.served ++ line.waiting ++ [⟨line.entered.length, line.entered.length, item⟩] from
        (List.append_assoc ..).symm, List.map_append, List.pairwise_append]
    refine ⟨h.ordered, List.pairwise_singleton _ _, fun slot hslot other hother => ?_⟩
    obtain ⟨ticket, hticket, rfl⟩ := List.mem_map.mp hslot
    rw [List.map_singleton, List.mem_singleton] at hother
    rw [hother]
    exact h.opened ticket hticket
  · rw [hlength]
    rcases List.mem_append.mp hticket with hserved | hwaiting
    · exact Nat.lt_succ_of_lt (h.opened ticket (List.mem_append_left _ hserved))
    · rcases List.mem_append.mp hwaiting with hold | hnew
      · exact Nat.lt_succ_of_lt (h.opened ticket (List.mem_append_right _ hold))
      · rw [List.mem_singleton.mp hnew]
        exact Nat.lt_succ_self _
  · exact (h.replaced pair hpair).imp_left
      fun hmem => htickets.mem_iff.mpr (List.mem_append_left _ hmem)
  · rcases List.mem_append.mp (htickets.mem_iff.mp hticket) with hold | hnew
    · exact h.origin ticket hold
    · rw [List.mem_singleton.mp hnew]
      exact .inl rfl

theorem replace (h : Orderly R line) (p : α → Bool) (item : α)
    (hfound : ∃ ticket ∈ line.waiting, p ticket.item = true)
    (hR : ∀ ticket ∈ line.waiting, p ticket.item = true → R ticket.item item) :
    Orderly R (line.replace p item) := by
  obtain ⟨before, old, after, hwaiting, hold, heq⟩ := replace_eq item hfound
  have htickets : (line.replace p item).tickets.Perm
      (line.tickets ++ [⟨line.entered.length, old.slot, item⟩]) := by
    rw [heq, tickets, tickets, hwaiting, List.map_append, List.map_singleton]
    simp only [List.append_assoc, List.cons_append]
    refine List.Perm.append_left _ (List.Perm.append_left _ ?_)
    rw [← List.append_assoc after, ← List.append_assoc after]
    exact ((List.perm_append_singleton ..).cons _).trans
      ((List.Perm.swap ..).trans ((List.perm_append_singleton ..).symm.cons _))
  have holdWaiting : old ∈ line.waiting := by
    rw [hwaiting]
    simp
  have holdPlace : old ∈ line.served ++ line.waiting := List.mem_append_right _ holdWaiting
  have hlength : (line.replace p item).entered.length = line.entered.length + 1 := by
    rw [heq]
    exact List.length_append
  obtain ⟨haccounted, hitem⟩ := h.enter (by rw [heq]) htickets
  refine ⟨haccounted, hitem, ?_, fun ticket hticket => ?_, fun pair hpair => ?_,
    fun ticket hticket => ?_⟩
  · have hordered := h.ordered
    rw [hwaiting] at hordered
    rw [heq]
    simpa using hordered
  · have hcase : ticket ∈ line.served ++ line.waiting ∨ ticket.slot = old.slot := by
      rw [heq] at hticket
      rw [hwaiting]
      simp only [List.mem_append, List.mem_cons] at hticket ⊢
      rcases hticket with hserved | hbefore | rfl | hafter
      · exact .inl (.inl hserved)
      · exact .inl (.inr (.inl hbefore))
      · exact .inr rfl
      · exact .inl (.inr (.inr (.inr hafter)))
    rw [hlength]
    rcases hcase with hplace | hslot
    · exact Nat.lt_succ_of_lt (h.opened ticket hplace)
    · rw [hslot]
      exact Nat.lt_succ_of_lt (h.opened old holdPlace)
  · rw [heq] at hpair
    rcases List.mem_append.mp hpair with hpair | hpair
    · exact (h.replaced pair hpair).imp_left
        fun hmem => htickets.mem_iff.mpr (List.mem_append_left _ hmem)
    · rw [List.mem_singleton.mp hpair]
      exact ⟨htickets.mem_iff.mpr (List.mem_append_right _ (List.mem_singleton_self _)),
        h.number_lt (List.mem_append_left _ holdPlace), rfl, hR old holdWaiting hold⟩
  · rcases List.mem_append.mp (htickets.mem_iff.mp hticket) with hmem | hnew
    · rcases h.origin ticket hmem with hown | ⟨other, hother⟩
      · exact .inl hown
      · refine .inr ⟨other, ?_⟩
        rw [heq]
        exact List.mem_append_left _ hother
    · refine .inr ⟨old, ?_⟩
      rw [heq, List.mem_singleton.mp hnew]
      exact List.mem_append_right _ (List.mem_singleton_self _)

theorem serve (h : Orderly R line) : Orderly R line.serve := by
  have hline : line.serve.served ++ line.serve.waiting = line.served ++ line.waiting := by
    rw [Line.serve]
    cases hwaiting : line.waiting with
    | nil => rw [hwaiting]
    | cons ticket waiting => exact List.append_assoc ..
  have hrest : line.serve.replaced = line.replaced ∧ line.serve.entered = line.entered := by
    rw [Line.serve]
    split <;> exact ⟨rfl, rfl⟩
  have htickets : line.serve.tickets = line.tickets := by
    rw [tickets, hline, hrest.1, tickets]
  exact ⟨by rw [htickets, hrest.2]; exact h.accounted, by rw [htickets, hrest.2]; exact h.item,
    by rw [hline]; exact h.ordered, by rw [hline, hrest.2]; exact h.opened,
    by rw [htickets, hrest.1]; exact h.replaced, by rw [htickets, hrest.1]; exact h.origin⟩

end Orderly

end Line

end Cogniform

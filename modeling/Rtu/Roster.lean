import Mathlib.Data.List.Basic
import Mathlib.Data.List.Nodup
import Mathlib.Data.List.TakeWhile

/-!
# Rosters

A roster is a list of items that is gone through in a circle, with a finger on the item met last, or in front of the first
item. An item is put in by a key (`place`) or in front of the finger (`push`), so that it comes last; an item that is taken out
leaves the finger on the one before it; `next` moves the finger.

`wait` bounds the number of items that come before an item: what is put in while it waits comes behind it, or once in front of it
before the finger has gone round. Nothing here names a particular kind of item.
-/

namespace Rosters

universe u

/-- The items up to the one with the finger on it, and the items behind it. -/
structure Roster (α : Type u) where
  passed : List α
  ahead : List α
deriving DecidableEq, Repr

namespace Roster

variable {α : Type u} {r : Roster α} {x i : α} {l₁ l₂ : List α}

/-- The items from the first to the last. -/
def items (r : Roster α) : List α := r.passed ++ r.ahead

/-- The item met last. -/
def finger (r : Roster α) : Option α := r.passed.getLast?

/-- The items in the order in which `next` comes to them. -/
def turn (r : Roster α) : List α := r.ahead ++ r.passed

def empty : Roster α := ⟨[], []⟩

/-- An item is put in behind the items from the first on that go before it. -/
def place (before : α → Bool) (x : α) (r : Roster α) : Roster α :=
  if r.passed.all before then
    { r with ahead := r.ahead.takeWhile before ++ x :: r.ahead.dropWhile before }
  else
    { r with passed := r.passed.takeWhile before ++ x :: r.passed.dropWhile before }

/-- An item is put in so that it comes last: in front of the item with the finger, or at the end. -/
def push (x : α) (r : Roster α) : Roster α :=
  match r.passed.getLast? with
  | none => { r with ahead := r.ahead ++ [x] }
  | some a => { r with passed := r.passed.dropLast ++ [x, a] }

/-- An item is taken out. Where the finger was on it, the finger is on the item before it. -/
def remove [DecidableEq α] (x : α) (r : Roster α) : Roster α := ⟨r.passed.erase x, r.ahead.erase x⟩

/-- The finger moves to the next item, from the last one to the first. -/
def next (r : Roster α) : Roster α :=
  match r.ahead with
  | a :: l => ⟨r.passed ++ [a], l⟩
  | [] =>
    match r.passed with
    | [] => r
    | a :: l => ⟨[a], l⟩

@[simp] theorem items_empty : (empty : Roster α).items = [] := rfl

@[simp] theorem finger_empty : (empty : Roster α).finger = none := rfl

theorem mem_turn : i ∈ r.turn ↔ i ∈ r.items := by
  simp only [turn, items, List.mem_append, or_comm]

theorem length_turn : r.turn.length = r.items.length := by
  simp only [turn, items, List.length_append, Nat.add_comm]

/-! ## What an operation does to the items and to the finger -/

theorem place_items (before : α → Bool) (x : α) (r : Roster α) :
    (r.place before x).items = r.items.takeWhile before ++ x :: r.items.dropWhile before := by
  unfold place items
  split
  · rename_i hall
    rw [List.takeWhile_append_of_pos (List.all_eq_true.mp hall), List.dropWhile_append_of_pos (List.all_eq_true.mp hall)]
    exact (List.append_assoc _ _ _).symm
  · rename_i hall
    have hne : r.passed.dropWhile before ≠ [] := by
      intro h
      exact hall (List.all_eq_true.mpr (List.dropWhile_eq_nil_iff.mp h))
    have htake : (r.passed.takeWhile before).length ≠ r.passed.length := by
      intro h
      have hsum := congrArg List.length (List.takeWhile_append_dropWhile (p := before) (l := r.passed))
      rw [List.length_append, h] at hsum
      exact hne (List.length_eq_zero_iff.mp (by omega))
    rw [List.takeWhile_append, if_neg htake, List.dropWhile_append, if_neg (by simpa using hne)]
    simp

theorem place_finger (before : α → Bool) (x : α) (r : Roster α) : (r.place before x).finger = r.finger := by
  unfold place finger
  split
  · rfl
  · rename_i hall
    have hne : r.passed.dropWhile before ≠ [] := by
      intro h
      exact hall (List.all_eq_true.mpr (List.dropWhile_eq_nil_iff.mp h))
    conv_rhs => rw [← List.takeWhile_append_dropWhile (p := before) (l := r.passed)]
    rw [List.getLast?_append_of_ne_nil _ (List.cons_ne_nil x _), List.getLast?_append_of_ne_nil _ hne, List.getLast?_cons,
      List.getLast?_eq_some_getLast hne]
    rfl

/-- An item comes in front of the one with the finger. -/
theorem push_items (x : α) (r : Roster α) :
    ∃ l₁ l₂, r.items = l₁ ++ l₂ ∧ (r.push x).items = l₁ ++ x :: l₂ ∧ (r.finger = none → l₂ = []) ∧
      ∀ a, r.finger = some a → l₂.head? = some a := by
  unfold push finger items
  cases h : r.passed.getLast? with
  | none =>
    refine ⟨r.passed ++ r.ahead, [], (List.append_nil _).symm, ?_, fun _ => rfl, ?_⟩
    · exact (List.append_assoc _ _ _).symm
    · rintro a ⟨⟩
  | some a =>
    have hpassed : r.passed = r.passed.dropLast ++ [a] := (List.dropLast_append_getLast? a h).symm
    refine ⟨r.passed.dropLast, a :: r.ahead, ?_, ?_, ?_, ?_⟩
    · conv_lhs => rw [hpassed]
      exact List.append_assoc _ _ _
    · exact List.append_assoc _ _ _
    · rintro ⟨⟩
    · rintro b ⟨⟩
      rfl

theorem push_finger (x : α) (r : Roster α) : (r.push x).finger = r.finger := by
  unfold push finger
  cases h : r.passed.getLast? with
  | none => exact h
  | some a => simp

theorem next_items (r : Roster α) : r.next.items = r.items := by
  unfold next items
  split
  · rename_i a l h
    rw [h]
    exact List.append_assoc _ _ _
  · rename_i h
    split
    · rfl
    · rename_i a l hp
      rw [h, hp]
      simp

/-- The finger moves to the item whose turn it is. -/
theorem next_finger (r : Roster α) : r.next.finger = r.turn.head? := by
  unfold next finger turn
  split
  · rename_i a l h
    rw [h]
    simp
  · rename_i h
    split
    · rename_i hp
      rw [h, hp]
      rfl
    · rename_i a l hp
      rw [h, hp]
      rfl

section Removal

variable [DecidableEq α]

theorem remove_items (hnodup : r.items.Nodup) (x : α) : (r.remove x).items = r.items.erase x := by
  unfold remove items at *
  by_cases hx : x ∈ r.passed
  · rw [List.erase_append_left _ hx]
    rw [List.erase_of_not_mem (l := r.ahead)]
    intro hx'
    exact (List.nodup_append.mp hnodup).2.2 x hx x hx' rfl
  · rw [List.erase_append_right _ hx, List.erase_of_not_mem hx]

/-- The item before the one that is taken out gets the finger. -/
theorem remove_finger (hnodup : r.items.Nodup) (hitems : r.items = l₁ ++ x :: l₂) (hfinger : r.finger = some x) :
    (r.remove x).finger = l₁.getLast? := by
  unfold finger at *
  have hpassed : r.passed = r.passed.dropLast ++ [x] := (List.dropLast_append_getLast? x hfinger).symm
  have hsame : r.passed.dropLast = l₁ := by
    have hsplit : r.passed.dropLast ++ x :: r.ahead = l₁ ++ x :: l₂ := by
      rw [← hitems, items]
      conv_rhs => rw [hpassed]
      simp
    have hnodup' : (r.passed.dropLast ++ x :: r.ahead).Nodup := by
      rw [hsplit, ← hitems]
      exact hnodup
    have hx₁ : x ∉ r.passed.dropLast := fun h => (List.nodup_append.mp hnodup').2.2 x h x List.mem_cons_self rfl
    have hx₂ : x ∉ r.ahead := (List.nodup_cons.mp (List.nodup_append.mp hnodup').2.1).1
    exact ((List.append_cons_inj_of_notMem hx₁ hx₂).mp hsplit).1
  have hx : x ∉ l₁ := by
    rw [hitems] at hnodup
    exact fun h => (List.nodup_append.mp hnodup).2.2 x h x List.mem_cons_self rfl
  show (r.passed.erase x).getLast? = _
  rw [hpassed, hsame, List.erase_append_right _ hx]
  simp

/-- An item without the finger is taken out and the finger stays. -/
theorem remove_finger_of_ne (hfinger : r.finger ≠ some x) : (r.remove x).finger = r.finger := by
  unfold finger at *
  show (r.passed.erase x).getLast? = _
  by_cases hx : x ∈ r.passed
  · obtain ⟨p, q, hp, hpq, herase⟩ := List.exists_erase_eq hx
    rw [herase, hpq]
    have hq : q ≠ [] := by
      rintro rfl
      exact hfinger (by rw [hpq]; simp)
    rw [List.getLast?_append_of_ne_nil _ hq, List.getLast?_append_of_ne_nil _ (List.cons_ne_nil x q), List.getLast?_cons,
      List.getLast?_eq_some_getLast hq]
    rfl
  · rw [List.erase_of_not_mem hx]

end Removal

/-! ## How long an item waits -/

/-- The items that may come before one of at most `n` others: those ahead of it, and where the finger has passed it, those ahead of
the finger and then the others again. -/
def wait [DecidableEq α] (n : Nat) (x : α) (r : Roster α) : Nat :=
  if x ∈ r.ahead then r.ahead.idxOf x else r.ahead.length + n

section Waiting

variable [DecidableEq α] {n : Nat}

/-- An item comes no later in a list that another has left. -/
theorem idxOf_erase_le (hi : i ≠ x) (l : List α) : (l.erase i).idxOf x ≤ l.idxOf x := by
  induction l with
  | nil => exact Nat.le_refl _
  | cons a l ih =>
    by_cases hax : a = x
    · subst hax
      rw [List.erase_cons_tail (by simpa using hi.symm), List.idxOf_cons_self, List.idxOf_cons_self]
    · rw [List.idxOf_cons_ne _ hax]
      by_cases hai : a = i
      · subst hai
        rw [List.erase_cons_head]
        exact Nat.le_succ _
      · rw [List.erase_cons_tail (by simpa using hai), List.idxOf_cons_ne _ hax]
        exact Nat.succ_le_succ ih

theorem wait_of_mem (hx : x ∈ r.ahead) : r.wait n x = r.ahead.idxOf x := if_pos hx

theorem wait_of_notMem (hx : x ∉ r.ahead) : r.wait n x = r.ahead.length + n := if_neg hx

/-- No item waits for more than two rounds. -/
theorem wait_le (hx : x ∈ r.items) (hlength : r.items.length ≤ n + 1) : r.wait n x ≤ 2 * n := by
  rw [items, List.length_append] at hlength
  by_cases hahead : x ∈ r.ahead
  · rw [wait_of_mem hahead]
    have := List.idxOf_lt_length_of_mem hahead
    omega
  · rw [wait_of_notMem hahead]
    have := List.length_pos_of_mem ((List.mem_append.mp hx).resolve_right hahead)
    omega

omit [DecidableEq α] in
theorem mem_push (hx : x ∈ r.items) (i : α) : x ∈ (r.push i).items := by
  obtain ⟨l₁, l₂, hsplit, hpush, -⟩ := push_items i r
  rw [hsplit] at hx
  rw [hpush]
  exact List.mem_append.mpr ((List.mem_append.mp hx).imp id (List.mem_cons_of_mem i))

theorem mem_remove (hi : i ≠ x) (hx : x ∈ r.items) : x ∈ (r.remove i).items := by
  simp only [items, remove, List.mem_append, List.mem_erase_of_ne hi.symm] at *
  exact hx

/-- An item that is put in does not come before one that waits. -/
theorem wait_push (hx : x ∈ r.items) (i : α) : (r.push i).wait n x = r.wait n x := by
  unfold push
  cases hlast : r.passed.getLast? with
  | none =>
    have hahead : x ∈ r.ahead := by
      rwa [items, List.getLast?_eq_none_iff.mp hlast, List.nil_append] at hx
    rw [wait_of_mem hahead, wait_of_mem (List.mem_append_left _ hahead), List.idxOf_append_of_mem hahead]
  | some a => rfl

theorem wait_remove (hi : i ≠ x) : (r.remove i).wait n x ≤ r.wait n x := by
  have hmem : x ∈ (r.remove i).ahead ↔ x ∈ r.ahead := List.mem_erase_of_ne hi.symm
  by_cases hahead : x ∈ r.ahead
  · rw [wait_of_mem hahead, wait_of_mem (hmem.mpr hahead)]
    exact idxOf_erase_le hi r.ahead
  · rw [wait_of_notMem hahead, wait_of_notMem (mt hmem.mp hahead)]
    exact Nat.add_le_add_right List.erase_sublist.length_le n

/-- Each turn of another item brings an item nearer to its own. -/
theorem wait_next (hx : x ∈ r.items) (hlength : r.items.length ≤ n + 1) (hturn : r.turn.head? ≠ some x) :
    r.next.wait n x < r.wait n x := by
  rw [items, List.length_append] at hlength
  cases hahead : r.ahead with
  | cons a l =>
    have hnext : r.next = ⟨r.passed ++ [a], l⟩ := by simp only [next, hahead]
    have hne : a ≠ x := by
      rintro rfl
      exact hturn (by rw [turn, hahead]; rfl)
    rw [hnext]
    by_cases hl : x ∈ l
    · rw [wait_of_mem hl, wait_of_mem (by rw [hahead]; exact List.mem_cons_of_mem a hl), hahead, List.idxOf_cons_ne _ hne]
      exact Nat.lt_succ_self _
    · have hnot : x ∉ r.ahead := by
        rw [hahead]
        exact fun hmem => (List.mem_cons.mp hmem).elim (fun h => hne h.symm) hl
      rw [wait_of_notMem hl, wait_of_notMem hnot, hahead]
      exact Nat.add_lt_add_right (Nat.lt_succ_self _) n
  | nil =>
    have hpassed : x ∈ r.passed := by
      rwa [items, hahead, List.append_nil] at hx
    rw [wait_of_notMem (r := r) (by rw [hahead]; exact List.not_mem_nil), hahead]
    cases hcase : r.passed with
    | nil =>
      rw [hcase] at hpassed
      cases hpassed
    | cons a l =>
      have hnext : r.next = ⟨[a], l⟩ := by simp only [next, hahead, hcase]
      have hl : x ∈ l := by
        rw [hcase] at hpassed
        refine (List.mem_cons.mp hpassed).resolve_left ?_
        rintro rfl
        exact hturn (by rw [turn, hahead, hcase]; rfl)
      rw [hcase, List.length_cons] at hlength
      rw [hnext, wait_of_mem hl]
      have := List.idxOf_lt_length_of_mem hl
      simp only [List.length_nil]
      omega

end Waiting

end Roster

end Rosters

import Mathlib.Data.Nat.ModEq
import Mathlib.Logic.Function.Basic
import Mathlib.Tactic.Ring

/-!
# Rings of cells

A list kept in `n` cells that are used round and round. `r` is the cell that was read last, so that the list starts in the cell
behind it. `Holds n cells r l` says that the cells from there on are the list; the others may be anything. Nothing here names what
is kept in a cell.
-/

namespace Ring

universe u

variable {β : Type u} {n r : Nat} {cells : Nat → β} {x : β} {l : List β}

/-- The cell behind. -/
def next (n r : Nat) : Nat := (r + 1) % n

/-- The cell before. -/
def prev (n r : Nat) : Nat := if r = 0 then n - 1 else r - 1

/-- The cell of entry `i`. -/
def place (n r i : Nat) : Nat := (r + 1 + i) % n

/-- The list is in the cells. -/
structure Holds (n : Nat) (cells : Nat → β) (r : Nat) (l : List β) : Prop where
  fits : l.length ≤ n
  cell : ∀ i (h : i < l.length), cells (place n r i) = l[i]

theorem next_lt (hn : 0 < n) : next n r < n := Nat.mod_lt _ hn

theorem prev_lt (hr : r < n) : prev n r < n := by
  unfold prev
  split <;> omega

theorem place_lt (hn : 0 < n) (i : Nat) : place n r i < n := Nat.mod_lt _ hn

/-- The next cell, by the test that a pointer is made. -/
theorem next_eq (hr : r < n) : next n r = if r + 1 ≥ n then 0 else r + 1 := by
  unfold next
  split
  · rw [show r + 1 = n by omega, Nat.mod_self]
  · exact Nat.mod_eq_of_lt (by omega)

/-- The first entry is behind the cell that was read last. -/
theorem place_zero : place n r 0 = next n r := rfl

/-- Seen from the next cell, an entry is one place further in front. -/
theorem place_next (i : Nat) : place n (next n r) i = place n r (i + 1) := by
  unfold place next
  rw [Nat.add_assoc, Nat.mod_add_mod]
  congr 1
  ring

/-- Seen from the cell before, the first entry is in the cell that was read last. -/
theorem place_prev_zero (hr : r < n) : place n (prev n r) 0 = r := by
  unfold place prev
  split
  · rw [show n - 1 + 1 + 0 = n by omega, Nat.mod_self]
    omega
  · rw [show r - 1 + 1 + 0 = r by omega]
    exact Nat.mod_eq_of_lt hr

theorem place_prev_succ (hr : r < n) (i : Nat) : place n (prev n r) (i + 1) = place n r i := by
  rw [← place_next]
  congr 1
  exact place_prev_zero hr

/-- Two entries of a list that fits are in two cells. -/
theorem place_inj {i j : Nat} (hi : i < n) (hj : j < n) (h : place n r i = place n r j) : i = j := by
  have hmod : i ≡ j [MOD n] := Nat.ModEq.add_left_cancel' (r + 1) h
  rwa [Nat.ModEq, Nat.mod_eq_of_lt hi, Nat.mod_eq_of_lt hj] at hmod

/-- A list with room left is not in the cell that was read last. -/
theorem place_ne_last (hr : r < n) {i : Nat} (hi : i + 1 < n) : place n r i ≠ r := by
  intro h
  rw [← place_prev_succ hr] at h
  have := place_inj hi (Nat.zero_lt_of_lt hi) (h.trans (place_prev_zero hr).symm)
  omega

theorem Holds.nil : Holds n cells r [] where
  fits := Nat.zero_le n
  cell := fun i h => absurd h (Nat.not_lt_zero i)

/-- An entry is written behind the last. -/
theorem Holds.back (h : Holds n cells r l) (hroom : l.length < n) :
    Holds n (Function.update cells (place n r l.length) x) r (l ++ [x]) where
  fits := by
    rw [List.length_append]
    exact hroom
  cell := by
    intro i hi
    rw [List.length_append, List.length_singleton] at hi
    rcases Nat.lt_succ_iff_lt_or_eq.mp hi with hlt | rfl
    · have hne : place n r i ≠ place n r l.length := by
        intro he
        have := place_inj (by omega) hroom he
        omega
      rw [Function.update_of_ne hne, h.cell i hlt, List.getElem_append_left hlt]
    · rw [Function.update_self]
      simp

/-- An entry is written in front of the first. -/
theorem Holds.front (h : Holds n cells r l) (hr : r < n) (hroom : l.length < n) :
    Holds n (Function.update cells r x) (prev n r) (x :: l) where
  fits := hroom
  cell := by
    intro i hi
    cases i with
    | zero => rw [place_prev_zero hr, Function.update_self, List.getElem_cons_zero]
    | succ i =>
      have hlt : i < l.length := Nat.lt_of_succ_lt_succ hi
      rw [place_prev_succ hr, Function.update_of_ne (place_ne_last hr (by omega)), h.cell i hlt, List.getElem_cons_succ]

/-- The first entry is read. -/
theorem Holds.head (h : Holds n cells r (x :: l)) : cells (next n r) = x := by
  have := h.cell 0 (Nat.succ_pos l.length)
  rwa [place_zero, List.getElem_cons_zero] at this

/-- It is in the cell that was read last from then on. -/
theorem Holds.tail (h : Holds n cells r (x :: l)) : Holds n cells (next n r) l where
  fits := Nat.le_of_succ_le h.fits
  cell := by
    intro i hi
    have := h.cell (i + 1) (Nat.succ_lt_succ hi)
    rwa [← place_next, List.getElem_cons_succ] at this

/-- Only the cells of the ring count. -/
theorem Holds.congr {cells' : Nat → β} (hn : 0 < n) (h : Holds n cells r l) (hc : ∀ k < n, cells' k = cells k) :
    Holds n cells' r l where
  fits := h.fits
  cell := by
    intro i hi
    rw [hc _ (place_lt hn i), h.cell i hi]

end Ring

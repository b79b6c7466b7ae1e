import Mathlib.Algebra.GroupWithZero.Nat

/-!
# Streaks

How often the newest element of a history has come in a row, and a counter that goes back to zero when it reaches a limit. Histories
are newest first. Nothing here names a particular history.
-/

namespace Streak

universe u

variable {α : Type u} [DecidableEq α]

/-- The length of the maximal run of equal elements that the newest one is in. -/
def streak : List α → Nat
  | [] => 0
  | a :: as => (as.takeWhile fun b => b = a).length + 1

/-- The newest element once more. -/
theorem streak_cons_self (a : α) (as : List α) : streak (a :: a :: as) = streak (a :: as) + 1 := by
  simp [streak]

/-- Another element. -/
theorem streak_cons_of_ne {a b : α} (h : b ≠ a) (as : List α) : streak (a :: b :: as) = 1 := by
  simp [streak, h]

/-! ## A counter that wraps -/

/-- A counter that follows a number modulo its limit reaches the limit exactly when the next number is a multiple of it. -/
theorem succ_mod_eq_iff {n m : Nat} (hn : 0 < n) : m % n + 1 = n ↔ n ∣ m + 1 := by
  have hlt := Nat.mod_lt m hn
  rw [Nat.dvd_iff_mod_eq_zero, ← Nat.mod_add_mod]
  constructor
  · intro h
    rw [h, Nat.mod_self]
  · intro h
    rcases Nat.lt_or_eq_of_le (Nat.succ_le_of_lt hlt) with hsmall | heq
    · rw [Nat.mod_eq_of_lt hsmall] at h
      exact absurd h (Nat.succ_ne_zero _)
    · exact heq

/-- Where it does not reach the limit it goes on following. -/
theorem succ_mod_of_ne {n m : Nat} (hn : 0 < n) (h : m % n + 1 ≠ n) : (m + 1) % n = m % n + 1 := by
  have hlt := Nat.mod_lt m hn
  rw [← Nat.mod_add_mod]
  exact Nat.mod_eq_of_lt (by omega)

/-- Where it reaches the limit it goes on from zero. -/
theorem succ_mod_of_eq {n m : Nat} (h : m % n + 1 = n) : (m + 1) % n = 0 := by
  rw [← Nat.mod_add_mod, h, Nat.mod_self]

end Streak

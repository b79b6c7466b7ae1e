import Mathlib.Algebra.GroupWithZero.Nat
import Rtu.Temperature
import Rtu.Runs

/-!
# The temperature as a mean

The array is refilled from its first cell, so after every 200th call it holds the last 200 readings, in order, and the mean is
taken then. `temperature_read_iff` says for which readings the value is that mean: the sum is accumulated in 16 bits.
-/

namespace Rtu

open Runs

/-- The last 200 readings whose place ends at a multiple of 200. -/
def temperatureWindow (readings : List UInt16) : List UInt16 :=
  (readings.take (readings.length / 200 * 200)).drop (readings.length / 200 * 200 - 200)

/-- The sum of the window. -/
def temperatureWindowSum (readings : List UInt16) : Nat := ((temperatureWindow readings).map UInt16.toNat).sum

/-- The value that `temperature_read` returns at the last of these readings. -/
def temperatureAt (readings : List UInt16) : UInt16 := (run temperatureRead .boot readings).temperature

namespace TemperatureAux

/-- The loop over the array is the sum of its cells in 16 bits. -/
theorem foldl_add_toNat (cells : List UInt16) (sum : UInt16) :
    (cells.foldl (· + ·) sum).toNat = (sum.toNat + (cells.map UInt16.toNat).sum) % 65536 := by
  induction cells generalizing sum with
  | nil =>
    have hlt := sum.toNat_lt
    simp only [List.foldl_nil, List.map_nil, List.sum_nil]
    omega
  | cons cell cells ih =>
    have hadd : (sum + cell).toNat = (sum.toNat + cell.toNat) % 65536 := UInt16.toNat_add sum cell
    rw [List.foldl_cons, ih, hadd, List.map_cons, List.sum_cons]
    omega

/-- A reading that does not fill a block leaves the window. -/
theorem window_snoc (readings : List UInt16) (reading : UInt16) (h : (readings.length + 1) % 200 ≠ 0) :
    temperatureWindow (readings ++ [reading]) = temperatureWindow readings := by
  have hblock : (readings.length + 1) / 200 = readings.length / 200 := by omega
  unfold temperatureWindow
  rw [List.length_append, List.length_singleton, hblock, List.take_append_of_le_length (by omega)]

/-- Writing the cell after the first `i`. -/
theorem take_succ_set {cells : List UInt16} {i : Nat} (h : i < cells.length) (reading : UInt16) :
    (cells.set i reading).take (i + 1) = cells.take i ++ [reading] := by
  rw [List.take_add_one, List.take_set_of_le (Nat.le_refl i), List.getElem?_set_self h]
  rfl

/-- What the statics hold after a sequence of readings: the cells below the index hold the readings since the last full block,
and the value is the mean of the window, its sum taken in 16 bits. -/
structure Tracks (readings : List UInt16) (me : Temperature) : Prop where
  index : me.i.toNat = readings.length % 200
  cells : me.aTemperature.toList.take (readings.length % 200) = readings.drop (readings.length / 200 * 200)
  value : me.temperature.toNat = if readings.length < 200 then 0 else temperatureWindowSum readings % 65536 / 200

theorem tracks_boot : Tracks [] .boot :=
  ⟨rfl, rfl, rfl⟩

/-- The cells after a call, up to the one it writes. -/
theorem Tracks.written {readings : List UInt16} {me : Temperature} (h : Tracks readings me) (reading : UInt16) :
    (me.aTemperature.set me.i.toNat reading me.inRange).toList.take (readings.length % 200 + 1) =
      (readings ++ [reading]).drop (readings.length / 200 * 200) := by
  have hin : readings.length % 200 < me.aTemperature.toList.length := by
    rw [Vector.length_toList]
    exact Nat.mod_lt _ (by decide)
  have hle : readings.length / 200 * 200 ≤ readings.length := Nat.div_mul_le_self _ _
  rw [Vector.toList_set, h.index, take_succ_set hin, h.cells, List.drop_append_of_le_length hle]

/-- The call that fills the array: its cells are then the window. -/
theorem Tracks.full {readings : List UInt16} {me : Temperature} (h : Tracks readings me) (reading : UInt16)
    (hfull : readings.length % 200 = 199) :
    (me.aTemperature.set me.i.toNat reading me.inRange).toList = temperatureWindow (readings ++ [reading]) := by
  have hcells := h.written reading
  have hblock : (readings.length + 1) / 200 * 200 = readings.length + 1 := by omega
  have hstart : readings.length + 1 - 200 = readings.length / 200 * 200 := by omega
  rw [hfull, List.take_of_length_le (by rw [Vector.length_toList]; exact Nat.le_refl _)] at hcells
  unfold temperatureWindow
  rw [hcells, List.length_append, List.length_singleton, hblock, List.take_of_length_le (by simp), hstart]

/-- One call follows one reading. -/
theorem Tracks.read {readings : List UInt16} {me : Temperature} (h : Tracks readings me) (reading : UInt16) :
    Tracks (readings ++ [reading]) (temperatureRead me reading) := by
  have hlt : me.i.toNat < 200 := me.inRange
  have hindex := h.index
  have hlen : (readings ++ [reading]).length = readings.length + 1 := by simp
  have hadd : (me.i + 1).toNat = (me.i.toNat + 1) % 65536 := UInt16.toNat_add me.i 1
  unfold temperatureRead
  dsimp only
  split
  · rename_i hfull
    have h200 : (me.i + 1).toNat = 200 := by
      rw [hfull]
      rfl
    have hmod : (readings.length + 1) % 200 = 0 := by omega
    refine ⟨?_, ?_, ?_⟩
    · rw [hlen, hmod]
      rfl
    · rw [hlen, hmod, List.take_zero, List.drop_of_length_le (by rw [hlen]; omega)]
    · rw [if_neg (by rw [hlen]; omega), UInt16.toNat_div, temperatureSum, foldl_add_toNat, h.full reading (by omega)]
      simp [temperatureWindowSum]
  · rename_i hopen
    have hne : (me.i + 1).toNat ≠ 200 := fun heq => hopen (UInt16.toNat_inj.mp heq)
    have hmod : (readings.length + 1) % 200 = readings.length % 200 + 1 := by omega
    have hblock : (readings.length + 1) / 200 = readings.length / 200 := by omega
    refine ⟨?_, ?_, ?_⟩
    · rw [hlen, hmod, hadd, hindex]
      omega
    · rw [hlen, hmod, hblock]
      exact h.written reading
    · have hshort : readings.length + 1 < 200 ↔ readings.length < 200 := by omega
      have hsum : temperatureWindowSum (readings ++ [reading]) = temperatureWindowSum readings := by
        unfold temperatureWindowSum
        rw [window_snoc readings reading (by omega)]
      simp only [hlen, hshort, hsum]
      exact h.value

/-- The statics follow every sequence of readings. -/
theorem tracks_run (done rest : List UInt16) {me : Temperature} (h : Tracks done me) :
    Tracks (done ++ rest) (run temperatureRead me rest) := by
  induction rest generalizing done me with
  | nil => simpa using h
  | cons reading rest ih => simpa using ih (done ++ [reading]) (h.read reading)

end TemperatureAux

open TemperatureAux

/-- The temperature is the mean of its window, exactly when the sum of the window fits in 16 bits. For every sequence of readings
of the converter: the value returned at the last of them is 0 if there are fewer than 200, and otherwise the mean, rounded down, of
the 200 readings that end at the largest multiple of 200 not above their number, if and only if there are fewer than 200 or those
200 readings add up to less than 65536. -/
theorem temperature_read_iff (readings : List UInt16) :
    ((temperatureAt readings).toNat = if readings.length < 200 then 0 else temperatureWindowSum readings / 200) ↔
      readings.length < 200 ∨ temperatureWindowSum readings < 65536 := by
  have hvalue : (temperatureAt readings).toNat =
      if readings.length < 200 then 0 else temperatureWindowSum readings % 65536 / 200 :=
    (tracks_run [] readings tracks_boot).value
  rw [hvalue]
  by_cases hshort : readings.length < 200
  · simp [hshort]
  · rw [if_neg hshort, if_neg hshort]
    omega

/-- Two hundred readings of 1023: their mean is 1023, and the value returned is 39. -/
theorem temperature_read_false :
    ¬∀ readings : List UInt16, (∀ reading ∈ readings, reading.toNat ≤ 1023) →
      (temperatureAt readings).toNat = if readings.length < 200 then 0 else temperatureWindowSum readings / 200 := by
  intro h
  have hmean := h (List.replicate 200 1023) (by
    intro reading hmem
    rw [List.eq_of_mem_replicate hmem]
    decide)
  have hsum : temperatureWindowSum (List.replicate 200 1023) = 204600 := by
    simp only [temperatureWindowSum, temperatureWindow, List.length_replicate, List.take_replicate, List.drop_replicate,
      List.map_replicate, List.sum_replicate_nat]
    rfl
  have hvalue := (tracks_run [] (List.replicate 200 1023) tracks_boot).value
  rw [List.nil_append, List.length_replicate, hsum] at hvalue
  rw [List.length_replicate, hsum] at hmean
  have heq := hmean.symm.trans hvalue
  revert heq
  decide

end Rtu

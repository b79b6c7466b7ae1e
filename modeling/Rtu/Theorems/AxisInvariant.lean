import Rtu.Lemmas.MotPap

/-!
# The invariant of an axis over complete operations
-/

namespace Rtu

open Runs

/-- After any sequence of complete operations on an axis, the structure is in order. -/
theorem axisOk_run (ax : Axis) (rate : UInt32) (ops : List AxisOp) :
    AxisOk rate (run AxisOp.apply (ax.init rate) ops) :=
  run_inv (AxisOk rate) (fun _ op h => h.apply op) (axisOk_init ax rate) ops

/-- Axis state invariant. After any sequence of complete operations on an axis set up by its `init` function, on a timer clock
of constant rate: if the timer is running then the type is not STOP, the direction output holds `dir`, the frequency is 25 kHz
to 125 kHz and the match register is the one of that frequency. No call of `tmr_set_freq` so far had a frequency of 0 or above
the maximum (none answered an error), and no write of the direction output changed it under a running timer. -/
theorem axis_state_invariant (ax : Axis) (rate : UInt32) (ops : List AxisOp) :
    ((run AxisOp.apply (ax.init rate) ops).tmr.started = true →
      (run AxisOp.apply (ax.init rate) ops).type ≠ .stop ∧
      (run AxisOp.apply (ax.init rate) ops).dirOut = some (run AxisOp.apply (ax.init rate) ops).dir ∧
      25000 ≤ (run AxisOp.apply (ax.init rate) ops).freq.toNat ∧
      (run AxisOp.apply (ax.init rate) ops).freq.toNat ≤ 125000 ∧
      (run AxisOp.apply (ax.init rate) ops).tmr.mr1.toNat =
        rate.toNat / (2 * (run AxisOp.apply (ax.init rate) ops).freq.toNat)) ∧
    (∀ hz ret, .tmrSetFreq hz ret ∈ (run AxisOp.apply (ax.init rate) ops).calls →
      hz ≠ 0 ∧ hz ≤ motPapCompumotorMaxFreq ∧ ret = 0) ∧
    (∀ dir last, .direction dir last true ∈ (run AxisOp.apply (ax.init rate) ops).calls → last = some dir) := by
  have h := axisOk_run ax rate ops
  refine ⟨?_, ?_, ?_⟩
  · intro hrun
    have hne := h.running hrun
    obtain ⟨hge, hle, hmr⟩ := h.freq hne
    exact ⟨hne, h.output hne, hge, hle, hmr⟩
  · intro hz ret hmem
    exact h.calls _ hmem
  · intro dir last hmem
    exact h.calls _ hmem rfl

end Rtu

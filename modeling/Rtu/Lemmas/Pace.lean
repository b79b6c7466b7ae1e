import Rtu.Lemmas.Backlog
import Rtu.Lemmas.MotPap

/-!
# The frequency of an axis under every interleaving

`AxisOk` is about complete operations: with the tasks suspended in their delays, the timer and the direction of an axis may be
anything. What is left under every interleaving is the frequency: an axis whose type is not STOP has one of a motor.
-/

namespace Rtu

/-- An axis that is not stopped has the frequency of a motor. -/
def MotPap.Paced (me : MotPap) : Prop := me.type ≠ .stop → 25000 ≤ me.freq.toNat ∧ me.freq.toNat ≤ 125000

/-- So has one whose command task has yet to set it. -/
structure AxisTasks.Paced (t : AxisTasks) : Prop where
  me : t.me.Paced
  held : ∀ dir speed, t.cmd = some (.freeRun dir speed) → motPapFreeRunSpeedOk speed = true

namespace PaceAux

theorem Paced.congr {me me' : MotPap} (h : me.Paced) (htype : me'.type = me.type) (hfreq : me'.freq = me.freq) : me'.Paced := by
  intro hne
  rw [htype] at hne
  rw [hfreq]
  exact h hne

theorem paced_stop {me : MotPap} (h : me.type = .stop) : me.Paced := fun hne => absurd h hne

theorem paced_of_freq {me : MotPap} {freq : UInt32} (h : me.freq = freq) (hge : 25000 ≤ freq.toNat) (hle : freq.toNat ≤ 125000) :
    me.Paced := by
  intro _
  rw [h]
  exact ⟨hge, hle⟩

theorem paced_moveFreeRunEnd (me : MotPap) (dir : MotPapDirection) {speed : UInt32} (h : motPapFreeRunSpeedOk speed = true) :
    (motPapMoveFreeRunEnd me dir speed).Paced := fun _ => freeRunFreq_bounds speed h

theorem paced_moveClosedLoopEnd (me : MotPap) (dir : MotPapDirection) : (motPapMoveClosedLoopEnd me dir).Paced :=
  paced_of_freq (show _ = motPapMaxFreq from rfl) (by decide) (by decide)

/-- A message taken. -/
theorem paced_axisTask {me : MotPap} (h : me.Paced) (msg : MotPapMsg) (raw : UInt16) :
    (axisTask me msg raw).1.Paced ∧
      ∀ dir speed, (axisTask me msg raw).2 = some (.freeRun dir speed) → motPapFreeRunSpeedOk speed = true := by
  have hread : (motPapReadCorrectedPos { me with stalled := false, stalledCounter := 0, alreadyThere := false } raw).Paced :=
    Paced.congr h rfl rfl
  unfold axisTask
  dsimp only
  split
  · unfold motPapMoveFreeRun
    split
    · rename_i hspeed
      split
      · refine ⟨Paced.congr hread rfl rfl, ?_⟩
        intro dir speed hk
        cases hk
        exact hspeed
      · exact ⟨paced_moveFreeRunEnd _ _ hspeed, nofun⟩
    · exact ⟨hread, nofun⟩
  · unfold motPapMoveClosedLoop MotPap.moveToPosCmd
    split
    · exact ⟨Paced.congr hread rfl rfl, nofun⟩
    · split
      · refine ⟨Paced.congr hread rfl rfl, ?_⟩
        intro dir speed hk
        cases hk
      · exact ⟨paced_moveClosedLoopEnd _ _, nofun⟩
  · exact ⟨paced_stop rfl, nofun⟩

/-- A supervision, up to its delay if it has one. -/
theorem paced_supervise {me : MotPap} (h : me.Paced) (raw : UInt16) (stallDetection : Bool) :
    (motPapSupervise me raw stallDetection).1.Paced := by
  have hchecked : (motPapStallCheck (motPapReadCorrectedPos me raw) stallDetection).1.Paced := by
    unfold motPapStallCheck
    split
    · split
      · split <;> exact Paced.congr h rfl rfl
      · exact Paced.congr h rfl rfl
    · exact Paced.congr h rfl rfl
  have hslow : ∀ me : MotPap, me.Paced → me.slowDown.Paced := by
    intro me hme
    unfold MotPap.slowDown
    split
    · exact paced_of_freq (show _ = motPapMaxFreq / 4 from rfl) (by decide) (by decide)
    · exact hme
  unfold motPapSupervise
  dsimp only
  split
  · exact Paced.congr hchecked rfl rfl
  · unfold motPapFollow
    split
    · split
      · exact paced_stop rfl
      · split
        · exact Paced.congr (hslow _ hchecked) rfl rfl
        · exact Paced.congr (hslow _ hchecked) rfl rfl
    · exact Paced.congr hchecked rfl rfl

end PaceAux

open PaceAux

theorem paced_init (ax : Axis) (rate : UInt32) : (AxisTasks.init ax rate).Paced := by
  obtain ⟨offset, h⟩ := ax.init_eq rate
  refine ⟨?_, nofun⟩
  show (ax.init rate).Paced
  rw [h]
  exact paced_stop rfl

/-- Every step of the tasks of an axis keeps its pace. -/
theorem paced_axisStep {t : AxisTasks} (h : t.Paced) (i : AxisStep) : (t.step i).Paced := by
  cases i with
  | receive msg raw =>
    simp only [AxisTasks.step, AxisTasks.receive]
    split
    · obtain ⟨hme, hheld⟩ := paced_axisTask h.me msg raw
      exact ⟨hme, hheld⟩
    · exact h
  | cmdResume =>
    simp only [AxisTasks.step, AxisTasks.cmdResume]
    split
    · exact h
    · rename_i k hk
      refine ⟨?_, nofun⟩
      cases k with
      | freeRun dir speed => exact paced_moveFreeRunEnd t.me dir (h.held dir speed hk)
      | closedLoop dir => exact paced_moveClosedLoopEnd t.me dir
  | supervise raw stallDetection =>
    simp only [AxisTasks.step, AxisTasks.supervise]
    split
    · exact ⟨paced_supervise h.me raw stallDetection, h.held⟩
    · exact h
  | supResume =>
    simp only [AxisTasks.step, AxisTasks.supResume]
    split
    · exact h
    · exact ⟨Paced.congr h.me rfl rfl, h.held⟩

/-- Every step of the controller keeps the pace of both axes. -/
theorem paced_step {c : Controller} (h : ∀ ax, (c.axis ax).Paced) (l : ControllerLabel) (ax : Axis) :
    ((c.step l).axis ax).Paced := by
  cases axisTurn c l ax with
  | still htasks _ | enter _ _ _ _ htasks _ =>
    rw [htasks]
    exact h ax
  | offset offset htasks _ | status raw htasks _ =>
    rw [htasks]
    exact ⟨Paced.congr (h ax).me rfl rfl, (h ax).held⟩
  | receive heap raw b _ htasks _ =>
    rw [htasks]
    exact paced_axisStep (h ax) (.receive (b.read heap) raw)
  | cmdResume htasks _ =>
    rw [htasks]
    exact paced_axisStep (h ax) .cmdResume
  | supervise raw htasks _ =>
    rw [htasks]
    exact paced_axisStep (h ax) (.supervise raw c.stallDetection)
  | supResume _ htasks _ =>
    rw [htasks]
    exact paced_axisStep (h ax) .supResume

theorem paced_boot (stack : HMICmdVar) (rate : UInt32) (ax : Axis) : ((Controller.boot stack rate).axis ax).Paced := by
  cases ax
  · exact paced_init .arm rate
  · exact paced_init .pole rate

end Rtu

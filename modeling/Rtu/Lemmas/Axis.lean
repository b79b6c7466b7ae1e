import Rtu.Axis

/-!
# Which messages start a motion

A command task starts a motion when it calls `tmr_start`. A STOP and a free run at a rejected speed never do; a free run at an
accepted speed and, for some reading, a positioning do at once, or enter the delay of a reversal and do when it is over. Before that,
what the tasks of an axis and the timer interrupt leave alone.
-/

namespace Rtu

/-! ## Readings -/

theorem readPosition_axisRdc (raw : UInt16) : axisRdc.readPosition raw = raw ^^^ 0xFFFF := by
  simp [Ad2s1210.readPosition, axisRdc]

theorem offsetCorrection_sixteen (pos offset : UInt16) : motPapOffsetCorrection pos offset 16 = pos - offset := by
  have hp := pos.toNat_lt
  have ho := offset.toNat_lt
  unfold motPapOffsetCorrection
  apply UInt16.toNat_inj.mp
  rw [UInt16.toNat_sub]
  have h16 : (1 <<< (16 : UInt8).toNat : Nat) = 65536 := rfl
  rw [h16]
  dsimp only
  unfold UInt16.ofInt
  rw [UInt16.toNat_ofNat']
  split <;> omega

/-- For every position there is a reading that stands for it. -/
theorem exists_at (me : MotPap) (hrdc : me.rdc = axisRdc) (pos : UInt16) : ∃ raw, (motPapReadCorrectedPos me raw).posAct = pos := by
  refine ⟨(pos + me.offset) ^^^ 0xFFFF, ?_⟩
  unfold motPapReadCorrectedPos
  simp only [hrdc, readPosition_axisRdc]
  rw [UInt16.xor_assoc, UInt16.xor_self, UInt16.xor_zero, show axisRdc.resolution = 16 from rfl, offsetCorrection_sixteen]
  simp

/-- For every set point there is a reading that is not at it. -/
theorem exists_away (me : MotPap) (hrdc : me.rdc = axisRdc) (setpoint : UInt16) :
    ∃ raw, ¬({ motPapReadCorrectedPos me raw with posCmd := setpoint } : MotPap).error.natAbs < motPapPosThreshold := by
  obtain ⟨raw, hpos⟩ := exists_at me hrdc (setpoint + 100)
  refine ⟨raw, ?_⟩
  unfold MotPap.error
  rw [show ({ motPapReadCorrectedPos me raw with posCmd := setpoint } : MotPap).posAct = setpoint + 100 from hpos]
  have hs := setpoint.toNat_lt
  have hadd : (setpoint + 100).toNat = (setpoint.toNat + 100) % 65536 := UInt16.toNat_add setpoint 100
  unfold motPapPosThreshold
  dsimp only
  omega

/-! ## What is left alone -/

/-- What no task of an axis writes: the converter, the offset, and what the interrupt keeps. -/
def MotPap.untouched (me : MotPap) : Ad2s1210 × UInt16 × UInt32 × MotPapDirection := (me.rdc, me.offset, me.halfPulses, me.lastDir)

theorem untouched_axisTask (me : MotPap) (msg : MotPapMsg) (raw : UInt16) : (axisTask me msg raw).1.untouched = me.untouched := by
  unfold axisTask
  dsimp only
  split
  · unfold motPapMoveFreeRun
    split
    · split <;> rfl
    · rfl
  · unfold motPapMoveClosedLoop MotPap.moveToPosCmd
    split
    · rfl
    · split <;> rfl
  · rfl

theorem untouched_stallCheck (me : MotPap) (stallDetection : Bool) :
    (motPapStallCheck me stallDetection).1.untouched = me.untouched := by
  unfold motPapStallCheck
  split
  · split
    · split <;> rfl
    · rfl
  · rfl

theorem untouched_slowDown (me : MotPap) : me.slowDown.untouched = me.untouched := by
  unfold MotPap.slowDown
  split <;> rfl

theorem untouched_follow (me : MotPap) : (motPapFollow me).1.untouched = me.untouched := by
  unfold motPapFollow
  split
  · split
    · exact untouched_slowDown me
    · split <;> exact untouched_slowDown me
  · rfl

theorem untouched_supervise (me : MotPap) (raw : UInt16) (stallDetection : Bool) :
    (motPapSupervise me raw stallDetection).1.untouched = me.untouched := by
  have hchecked := untouched_stallCheck (motPapReadCorrectedPos me raw) stallDetection
  unfold motPapSupervise
  dsimp only
  split
  · exact hchecked
  · exact (untouched_follow _).trans hchecked

theorem untouched_resume (k : CmdDelay) (me : MotPap) : (k.resume me).untouched = me.untouched := by
  cases k <;> rfl

/-- A step of the tasks. -/
theorem untouched_axisStep (t : AxisTasks) (i : AxisStep) : (t.step i).me.untouched = t.me.untouched := by
  cases i with
  | receive msg raw =>
    unfold AxisTasks.step AxisTasks.receive
    cases hcmd : t.cmd with
    | none => exact untouched_axisTask t.me msg raw
    | some k => rfl
  | cmdResume =>
    unfold AxisTasks.step AxisTasks.cmdResume
    cases hcmd : t.cmd with
    | none => rfl
    | some k => exact untouched_resume k t.me
  | supervise raw stallDetection =>
    unfold AxisTasks.step AxisTasks.supervise
    cases hsup : t.sup with
    | none => exact untouched_supervise t.me raw stallDetection
    | some dir => rfl
  | supResume =>
    unfold AxisTasks.step AxisTasks.supResume
    cases hsup : t.sup with
    | none => rfl
    | some dir => rfl

/-- The timer interrupt writes what it keeps, and toggles the pulse output. -/
theorem isr_eq (me : MotPap) : ∃ lastDir halfPulses, (motPapIsr me).1 = { me with lastDir, halfPulses, calls := .pulse :: me.calls } := by
  unfold motPapIsr MotPap.trackDir MotPap.pulse
  split
  · split <;> exact ⟨_, _, rfl⟩
  · split <;> exact ⟨_, _, rfl⟩

theorem rdc_axisStep (t : AxisTasks) (i : AxisStep) : (t.step i).me.rdc = t.me.rdc := congrArg Prod.fst (untouched_axisStep t i)

/-! ## Starts -/

/-- How often the timer has been started. -/
def MotPap.starts (me : MotPap) : Nat := me.calls.count .tmrStart

/-- The message is a STOP, or a free run at a rejected speed. -/
def MotPapMsg.Harmless (m : MotPapMsg) : Prop :=
  m.type = .stop ∨ (m.type = .freeRunning ∧ motPapFreeRunSpeedOk m.freeRunSpeed = false)

theorem starts_restart (me : MotPap) : me.restart.starts = me.starts + 1 := by
  simp [MotPap.starts, MotPap.restart, MotPap.tmrStart, MotPap.tmrSetFreq, MotPap.tmrStop]

theorem starts_moveFreeRunEnd (me : MotPap) (dir : MotPapDirection) (speed : UInt32) :
    (motPapMoveFreeRunEnd me dir speed).starts = me.starts + 1 := by
  unfold motPapMoveFreeRunEnd
  rw [starts_restart]
  simp [MotPap.starts, MotPap.direction]

theorem starts_moveClosedLoopEnd (me : MotPap) (dir : MotPapDirection) :
    (motPapMoveClosedLoopEnd me dir).starts = me.starts + 1 := by
  unfold motPapMoveClosedLoopEnd
  rw [starts_restart]
  simp [MotPap.starts, MotPap.direction]

/-- A command that goes on after its delay starts a motion. -/
theorem starts_resume (k : CmdDelay) (me : MotPap) : me.starts < (k.resume me).starts := by
  cases k with
  | freeRun dir speed =>
    rw [CmdDelay.resume, starts_moveFreeRunEnd]
    omega
  | closedLoop dir =>
    rw [CmdDelay.resume, starts_moveClosedLoopEnd]
    omega

/-- A harmless message starts no motion and enters no delay. -/
theorem axisTask_harmless {msg : MotPapMsg} (h : msg.Harmless) (me : MotPap) (raw : UInt16) :
    (axisTask me msg raw).1.starts = me.starts ∧ (axisTask me msg raw).2 = none := by
  unfold axisTask
  rcases h with htype | ⟨htype, hspeed⟩
  · rw [htype]
    exact ⟨by simp [MotPap.starts, motPapStop, MotPap.tmrStop, motPapReadCorrectedPos], rfl⟩
  · rw [htype]
    dsimp only
    unfold motPapMoveFreeRun
    rw [if_neg (by simp [hspeed])]
    exact ⟨rfl, rfl⟩

/-- A message that is not harmless starts a motion or enters a delay, for some reading. -/
theorem axisTask_motion {msg : MotPapMsg} (h : ¬msg.Harmless) (me : MotPap) (hrdc : me.rdc = axisRdc) :
    ∃ raw, me.starts < (axisTask me msg raw).1.starts ∨ ∃ k, (axisTask me msg raw).2 = some k := by
  cases htype : msg.type with
  | stop => exact absurd (Or.inl htype) h
  | freeRunning =>
    have hspeed : motPapFreeRunSpeedOk msg.freeRunSpeed = true := by
      cases hok : motPapFreeRunSpeedOk msg.freeRunSpeed with
      | true => rfl
      | false => exact absurd (Or.inr ⟨htype, hok⟩) h
    refine ⟨0, ?_⟩
    unfold axisTask
    rw [htype]
    dsimp only
    unfold motPapMoveFreeRun
    rw [if_pos hspeed]
    split
    · exact Or.inr ⟨_, rfl⟩
    · left
      rw [starts_moveFreeRunEnd]
      exact Nat.lt_succ_self _
  | closedLoop =>
    obtain ⟨raw, haway⟩ := exists_away { me with stalled := false, stalledCounter := 0, alreadyThere := false } hrdc
      msg.closedLoopSetpoint
    refine ⟨raw, ?_⟩
    unfold axisTask
    rw [htype]
    dsimp only
    unfold motPapMoveClosedLoop MotPap.moveToPosCmd
    rw [if_neg haway]
    split
    · exact Or.inr ⟨_, rfl⟩
    · left
      rw [starts_moveClosedLoopEnd]
      exact Nat.lt_succ_self _

/-! ## Blocks -/

/-- Whatever the heap held, the block is read as a harmless message. -/
def MotPapBlock.Harmless (b : MotPapBlock) : Prop :=
  b.type = some .stop ∨
    (b.type = some .freeRunning ∧ ∃ speed, b.freeRunSpeed = some speed ∧ motPapFreeRunSpeedOk speed = false)

theorem read_harmless {b : MotPapBlock} (h : b.Harmless) (heap : MotPapMsg) : (b.read heap).Harmless := by
  rcases h with htype | ⟨htype, speed, hspeed, hok⟩
  · exact Or.inl (by simp [MotPapBlock.read, htype])
  · exact Or.inr ⟨by simp [MotPapBlock.read, htype], by simp [MotPapBlock.read, hspeed, hok]⟩

/-- A block that is not harmless is read as a message that is not, for some contents of the heap. -/
theorem exists_not_harmless {b : MotPapBlock} (h : ¬b.Harmless) : ∃ heap, ¬(b.read heap).Harmless := by
  refine ⟨{ type := .closedLoop, freeRunDirection := .cw, freeRunSpeed := 1, closedLoopSetpoint := 0 }, ?_⟩
  rintro (htype | ⟨htype, hspeed⟩)
  · cases hb : b.type with
    | none => simp [MotPapBlock.read, hb] at htype
    | some t =>
      have ht : t = .stop := by simpa [MotPapBlock.read, hb] using htype
      exact h (Or.inl (by rw [hb, ht]))
  · cases hb : b.type with
    | none => simp [MotPapBlock.read, hb] at htype
    | some t =>
      have ht : t = .freeRunning := by simpa [MotPapBlock.read, hb] using htype
      cases hv : b.freeRunSpeed with
      | none =>
        have hone : motPapFreeRunSpeedOk 1 = false := by simpa [MotPapBlock.read, hv] using hspeed
        exact absurd hone (by decide)
      | some speed => exact h (Or.inr ⟨by rw [hb, ht], speed, hv, by simpa [MotPapBlock.read, hv] using hspeed⟩)

end Rtu

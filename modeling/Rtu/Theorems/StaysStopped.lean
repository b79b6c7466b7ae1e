import Rtu.Lemmas.Axis
import Rtu.Lemmas.Supervise

/-!
# A finished or stalled axis

`stalled` and `already_there` are set in three places, and only one of them, the set point reached under supervision, makes the
type STOP. After a stall, or a positioning to where the axis already was, the type can still be CLOSED_LOOP, and a supervision
that was signalled before finds a motor to slow down or to turn round. `stays_stopped_iff` says that nothing else restarts an
axis.
-/

namespace Rtu

open Runs

/-- The axis has stalled, or is where it was sent. -/
def MotPap.Finished (me : MotPap) : Prop := me.stalled = true ∨ me.alreadyThere = true

/-- A finished axis has its timer stopped. -/
def MotPap.StaysStopped (me : MotPap) : Prop := me.Finished → me.tmr.started = false

/-- The operation is not a supervision of a finished axis whose type is still CLOSED_LOOP, at a reading on which the stall check
does not trip and which is 6 or more counts from the set point, and either less than 100 from it or on the other side of it. -/
def MotPap.NoRestart (me : MotPap) (op : AxisOp) : Prop :=
  ∀ raw stallDetection, op = .supervise raw stallDetection → me.Finished → me.type = .closedLoop →
    ¬(motPapReadCorrectedPos me raw).TripsAt stallDetection →
    motPapPosThreshold ≤ (motPapReadCorrectedPos me raw).error.natAbs →
    motPapPosProximityThreshold ≤ (motPapReadCorrectedPos me raw).error.natAbs ∧
      me.dir = motPapDirectionCalculate (motPapReadCorrectedPos me raw).error

namespace StaysStoppedAux

/-! ## Messages -/

/-- A free run leaves the flags clear. -/
theorem finished_moveFreeRun {me : MotPap} (h : ¬me.Finished) (direction : MotPapDirection) (speed : UInt32) :
    ¬(motPapMoveFreeRun me direction speed).1.Finished := by
  unfold motPapMoveFreeRun
  split
  · split
    · exact h
    · exact h
  · exact h

/-- The end of a command leaves the flags as they are. -/
theorem finished_resume (k : CmdDelay) (me : MotPap) : (k.resume me).Finished ↔ me.Finished := by
  cases k <;> exact Iff.rfl

/-- A positioning sets `already_there` only as it stops the timer, and then it is at its end. -/
theorem moveClosedLoop_finished {me : MotPap} (h : ¬me.Finished) (setpoint : UInt16) :
    ¬(motPapMoveClosedLoop me setpoint).1.Finished ∨
      ((motPapMoveClosedLoop me setpoint).1.tmr.started = false ∧ (motPapMoveClosedLoop me setpoint).2 = none) := by
  unfold motPapMoveClosedLoop MotPap.moveToPosCmd
  split
  · exact Or.inr ⟨rfl, rfl⟩
  · split
    · exact Or.inl h
    · exact Or.inl h

/-- A message, up to its delay if it has one: the flags are clear, or the timer is stopped and the message handled. -/
theorem axisTask_finished (me : MotPap) (msg : MotPapMsg) (raw : UInt16) :
    ¬(axisTask me msg raw).1.Finished ∨ ((axisTask me msg raw).1.tmr.started = false ∧ (axisTask me msg raw).2 = none) := by
  have hclear : ¬(motPapReadCorrectedPos { me with stalled := false, stalledCounter := 0, alreadyThere := false } raw).Finished := by
    simp [MotPap.Finished, motPapReadCorrectedPos]
  unfold axisTask
  dsimp only
  split
  · exact Or.inl (finished_moveFreeRun hclear _ _)
  · exact moveClosedLoop_finished hclear _
  · exact Or.inr ⟨rfl, rfl⟩

/-- A message handled to its end leaves a finished axis stopped. -/
theorem message_staysStopped (me : MotPap) (msg : MotPapMsg) (raw : UInt16) :
    (axisTaskComplete me msg raw).StaysStopped := by
  intro hfin
  have htask := axisTask_finished me msg raw
  unfold axisTaskComplete at hfin ⊢
  cases heq : axisTask me msg raw with
  | mk me' held =>
    rw [heq] at htask hfin
    cases held with
    | none =>
      rcases htask with hclear | ⟨hstop, -⟩
      · exact absurd hfin hclear
      · exact hstop
    | some k =>
      rcases htask with hclear | ⟨-, hnone⟩
      · exact absurd ((finished_resume k me').mp hfin) hclear
      · cases hnone

/-! ## Supervisions -/

/-- A motor in closed loop, 6 counts or more from its set point: its flags stay, and the timer is started if the set point is near
or behind it. -/
theorem followed_away {me : MotPap} (h : me.type = .closedLoop) (haway : motPapPosThreshold ≤ me.error.natAbs) :
    (me.followed.Finished ↔ me.Finished) ∧
      (me.error.natAbs < motPapPosProximityThreshold ∨ me.dir ≠ motPapDirectionCalculate me.error →
        me.followed.tmr.started = true) ∧
      (motPapPosProximityThreshold ≤ me.error.natAbs ∧ me.dir = motPapDirectionCalculate me.error →
        me.followed.tmr.started = me.tmr.started) := by
  obtain ⟨-, -, -, -, hstalled, hthere, -, -, -, -⟩ := slowDown_frame me
  by_cases hdir : me.dir = motPapDirectionCalculate me.error
  · rw [followed_ahead h haway hdir]
    refine ⟨by simp [MotPap.Finished, MotPap.cont, hstalled, hthere], ?_, ?_⟩
    · rintro (hnear | hturn)
      · unfold MotPap.slowDown
        rw [if_pos hnear]
        rfl
      · exact absurd hdir hturn
    · rintro ⟨hfar, -⟩
      unfold MotPap.slowDown
      rw [if_neg (Nat.not_lt.mpr hfar)]
      rfl
  · rw [followed_turned h haway hdir]
    refine ⟨?_, fun _ => rfl, fun hback => absurd hback.2 hdir⟩
    simp [MotPap.Finished, motPapSuperviseEnd, MotPap.cont, MotPap.tmrStart, MotPap.direction, MotPap.tmrStop, hstalled, hthere]

/-- The rest of a supervision leaves a finished axis stopped if it found it so, and did not find it in closed loop, away from its
set point, with the set point near or behind it. -/
theorem followed_staysStopped {me : MotPap} (h : me.StaysStopped)
    (hno : me.Finished → me.type = .closedLoop → motPapPosThreshold ≤ me.error.natAbs →
      motPapPosProximityThreshold ≤ me.error.natAbs ∧ me.dir = motPapDirectionCalculate me.error) :
    me.followed.StaysStopped := by
  intro hfin
  by_cases htype : me.type = .closedLoop
  · by_cases hnear : me.error.natAbs < motPapPosThreshold
    · rw [followed_reached htype hnear]
      rfl
    · have haway := Nat.not_lt.mp hnear
      obtain ⟨hflags, -, hsame⟩ := followed_away htype haway
      have hfin' := hflags.mp hfin
      rw [hsame (hno hfin' htype haway)]
      exact h hfin'
  · rw [followed_of_ne_closedLoop htype] at hfin ⊢
    exact h hfin

/-- A supervision that restarts nothing leaves a finished axis stopped. -/
theorem supervise_staysStopped {me : MotPap} (h : me.StaysStopped) {raw : UInt16} {stallDetection : Bool}
    (hno : me.NoRestart (.supervise raw stallDetection)) : (motPapSuperviseComplete me raw stallDetection).StaysStopped := by
  by_cases htrip : (motPapReadCorrectedPos me raw).TripsAt stallDetection
  · rw [superviseComplete_of_trips htrip]
    exact fun _ => rfl
  · rw [superviseComplete_of_not_trips htrip]
    apply followed_staysStopped
    · exact h
    · intro hfin htype haway
      exact hno raw stallDetection rfl hfin htype htrip haway

/-- A step that restarts a finished axis leaves it finished and running. -/
theorem not_staysStopped_of_restart {me : MotPap} {op : AxisOp} (h : ¬me.NoRestart op) : ¬(op.apply me).StaysStopped := by
  simp only [MotPap.NoRestart, Classical.not_imp, Classical.not_forall] at h
  obtain ⟨raw, stallDetection, rfl, hfin, htype, htrip, haway, hback⟩ := h
  have heq := superviseComplete_of_not_trips htrip
  obtain ⟨hflags, hstart, -⟩ := @followed_away ({ motPapReadCorrectedPos me raw with
    stalledCounter := (motPapReadCorrectedPos me raw).countStall stallDetection } : MotPap) htype haway
  have hrun : (motPapSuperviseComplete me raw stallDetection).tmr.started = true := by
    rw [heq]
    apply hstart
    by_cases hnear : (motPapReadCorrectedPos me raw).error.natAbs < motPapPosProximityThreshold
    · exact Or.inl hnear
    · exact Or.inr fun hdir => hback ⟨Nat.not_lt.mp hnear, hdir⟩
  intro hstop
  have hstill : (motPapSuperviseComplete me raw stallDetection).Finished := by
    rw [heq]
    exact hflags.mpr hfin
  have hfalse := hstop hstill
  rw [AxisOp.apply, hrun] at hfalse
  cases hfalse

/-- Every operation that restarts nothing leaves a finished axis stopped. -/
theorem apply_staysStopped {me : MotPap} (h : me.StaysStopped) {op : AxisOp} (hno : me.NoRestart op) :
    (op.apply me).StaysStopped := by
  cases op with
  | message msg raw => exact message_staysStopped me msg raw
  | supervise raw stallDetection => exact supervise_staysStopped h hno
  | isr =>
    obtain ⟨lastDir, halfPulses, hisr⟩ := isr_eq me
    rw [AxisOp.apply, hisr]
    exact h
  | status raw => exact h
  | setOffset offset => exact h

end StaysStoppedAux

open StaysStoppedAux

/-- A finished axis stays stopped, exactly when no supervision restarts it. After every operation of any sequence of complete
operations on an axis set up by its `init` function, a stalled axis or one that is where it was sent has its timer stopped, if
and only if no operation of the sequence is a supervision of a finished axis that is still in closed loop, with a reading on
which the stall check does not trip, 6 counts or more from the set point, and less than 100 from it or beyond it. -/
theorem stays_stopped_iff (ax : Axis) (rate : UInt32) (ops : List AxisOp) :
    Always AxisOp.apply MotPap.StaysStopped (ax.init rate) ops ↔
      Steps AxisOp.apply MotPap.NoRestart (ax.init rate) ops := by
  constructor
  · intro h pre op hpre
    by_cases hno : (run AxisOp.apply (ax.init rate) pre).NoRestart op
    · exact hno
    · have hstop := h (pre ++ [op]) hpre
      rw [run_snoc] at hstop
      exact absurd hstop (not_staysStopped_of_restart hno)
  · intro h
    have h0 : (ax.init rate).StaysStopped := by
      obtain ⟨offset, heq⟩ := ax.init_eq rate
      rw [heq]
      exact fun _ => rfl
    exact always_of_steps MotPap.StaysStopped (fun _ _ hs hno => apply_staysStopped hs hno) h0 h

/-- A positioning to where the axis is: the arm moves to 2000 from 1000 and is told at 1500 to go to 1500, which stops it there
with the type as it was. The supervision signalled before reads 1510, and slows down a motor that is stopped. -/
theorem stays_stopped_false :
    ¬∀ (ax : Axis) (rate : UInt32) (ops : List AxisOp), Always AxisOp.apply MotPap.StaysStopped (ax.init rate) ops := by
  intro h
  have hall := h .arm 204000000 [
    .message { type := .closedLoop, freeRunDirection := .cw, freeRunSpeed := 0, closedLoopSetpoint := 2000 } 23305,
    .message { type := .closedLoop, freeRunDirection := .cw, freeRunSpeed := 0, closedLoopSetpoint := 1500 } 22805,
    .supervise 22795 false]
  have hstop := hall.last (Or.inr (by decide))
  exact absurd hstop (by decide)

end Rtu

import Rtu.Lemmas.MotPap

/-!
# The last command, under every interleaving of the two tasks of an axis

The command task and the supervisor task share the structure and can each be suspended in the delay of a reversal. The
supervisor holds the direction it calculated before its delay, and after the delay it writes that direction and starts the
timer without looking at `type` again: a command handled to its end meanwhile is undone. `lastCommandWins_iff` says that this
is the only way the last command can be lost.
-/

namespace Rtu

open Runs

/-- An axis, with what an observer of its queue and of the supervisor knows: the last message received, and whether a
supervision has tripped on a stall since. -/
structure Watched where
  tasks : AxisTasks
  last : Option MotPapMsg
  tripped : Bool
  deriving DecidableEq, Repr

/-- An axis at boot, no message received. -/
def Watched.init (ax : Axis) (rate : UInt32) : Watched := { tasks := .init ax rate, last := none, tripped := false }

/-- One step of the axis, as its observer sees it. -/
def Watched.step (w : Watched) (i : AxisStep) : Watched :=
  { tasks := w.tasks.step i
    last := match i with
      | .receive msg _ => if w.tasks.cmd = none then some msg else w.last
      | _ => w.last
    tripped := match i with
      | .receive _ _ => w.tripped && decide (w.tasks.cmd ≠ none)
      | .supervise raw stallDetection =>
        w.tripped || decide (w.tasks.sup = none) && motPapStallTrips w.tasks.me raw stallDetection
      | _ => w.tripped }

/-- Both tasks are back at their blocking calls. -/
def Watched.Quiescent (w : Watched) : Prop := w.tasks.cmd = none ∧ w.tasks.sup = none

/-- The axis obeys the last message received: a STOP left the type STOP and the timer stopped; a FREE_RUNNING with a speed in
1..8, no stall since, left the timer running with its direction in the structure and on the output. -/
def Watched.Obeys (w : Watched) : Prop :=
  ∀ m, w.last = some m →
    (m.type = .stop → w.tasks.me.type = .stop ∧ w.tasks.me.tmr.started = false) ∧
    (m.type = .freeRunning → 1 ≤ m.freeRunSpeed.toNat → m.freeRunSpeed.toNat ≤ 8 → w.tripped = false →
      w.tasks.me.tmr.started = true ∧ w.tasks.me.dir = m.freeRunDirection ∧
        w.tasks.me.dirOut = some m.freeRunDirection)

/-- A step does not undo a command: if it is the supervisor going on after its delay, with the command task back at its
queue, then the last message was not a STOP, and if it was a FREE_RUNNING with a speed in 1..8 and no stall since, its
direction is the one the supervisor holds. -/
def Watched.NoUndo (w : Watched) (i : AxisStep) : Prop :=
  i = .supResume → w.tasks.cmd = none → ∀ dir, w.tasks.sup = some dir → ∀ m, w.last = some m →
    m.type ≠ .stop ∧
    (m.type = .freeRunning → 1 ≤ m.freeRunSpeed.toNat → m.freeRunSpeed.toNat ≤ 8 → w.tripped = false →
      m.freeRunDirection = dir)

/-! ## What a command does to the motion -/

/-- A move at an accepted speed, once it is past its delay, is a motion in its direction. -/
theorem moveFreeRunEnd_motion (me : MotPap) (dir : MotPapDirection) (speed : UInt32) :
    (motPapMoveFreeRunEnd me dir speed).type = .freeRunning ∧ (motPapMoveFreeRunEnd me dir speed).tmr.started = true ∧
      (motPapMoveFreeRunEnd me dir speed).dir = dir ∧ (motPapMoveFreeRunEnd me dir speed).dirOut = some dir :=
  ⟨rfl, rfl, rfl, rfl⟩

/-- What the command task holds in its delay is the message it received. -/
def CmdDelay.Of (k : CmdDelay) (m : MotPapMsg) : Prop :=
  match k with
  | .freeRun direction _ => m.type = .freeRunning ∧ m.freeRunDirection = direction
  | .closedLoop _ => m.type = .closedLoop

/-- The motion a message asks for: nothing is asked for by a message rejected for its speed or by a positioning. -/
def Commanded (m : MotPapMsg) (me : MotPap) (tripped : Bool) : Prop :=
  (m.type = .stop → me.type = .stop ∧ me.tmr.started = false) ∧
  (m.type = .freeRunning → 1 ≤ m.freeRunSpeed.toNat → m.freeRunSpeed.toNat ≤ 8 → me.type = .freeRunning ∧
    (tripped = false → me.tmr.started = true ∧ me.dir = m.freeRunDirection ∧ me.dirOut = some m.freeRunDirection))

/-- `mot_pap_move_free_run`: it holds the message in a delay, or the motion is the one commanded. -/
theorem moveFreeRun_commanded {msg : MotPapMsg} (htype : msg.type = .freeRunning) (me : MotPap) :
    (∀ k, (motPapMoveFreeRun me msg.freeRunDirection msg.freeRunSpeed).2 = some k → k.Of msg) ∧
      ((motPapMoveFreeRun me msg.freeRunDirection msg.freeRunSpeed).2 = none →
        Commanded msg (motPapMoveFreeRun me msg.freeRunDirection msg.freeRunSpeed).1 false) := by
  unfold motPapMoveFreeRun
  split
  · split
    · refine ⟨?_, by simp⟩
      intro k hk
      rw [← Option.some_inj.mp hk]
      exact ⟨htype, rfl⟩
    · refine ⟨by simp, fun _ => ⟨by simp [htype], fun _ _ _ => ?_⟩⟩
      obtain ⟨ht, hrun, hdir, hout⟩ := moveFreeRunEnd_motion me msg.freeRunDirection msg.freeRunSpeed
      exact ⟨ht, fun _ => ⟨hrun, hdir, hout⟩⟩
  · rename_i hspeed
    refine ⟨by simp, fun _ => ⟨by simp [htype], fun _ hge hle => ?_⟩⟩
    exact absurd ((freeRunSpeedOk_iff msg.freeRunSpeed).mpr ⟨hge, hle⟩) hspeed

/-- `mot_pap_move_closed_loop` can hold the message in a delay; no motion is commanded by it. -/
theorem moveClosedLoop_commanded {msg : MotPapMsg} (htype : msg.type = .closedLoop) (me : MotPap) (setpoint : UInt16) :
    (∀ k, (motPapMoveClosedLoop me setpoint).2 = some k → k.Of msg) ∧
      Commanded msg (motPapMoveClosedLoop me setpoint).1 false := by
  refine ⟨?_, by simp [htype], by simp [htype]⟩
  intro k hk
  unfold motPapMoveClosedLoop MotPap.moveToPosCmd at hk
  split at hk
  · cases hk
  · split at hk
    · rw [← Option.some_inj.mp hk]
      exact htype
    · cases hk

/-- The loop body of the command task on a message: it holds the message in a delay, or the motion is the one commanded. -/
theorem axisTask_commanded (me : MotPap) (msg : MotPapMsg) (raw : UInt16) :
    (∀ k, (axisTask me msg raw).2 = some k → k.Of msg) ∧
      ((axisTask me msg raw).2 = none → Commanded msg (axisTask me msg raw).1 false) := by
  unfold axisTask
  dsimp only
  split
  · rename_i htype
    exact moveFreeRun_commanded htype _
  · rename_i htype
    obtain ⟨hk, hc⟩ := moveClosedLoop_commanded htype
      (motPapReadCorrectedPos { me with stalled := false, stalledCounter := 0, alreadyThere := false } raw)
      msg.closedLoopSetpoint
    exact ⟨hk, fun _ => hc⟩
  · rename_i htype
    exact ⟨by simp, fun _ => ⟨fun _ => ⟨rfl, rfl⟩, by simp [htype]⟩⟩

/-! ## The invariant -/

/-- Between steps: a command task in its delay holds the last message; a command task at its queue has done what the last
message commanded. -/
structure Watched.Inv (w : Watched) : Prop where
  held : ∀ k, w.tasks.cmd = some k → ∃ m, w.last = some m ∧ k.Of m
  done : w.tasks.cmd = none → ∀ m, w.last = some m → Commanded m w.tasks.me w.tripped

/-- A motion that was commanded stays so through a supervision, which is noted if it trips. -/
theorem Commanded.supervise {m : MotPapMsg} {me : MotPap} {tripped : Bool} (h : Commanded m me tripped) (raw : UInt16)
    (stallDetection : Bool) :
    Commanded m (motPapSupervise me raw stallDetection).1 (tripped || motPapStallTrips me raw stallDetection) := by
  obtain ⟨hstop, hfree⟩ := h
  constructor
  · intro hm
    obtain ⟨htype, hrun⟩ := hstop hm
    have hne : me.type ≠ .closedLoop := by simp [htype]
    obtain ⟨-, ht, -, -, hs⟩ := supervise_of_ne_closedLoop hne raw stallDetection
    rw [ht, hs, hrun]
    exact ⟨htype, rfl⟩
  · intro hm hge hle
    obtain ⟨htype, hmotion⟩ := hfree hm hge hle
    have hne : me.type ≠ .closedLoop := by simp [htype]
    obtain ⟨-, ht, hdir, hout, hs⟩ := supervise_of_ne_closedLoop hne raw stallDetection
    rw [ht, hdir, hout, hs]
    refine ⟨htype, ?_⟩
    intro htrip
    obtain ⟨htripped, hnow⟩ := Bool.or_eq_false_iff.mp htrip
    obtain ⟨hrun, hd⟩ := hmotion htripped
    exact ⟨by simp [hrun, hnow], hd⟩

/-- A supervisor that goes on after its delay with the direction of the motion leaves a motion that was commanded. -/
theorem Commanded.superviseEnd {m : MotPapMsg} {me : MotPap} {tripped : Bool} {dir : MotPapDirection}
    (h : Commanded m me tripped) (hstop : m.type ≠ .stop)
    (hdir : m.type = .freeRunning → 1 ≤ m.freeRunSpeed.toNat → m.freeRunSpeed.toNat ≤ 8 → tripped = false →
      m.freeRunDirection = dir) : Commanded m (motPapSuperviseEnd me dir) tripped := by
  refine ⟨fun hm => absurd hm hstop, ?_⟩
  intro hm hge hle
  refine ⟨(h.2 hm hge hle).1, ?_⟩
  intro htrip
  rw [hdir hm hge hle htrip]
  exact ⟨rfl, rfl, rfl⟩

/-- A step that does not undo a command keeps the invariant. -/
theorem Watched.Inv.step {w : Watched} (h : w.Inv) (i : AxisStep) (hi : w.NoUndo i) : (w.step i).Inv := by
  obtain ⟨⟨me, cmd, sup⟩, last, tripped⟩ := w
  obtain ⟨hheld, hdone⟩ := h
  cases i with
  | receive msg raw =>
    cases cmd with
    | none =>
      obtain ⟨hk, hc⟩ := axisTask_commanded me msg raw
      refine ⟨fun k hsome => ⟨msg, rfl, hk k hsome⟩, fun hnone m hm => ?_⟩
      obtain rfl : msg = m := by simpa [Watched.step] using hm
      simpa [Watched.step, AxisTasks.step, AxisTasks.receive] using hc hnone
    | some k => exact ⟨by simpa [Watched.step, AxisTasks.step, AxisTasks.receive] using hheld, by
        simp [Watched.step, AxisTasks.step, AxisTasks.receive]⟩
  | cmdResume =>
    cases cmd with
    | none => exact ⟨hheld, hdone⟩
    | some k =>
      obtain ⟨m, hlast, hk⟩ := hheld k rfl
      refine ⟨by simp [Watched.step, AxisTasks.step, AxisTasks.cmdResume], fun _ m' hm' => ?_⟩
      obtain rfl : m = m' := by simpa [Watched.step] using hlast.symm.trans hm'
      cases k with
      | freeRun dir speed =>
        obtain ⟨hm, rfl⟩ := hk
        obtain ⟨ht, hrun, hdir, hout⟩ := moveFreeRunEnd_motion me m.freeRunDirection speed
        exact ⟨by simp [hm], fun _ _ _ => ⟨ht, fun _ => ⟨hrun, hdir, hout⟩⟩⟩
      | closedLoop dir =>
        have hm : m.type = .closedLoop := hk
        exact ⟨by simp [hm], by simp [hm]⟩
  | supervise raw stallDetection =>
    cases sup with
    | none =>
      refine ⟨hheld, fun hnone m hm => ?_⟩
      simpa [Watched.step, AxisTasks.step, AxisTasks.supervise] using (hdone hnone m hm).supervise raw stallDetection
    | some dir => exact ⟨hheld, by simpa [Watched.step, AxisTasks.step, AxisTasks.supervise] using hdone⟩
  | supResume =>
    cases sup with
    | none => exact ⟨hheld, hdone⟩
    | some dir =>
      refine ⟨hheld, fun hnone m hm => ?_⟩
      obtain ⟨hstop, hdir⟩ := hi rfl hnone dir rfl m hm
      exact (hdone hnone m hm).superviseEnd hstop hdir

theorem Watched.inv_init (ax : Axis) (rate : UInt32) : (Watched.init ax rate).Inv :=
  ⟨by simp [Watched.init, AxisTasks.init], by simp [Watched.init]⟩

/-- With the command task at its queue, the invariant is the law of the last command. -/
theorem Watched.Inv.obeys {w : Watched} (h : w.Inv) (hq : w.Quiescent) : w.Obeys := by
  intro m hm
  obtain ⟨hstop, hfree⟩ := h.done hq.1 m hm
  exact ⟨hstop, fun ht hge hle htrip => (hfree ht hge hle).2 htrip⟩

/-- A step that undoes a command leaves both tasks at their blocking calls and the last command lost. -/
theorem Watched.not_obeys_of_undo {w : Watched} {i : AxisStep} (h : ¬w.NoUndo i) :
    (w.step i).Quiescent ∧ ¬(w.step i).Obeys := by
  simp only [Watched.NoUndo, Classical.not_imp, Classical.not_forall] at h
  obtain ⟨rfl, hcmd, dir, hsup, m, hm, hbad⟩ := h
  have hstep : (w.step .supResume).tasks = { me := motPapSuperviseEnd w.tasks.me dir, cmd := none, sup := none } := by
    simp [Watched.step, AxisTasks.step, AxisTasks.supResume, hsup, hcmd]
  refine ⟨by simp [Watched.Quiescent, hstep], ?_⟩
  intro hobeys
  obtain ⟨hstop, hfree⟩ := hobeys m hm
  rw [hstep] at hstop hfree
  apply hbad
  constructor
  · intro htype
    have hrun : (motPapSuperviseEnd w.tasks.me dir).tmr.started = true := rfl
    rw [(hstop htype).2] at hrun
    cases hrun
  · intro htype hge hle htrip
    obtain ⟨-, hdir, -⟩ := hfree htype hge hle htrip
    exact hdir.symm

/-- Last command wins, exactly when no supervision undoes a command. For every interleaving of the two tasks of an axis, with
any messages and readings: the axis obeys the last message received in every state in which both tasks are back at their
blocking calls if and only if no step of the run is the supervisor ending its reversal delay after the command task has
handled a STOP, or a FREE_RUNNING in the direction opposite to the one the supervisor holds. -/
theorem lastCommandWins_iff (ax : Axis) (rate : UInt32) (sched : List AxisStep) :
    Always Watched.step (fun w => w.Quiescent → w.Obeys) (.init ax rate) sched ↔
      Steps Watched.step Watched.NoUndo (.init ax rate) sched := by
  constructor
  · intro h pre i hpre
    by_cases hundo : (run Watched.step (.init ax rate) pre).NoUndo i
    · exact hundo
    · obtain ⟨hq, hbad⟩ := Watched.not_obeys_of_undo hundo
      have hobeys := h (pre ++ [i]) hpre
      rw [run_snoc] at hobeys
      exact absurd (hobeys hq) hbad
  · intro h
    exact (always_of_steps Watched.Inv (fun _ i hw hi => hw.step i hi) (Watched.inv_init ax rate) h).imp
      fun _ hw => hw.obeys

/-- A STOP received while the supervisor waits for a reversal: the arm is sent to 2000 from 1000, passes it, and is stopped
while the supervisor turns it round. The STOP is handled, then the supervisor starts the timer again. -/
theorem lastCommandWins_false :
    ¬∀ (ax : Axis) (rate : UInt32) (sched : List AxisStep),
      Always Watched.step (fun w => w.Quiescent → w.Obeys) (.init ax rate) sched := by
  intro h
  have hall := h .arm 204000000 [
    .receive { type := .closedLoop, freeRunDirection := .cw, freeRunSpeed := 0, closedLoopSetpoint := 2000 } 23305,
    .supervise 21305 false,
    .receive { type := .stop, freeRunDirection := .cw, freeRunSpeed := 0, closedLoopSetpoint := 0 } 21305,
    .supResume]
  have hlost := (hall.last ⟨by decide, by decide⟩ _ rfl).1 rfl
  exact absurd hlost (by decide)

end Rtu

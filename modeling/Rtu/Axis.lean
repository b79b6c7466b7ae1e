import Rtu.MotPap
import Rtu.Runs

/-!
# The two axes: `arm.c` and `pole.c`

The two files are the same but for the offset and the length of the queue. An axis has two tasks on one `struct mot_pap`:
the command task, blocked in `xQueueReceive`, and the supervisor task, blocked in `xSemaphoreTake`. Each can be suspended in
the `vTaskDelay` of a reversal, where the other may run; between two such points a task's code is one step.
-/

namespace Rtu

/-- The converter of either axis, as `arm_init` and `pole_init` configure it and `ad2s1210_init` leaves it. A chip that refuses the
control word leaves `hysteresis` clear; at 16 bits that shifts nothing, and the reading is the same. -/
def axisRdc : Ad2s1210 :=
  { fclkin := 8192000, fexcit := 2000, hysteresis := true, reversed := true, resolution := 16 }

/-- What `arm_init` and `pole_init` share: the assignments they make on a structure the loader cleared. -/
def axisInit (offset : UInt16) (rate : UInt32) : MotPap :=
  { type := .stop, dir := .cw, posCmd := 0, posAct := 0, freq := 0, stalled := false, alreadyThere := false
    stalledCounter := 0, rdc := axisRdc, tmr := { started := false, mr1 := 0, rate := rate }, lastDir := .cw
    lastPos := 0, halfPulses := 0, offset := offset, dirOut := none, calls := [] }

/-- `arm_init`, on a timer whose clock has the given rate. -/
def armInit (rate : UInt32) : MotPap := axisInit 41230 rate

/-- `pole_init`, on a timer whose clock has the given rate. -/
def poleInit (rate : UInt32) : MotPap := axisInit 41354 rate

/-- The two axes. -/
inductive Axis where
  | arm | pole
  deriving DecidableEq, Repr

/-- The axis as its `init` function leaves it. -/
def Axis.init : Axis → UInt32 → MotPap
  | .arm, rate => armInit rate
  | .pole, rate => poleInit rate

theorem Axis.init_eq (ax : Axis) (rate : UInt32) : ∃ offset, ax.init rate = axisInit offset rate := by
  cases ax
  · exact ⟨41230, rfl⟩
  · exact ⟨41354, rfl⟩

/-- The loop body of `arm_task` and `pole_task` on a message received, up to its delay if it has one. `raw` is the reading of
the converter. -/
def axisTask (me : MotPap) (msg : MotPapMsg) (raw : UInt16) : MotPap × Option CmdDelay :=
  let me := motPapReadCorrectedPos { me with stalled := false, stalledCounter := 0, alreadyThere := false } raw
  match msg.type with
  | .freeRunning => motPapMoveFreeRun me msg.freeRunDirection msg.freeRunSpeed
  | .closedLoop => motPapMoveClosedLoop me msg.closedLoopSetpoint
  | .stop => (motPapStop me, none)

/-! ## The two tasks of an axis -/

/-- The structure, and what each task holds if it is suspended in its delay; a task that holds nothing is back at its
blocking call. -/
structure AxisTasks where
  me : MotPap
  cmd : Option CmdDelay
  sup : Option MotPapDirection
  deriving DecidableEq, Repr

/-- Both tasks as their `init` function creates them. -/
def AxisTasks.init (ax : Axis) (rate : UInt32) : AxisTasks := { me := ax.init rate, cmd := none, sup := none }

/-- What the scheduler can let an axis do. -/
inductive AxisStep where
  | receive (msg : MotPapMsg) (raw : UInt16)
  | cmdResume
  | supervise (raw : UInt16) (stallDetection : Bool)
  | supResume
  deriving DecidableEq, Repr

/-- The command task takes a message, if it is blocked in `xQueueReceive`. -/
def AxisTasks.receive (t : AxisTasks) (msg : MotPapMsg) (raw : UInt16) : AxisTasks :=
  match t.cmd with
  | none => { t with me := (axisTask t.me msg raw).1, cmd := (axisTask t.me msg raw).2 }
  | some _ => t

/-- The command task goes on after its delay. -/
def AxisTasks.cmdResume (t : AxisTasks) : AxisTasks :=
  match t.cmd with
  | none => t
  | some k => { t with me := k.resume t.me, cmd := none }

/-- The supervisor task takes the semaphore, if it is blocked in `xSemaphoreTake`. -/
def AxisTasks.supervise (t : AxisTasks) (raw : UInt16) (stallDetection : Bool) : AxisTasks :=
  match t.sup with
  | none => { t with me := (motPapSupervise t.me raw stallDetection).1, sup := (motPapSupervise t.me raw stallDetection).2 }
  | some _ => t

/-- The supervisor task goes on after its delay. -/
def AxisTasks.supResume (t : AxisTasks) : AxisTasks :=
  match t.sup with
  | none => t
  | some dir => { t with me := motPapSuperviseEnd t.me dir, sup := none }

/-- One step of an axis under the scheduler. -/
def AxisTasks.step (t : AxisTasks) : AxisStep → AxisTasks
  | .receive msg raw => t.receive msg raw
  | .cmdResume => t.cmdResume
  | .supervise raw stallDetection => t.supervise raw stallDetection
  | .supResume => t.supResume

/-! ## Complete operations, one after the other -/

/-- The operations on an axis. -/
inductive AxisOp where
  | message (msg : MotPapMsg) (raw : UInt16)
  | supervise (raw : UInt16) (stallDetection : Bool)
  | isr
  | status (raw : UInt16)
  | setOffset (offset : UInt16)
  deriving DecidableEq, Repr

/-- A message handled to its end, nothing else running in its delay. -/
def axisTaskComplete (me : MotPap) (msg : MotPapMsg) (raw : UInt16) : MotPap :=
  match axisTask me msg raw with
  | (me, none) => me
  | (me, some k) => k.resume me

/-- A supervision run to its end, nothing else running in its delay. -/
def motPapSuperviseComplete (me : MotPap) (raw : UInt16) (stallDetection : Bool) : MotPap :=
  match motPapSupervise me raw stallDetection with
  | (me, none) => me
  | (me, some dir) => motPapSuperviseEnd me dir

/-- One complete operation. `status` is `arm_get_status` or `pole_get_status`, `setOffset` is `arm_set_offset` or
`pole_set_offset`. -/
def AxisOp.apply (me : MotPap) : AxisOp → MotPap
  | .message msg raw => axisTaskComplete me msg raw
  | .supervise raw stallDetection => motPapSuperviseComplete me raw stallDetection
  | .isr => (motPapIsr me).1
  | .status raw => motPapReadCorrectedPos me raw
  | .setOffset offset => { me with offset := offset }

end Rtu

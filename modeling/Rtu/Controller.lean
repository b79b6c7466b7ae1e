import Rtu.Axis
import Rtu.Dispatch
import Rtu.Fifo
import Rtu.Lift
import Rtu.TcpThread

/-!
# The whole controller

The thread, the three device tasks and the two supervisors, on the queues that `arm_init`, `pole_init` and `lift_init` create and
the MAIN_PWR relay. A step is one task going on to its next blocking point (for the thread, to its next call): the scheduler may
choose any task that is not blocked. A send to a full queue blocks the thread (`portMAX_DELAY`): its step does nothing until the
queue has room.

The timer interrupts are left out: they write nothing that a step here reads, and when they let a supervisor run is left to the
scheduler.
-/

namespace Rtu

/-- The state of every task, the queues and the relay. -/
structure Controller where
  tcp : TcpState
  mainPwr : Bool
  stallDetection : Bool
  armQueue : Fifo.Queue MotPapBlock 5
  poleQueue : Fifo.Queue MotPapBlock 2
  liftQueue : Fifo.Queue LiftBlock 5
  arm : AxisTasks
  pole : AxisTasks
  lift : Lift
  liftDelay : Option LiftDirection
  deriving DecidableEq

/-- Boot, on timers whose clocks have the given rate. -/
def Controller.boot (stack : HMICmdVar) (rate : UInt32) : Controller :=
  { tcp := .boot stack, mainPwr := false, stallDetection := false
    armQueue := .empty _ _, poleQueue := .empty _ _, liftQueue := .empty _ _
    arm := .init .arm rate, pole := .init .pole rate, lift := .init, liftDelay := none }

/-- A call of a producer; none if it blocks. -/
def Controller.perform (c : Controller) : Effect → Option Controller
  | .setStallDetection stallDetection => some { c with stallDetection }
  | .armSetOffset offset => some { c with arm := { c.arm with me := { c.arm.me with offset } } }
  | .poleSetOffset offset => some { c with pole := { c.pole with me := { c.pole.me with offset } } }
  | .relayMainPwr state => some { c with mainPwr := state }
  | .armQueueSend msg => (c.armQueue.send msg).map fun q => { c with armQueue := q }
  | .poleQueueSend msg => (c.poleQueue.send msg).map fun q => { c with poleQueue := q }
  | .liftQueueSend msg => (c.liftQueue.send msg).map fun q => { c with liftQueue := q }

/-- What the scheduler can let the controller do. A receive reads the fields of a block that nobody assigned from the heap, and
every reading of a converter is given. -/
inductive ControllerLabel where
  | tcp (i : TcpInput)
  /-- `arm_task` or `pole_task` takes a message -/
  | receive (ax : Axis) (heap : MotPapMsg) (raw : UInt16)
  /-- it goes on after its delay -/
  | cmdResume (ax : Axis)
  /-- a supervisor takes its semaphore -/
  | supervise (ax : Axis) (raw : UInt16)
  /-- it goes on after its delay -/
  | supResume (ax : Axis)
  /-- `arm_get_status` or `pole_get_status` -/
  | status (ax : Axis) (raw : UInt16)
  /-- `lift_task` takes a message -/
  | liftReceive (heap : LiftType)
  /-- it goes on after its delay -/
  | liftResume

/-- The tasks of an axis. -/
def Controller.axis (c : Controller) : Axis → AxisTasks
  | .arm => c.arm
  | .pole => c.pole

/-- The tasks of an axis have gone on. -/
def Controller.setAxis (c : Controller) (ax : Axis) (t : AxisTasks) : Controller :=
  match ax with
  | .arm => { c with arm := t }
  | .pole => { c with pole := t }

/-- The messages in the queue of an axis, oldest first. -/
def Controller.queued (c : Controller) : Axis → List MotPapBlock
  | .arm => c.armQueue.items
  | .pole => c.poleQueue.items

/-- The oldest message in the queue of an axis, taken out. -/
def Controller.dequeue (c : Controller) : Axis → Option (MotPapBlock × Controller)
  | .arm => c.armQueue.receive.map fun (b, q) => (b, { c with armQueue := q })
  | .pole => c.poleQueue.receive.map fun (b, q) => (b, { c with poleQueue := q })

/-- The command task of an axis takes a message, if it waits for one and there is one. -/
def Controller.receive (c : Controller) (ax : Axis) (heap : MotPapMsg) (raw : UInt16) : Controller :=
  if (c.axis ax).cmd = none then
    match c.dequeue ax with
    | some (b, c') => c'.setAxis ax ((c.axis ax).receive (b.read heap) raw)
    | none => c
  else c

/-- The supervisor of an axis takes its semaphore. A stall trip cuts the relay. -/
def Controller.supervise (c : Controller) (ax : Axis) (raw : UInt16) : Controller :=
  let t := c.axis ax
  let c' := c.setAxis ax (t.supervise raw c.stallDetection)
  if t.sup = none ∧ motPapStallTrips t.me raw c.stallDetection = true then { c' with mainPwr := false } else c'

/-- The lift task takes a message, if it waits for one and there is one. -/
def Controller.liftReceive (c : Controller) (heap : LiftType) : Controller :=
  if c.liftDelay = none then
    match c.liftQueue.receive with
    | some (b, q) => { c with liftQueue := q, lift := (liftTask c.lift (b.read heap)).1, liftDelay := (liftTask c.lift (b.read heap)).2 }
    | none => c
  else c

/-- A step of the thread, unless its call blocks. -/
def Controller.tcpStep (c : Controller) (i : TcpInput) : Controller :=
  match c.tcp.effect i with
  | none => { c with tcp := c.tcp.step i }
  | some e =>
    match c.perform e with
    | some c' => { c' with tcp := c.tcp.step i }
    | none => c

/-- One step. -/
def Controller.step (c : Controller) : ControllerLabel → Controller
  | .tcp i => c.tcpStep i
  | .receive ax heap raw => c.receive ax heap raw
  | .cmdResume ax => c.setAxis ax (c.axis ax).cmdResume
  | .supervise ax raw => c.supervise ax raw
  | .supResume ax => c.setAxis ax (c.axis ax).supResume
  | .status ax raw => c.setAxis ax { c.axis ax with me := motPapReadCorrectedPos (c.axis ax).me raw }
  | .liftReceive heap => c.liftReceive heap
  | .liftResume =>
    match c.liftDelay with
    | some dir => { c with lift := c.lift.move dir, liftDelay := none }
    | none => c

end Rtu

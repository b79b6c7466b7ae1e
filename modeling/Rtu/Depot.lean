import Rtu.Controller
import Rtu.Post

/-!
# The controller with its heap

The controller as before, but with messages that are blocks on the heap: `pvPortMalloc` and `vPortFree` are steps of their own, the
queues hold addresses, and a task reads the block at the address that it has received. `Depot.controller` forgets all this: it
reads every queued address and gives the queues of `Controller`.

A task has one next step: to go on after its delay if it is in one, to free its message if it has handled one, and to receive if it
holds none.
-/

namespace Rtu

/-- The lengths that `arm_init`, `pole_init` and `lift_init` give to their queues. -/
def Device.queueLength : Device → Nat
  | .arm => 5
  | .pole => 2
  | .lift => 5

/-- The devices. -/
def devices : List Device := [.arm, .pole, .lift]

theorem devices_nodup : devices.Nodup := by decide

theorem mem_devices (dev : Device) : dev ∈ devices := by cases dev <;> decide

/-- The device of an axis. -/
def Axis.device : Axis → Device
  | .arm => .arm
  | .pole => .pole

/-- A block on the heap: a `struct mot_pap_msg` or a `struct lift_msg`. -/
inductive Message where
  | motPap (msg : MotPapBlock)
  | lift (msg : LiftBlock)
  deriving DecidableEq, Repr

/-- A block read as a `struct mot_pap_msg`: of a block that is none, nothing was assigned. -/
def Message.asMotPap : Option Message → MotPapBlock
  | some (.motPap msg) => msg
  | _ => {}

/-- A block read as a `struct lift_msg`. -/
def Message.asLift : Option Message → LiftBlock
  | some (.lift msg) => msg
  | _ => {}

/-- The message that a call sends, and its addressee. -/
def Effect.message : Effect → Option (Device × Message)
  | .armQueueSend msg => some (.arm, .motPap msg)
  | .poleQueueSend msg => some (.pole, .motPap msg)
  | .liftQueueSend msg => some (.lift, .lift msg)
  | .setStallDetection _ | .armSetOffset _ | .poleSetOffset _ | .relayMainPwr _ => none

/-- The messages, the heap and the queues. -/
abbrev DeviceOffice := Post.Office Device Message Device.queueLength

/-- The state of every task, the heap and the queues, and the relay. -/
structure Depot where
  tcp : TcpState
  mainPwr : Bool
  stallDetection : Bool
  post : DeviceOffice
  arm : AxisTasks
  pole : AxisTasks
  lift : Lift
  liftDelay : Option LiftDirection

/-- Boot, on timers whose clocks have the given rate. -/
def Depot.boot (stack : HMICmdVar) (rate : UInt32) : Depot :=
  { tcp := .boot stack, mainPwr := false, stallDetection := false, post := .empty _ _ _
    arm := .init .arm rate, pole := .init .pole rate, lift := .init, liftDelay := none }

/-- What the scheduler and the allocator can let the controller do. -/
inductive DepotLabel where
  | tcp (i : TcpInput)
  /-- the thread allocates the message that it is about to send, and `pvPortMalloc` returns this address -/
  | malloc (addr : Nat)
  /-- `arm_task` or `pole_task` goes on -/
  | axis (ax : Axis) (heap : MotPapMsg) (raw : UInt16)
  /-- `lift_task` goes on -/
  | lift (heap : LiftType)
  /-- a supervisor takes its semaphore -/
  | supervise (ax : Axis) (raw : UInt16)
  /-- it goes on after its delay -/
  | supResume (ax : Axis)
  /-- `arm_get_status` or `pole_get_status` -/
  | status (ax : Axis) (raw : UInt16)

/-- The tasks of an axis. -/
def Depot.axis (d : Depot) : Axis → AxisTasks
  | .arm => d.arm
  | .pole => d.pole

/-- The tasks of an axis have gone on. -/
def Depot.setAxis (d : Depot) (ax : Axis) (t : AxisTasks) : Depot :=
  match ax with
  | .arm => { d with arm := t }
  | .pole => { d with pole := t }

/-- A call of a producer that sends nothing. -/
def Depot.perform (d : Depot) : Effect → Depot
  | .setStallDetection stallDetection => { d with stallDetection }
  | .armSetOffset offset => { d with arm := { d.arm with me := { d.arm.me with offset } } }
  | .poleSetOffset offset => { d with pole := { d.pole with me := { d.pole.me with offset } } }
  | .relayMainPwr state => { d with mainPwr := state }
  | .armQueueSend _ | .poleQueueSend _ | .liftQueueSend _ => d

/-- The thread allocates the message that it is about to send. -/
def Depot.malloc (d : Depot) (addr : Nat) : Depot :=
  match (d.tcp.effect .run).bind Effect.message with
  | some (dev, msg) =>
    match d.post.alloc dev addr msg with
    | some post => { d with post }
    | none => d
  | none => d

/-- A step of the thread, unless its call blocks: `xQueueSend` on a full queue, or before the message is allocated. -/
def Depot.tcpStep (d : Depot) (i : TcpInput) : Depot :=
  match d.tcp.effect i with
  | none => { d with tcp := d.tcp.step i }
  | some e =>
    match e.message with
    | none => { d.perform e with tcp := d.tcp.step i }
    | some _ =>
      match d.post.send with
      | some post => { d with post, tcp := d.tcp.step i }
      | none => d

/-- `arm_task` or `pole_task` goes on. -/
def Depot.axisStep (d : Depot) (ax : Axis) (heap : MotPapMsg) (raw : UInt16) : Depot :=
  if (d.axis ax).cmd ≠ none then d.setAxis ax (d.axis ax).cmdResume
  else
    match d.post.free ax.device with
    | some post => { d with post }
    | none =>
      match d.post.take ax.device with
      | some (b, post) => { d with post }.setAxis ax ((d.axis ax).receive ((Message.asMotPap b).read heap) raw)
      | none => d

/-- `lift_task` goes on. -/
def Depot.liftStep (d : Depot) (heap : LiftType) : Depot :=
  match d.liftDelay with
  | some dir => { d with lift := d.lift.move dir, liftDelay := none }
  | none =>
    match d.post.free .lift with
    | some post => { d with post }
    | none =>
      match d.post.take .lift with
      | some (b, post) =>
        let handled := liftTask d.lift ((Message.asLift b).read heap)
        { d with post, lift := handled.1, liftDelay := handled.2 }
      | none => d

/-- The supervisor of an axis takes its semaphore. A stall trip cuts the relay. -/
def Depot.supervise (d : Depot) (ax : Axis) (raw : UInt16) : Depot :=
  let t := d.axis ax
  let d' := d.setAxis ax (t.supervise raw d.stallDetection)
  if t.sup = none ∧ motPapStallTrips t.me raw d.stallDetection = true then { d' with mainPwr := false } else d'

/-- One step. -/
def Depot.step (d : Depot) : DepotLabel → Depot
  | .tcp i => d.tcpStep i
  | .malloc addr => d.malloc addr
  | .axis ax heap raw => d.axisStep ax heap raw
  | .lift heap => d.liftStep heap
  | .supervise ax raw => d.supervise ax raw
  | .supResume ax => d.setAxis ax (d.axis ax).supResume
  | .status ax raw => d.setAxis ax { d.axis ax with me := motPapReadCorrectedPos (d.axis ax).me raw }

/-- The queues of messages that the queues of addresses stand for. -/
def Depot.controller (d : Depot) : Controller :=
  { tcp := d.tcp, mainPwr := d.mainPwr, stallDetection := d.stallDetection
    armQueue := (d.post.queue .arm).map fun a => Message.asMotPap ((d.post.heap a).map Prod.fst)
    poleQueue := (d.post.queue .pole).map fun a => Message.asMotPap ((d.post.heap a).map Prod.fst)
    liftQueue := (d.post.queue .lift).map fun a => Message.asLift ((d.post.heap a).map Prod.fst)
    arm := d.arm, pole := d.pole, lift := d.lift, liftDelay := d.liftDelay }

/-- Whether the task of a device is in its delay, in the middle of a message. -/
def Depot.InDelay (d : Depot) : Device → Prop
  | .arm => d.arm.cmd ≠ none
  | .pole => d.pole.cmd ≠ none
  | .lift => d.liftDelay ≠ none

end Rtu

import Rtu.Lemmas.TaskTrigger
import Rtu.Runs

/-!
# What the producers have done to the devices

`Sent` is what a sequence of calls leaves behind: the MAIN_PWR relay, and every message sent to each queue, newest first. A
`Desk` is that with the static variables of `TaskTriggerMsg`; frames are fed to it one call at a time, and a connection ends
with `prvEmergencyStop`.

`dispatch` is the abstract producer: which calls `TaskTriggerMsg` makes, as a function of the previous command and of this one,
with no flag byte.
-/

namespace Rtu

/-! ## Calls and their traces -/

/-- The relay and the messages sent to the three queues, newest first. -/
structure Sent where
  relay : Bool
  arm : List MotPapBlock
  pole : List MotPapBlock
  lift : List LiftBlock
  deriving DecidableEq, Repr

/-- Boot: `relay_init` leaves the relay low, the queues are empty. -/
def Sent.boot : Sent := { relay := false, arm := [], pole := [], lift := [] }

/-- One call of a producer. The offsets and the stall detection are no commands. -/
def Sent.call (s : Sent) : Effect → Sent
  | .setStallDetection _ => s
  | .armSetOffset _ => s
  | .poleSetOffset _ => s
  | .relayMainPwr state => { s with relay := state }
  | .armQueueSend msg => { s with arm := msg :: s.arm }
  | .poleQueueSend msg => { s with pole := msg :: s.pole }
  | .liftQueueSend msg => { s with lift := msg :: s.lift }

/-- The calls of a producer, in order. -/
def Sent.calls (s : Sent) (es : List Effect) : Sent := es.foldl Sent.call s

/-- The newest message of each queue, if there is one, has type STOP. -/
structure Sent.AllStopped (s : Sent) : Prop where
  arm : ∀ m, s.arm.head? = some m → m.type = some .stop
  pole : ∀ m, s.pole.head? = some m → m.type = some .stop
  lift : ∀ m, s.lift.head? = some m → m.type = some .stop

/-- Nothing is commanded and the power is off. -/
structure Sent.Safe (s : Sent) : Prop where
  stopped : s.AllStopped
  relay : s.relay = false

/-! ## Frames, one call after the other -/

/-- The static variables and what was sent. -/
structure Desk where
  statics : TriggerStatics
  sent : Sent
  deriving DecidableEq, Repr

/-- The desk at boot. -/
def Desk.boot : Desk := { statics := .boot, sent := .boot }

/-- A frame accepted: one call of `TaskTriggerMsg`. -/
def Desk.feed (d : Desk) (cmd : HMICmd) : Desk :=
  { statics := (taskTriggerMsg d.statics cmd).1, sent := d.sent.calls (taskTriggerMsg d.statics cmd).2 }

/-- A connection lost: one call of `prvEmergencyStop`. -/
def Desk.disconnect (d : Desk) : Desk := { d with sent := d.sent.calls prvEmergencyStop }

/-- A complete connection: its frames, and the end of it. -/
def Desk.session (d : Desk) (fs : List HMICmd) : Desk := (Runs.run Desk.feed d fs).disconnect

/-! ## The abstract producer -/

/-- A device with a queue of its own. -/
inductive Device where
  | arm | pole | lift
  deriving DecidableEq, Repr

/-- The device a `freeRunAxis` names. -/
def FreeRunAxis.device : FreeRunAxis → Device
  | .eArm => .arm
  | .ePole => .pole

/-- The devices that a frame commands to move. -/
def HMICmd.moves (cur : HMICmd) : List Device :=
  match cur.mode with
  | .eStop => []
  | .eFreeRun => [cur.freeRunAxis.device]
  | .eAuto => [.arm, .pole]
  | .eLift => [.lift]

/-- The devices that a STOP frame addresses: the axis it names, if the frame before it was a free run or named the other axis;
otherwise those of the mode of the frame before it. -/
def stopAddressees (prev cur : HMICmd) : List Device :=
  if prev.mode = .eFreeRun ∨ cur.freeRunAxis ≠ prev.freeRunAxis then [cur.freeRunAxis.device]
  else match prev.mode with
    | .eAuto => [.arm, .pole]
    | .eLift => [.lift]
    | _ => []

/-- A message of a given type to an axis, with the fields of a frame. -/
def armBlock (t : MotPapType) (cmd : HMICmd) : MotPapBlock :=
  { type := some t, freeRunDirection := some cmd.freeRunDir.toMotPapDirection
    freeRunSpeed := some cmd.velCmdArm.toUInt32, closedLoopSetpoint := some cmd.posCmdArm }

@[inherit_doc armBlock]
def poleBlock (t : MotPapType) (cmd : HMICmd) : MotPapBlock :=
  { type := some t, freeRunDirection := some cmd.freeRunDir.toMotPapDirection
    freeRunSpeed := some cmd.velCmdPole.toUInt32, closedLoopSetpoint := some cmd.posCmdPole }

/-- A STOP sent to a device. -/
def stopSend (cmd : HMICmd) : Device → Effect
  | .arm => .armQueueSend (armBlock .stop cmd)
  | .pole => .poleQueueSend (poleBlock .stop cmd)
  | .lift => .liftQueueSend { type := some .stop }

/-- What an enabled frame sends when something has changed. -/
def modeSends (prev cur : HMICmd) : List Effect :=
  match cur.mode with
  | .eStop => (stopAddressees prev cur).map (stopSend cur)
  | .eFreeRun =>
    match cur.freeRunAxis with
    | .eArm => [.armQueueSend (armBlock .freeRunning cur)]
    | .ePole => [.poleQueueSend (poleBlock .freeRunning cur)]
  | .eAuto => [.armQueueSend (armBlock .closedLoop cur), .poleQueueSend (poleBlock .closedLoop cur)]
  | .eLift => [.liftQueueSend { type := some (if cur.liftDir = .eUp then .up else .down) }]

instance (prev cur : HMICmd) : Decidable (prev.Unchanged cur) :=
  decidable_of_iff (ucEventFlagByte (.of prev) cur = 0x00) (eventByte_eq_zero_iff prev cur)

/-- The calls of `TaskTriggerMsg` past its settings. A disabled frame stops everything and cuts the power if the frame before
was enabled, and is ignored if not. An enabled frame is ignored if nothing has changed; otherwise it powers the drives if the
frame before was disabled, and sends what its mode says. -/
def dispatch (prev cur : HMICmd) : List Effect :=
  match prev.ctrlEn, cur.ctrlEn with
  | .eDisable, .eDisable => []
  | .eEnable, .eDisable => .relayMainPwr false :: [.arm, .pole, .lift].map (stopSend cur)
  | .eDisable, .eEnable => .relayMainPwr true :: modeSends prev cur
  | .eEnable, .eEnable => if prev.Unchanged cur then [] else modeSends prev cur

end Rtu

import Rtu.Messages

/-!
# `TaskTriggerMsg` and `prvEmergencyStop`

The two producers of messages. Neither reads anything back from the devices, so each is a function from what it is given to
the list of calls it makes, in order (`Effect`); who runs the calls, and what runs between two of them, is not decided here.

`TaskTriggerMsg` compares the command with the one of its previous call, which it keeps as a packed byte of flags and two set
points in static variables (`TriggerStatics`).
-/

namespace Rtu

/-! ## Commands -/

/-- `mode_t`. -/
inductive Mode where
  | eStop | eFreeRun | eAuto | eLift
  deriving DecidableEq, Repr

/-- `freeRunAxis_t`. -/
inductive FreeRunAxis where
  | eArm | ePole
  deriving DecidableEq, Repr

/-- `freeRunDir_t`. -/
inductive FreeRunDir where
  | eCW | eCCW
  deriving DecidableEq, Repr

/-- `enable_t`. -/
inductive Enable where
  | eDisable | eEnable
  deriving DecidableEq, Repr

/-- `liftDir_t`. -/
inductive LiftDir where
  | eDown | eUp
  deriving DecidableEq, Repr

/-- `setCal_t`. -/
inductive SetCal where
  | eNop | eCal
  deriving DecidableEq, Repr

/-- `sign_t`. -/
inductive Sign where
  | eUnsigned | eSigned
  deriving DecidableEq, Repr

/-- `HMICmd_t`. -/
structure HMICmd where
  posCmdArm : UInt16
  posCmdPole : UInt16
  velCmdArm : UInt8
  velCmdPole : UInt8
  mode : Mode
  freeRunAxis : FreeRunAxis
  freeRunDir : FreeRunDir
  ctrlEn : Enable
  stallEn : Enable
  liftDir : LiftDir
  setCal : SetCal
  clientID : Sign
  deriving DecidableEq, Repr

/-- The assignment of a `freeRunDir_t` to an `enum mot_pap_direction`. -/
def FreeRunDir.toMotPapDirection : FreeRunDir → MotPapDirection
  | .eCW => .cw
  | .eCCW => .ccw

/-! ## What the producers call -/

/-- A call made by a producer. -/
inductive Effect where
  | setStallDetection (stallDetection : Bool)
  | armSetOffset (offset : UInt16)
  | poleSetOffset (offset : UInt16)
  | relayMainPwr (state : Bool)
  | armQueueSend (msg : MotPapBlock)
  | poleQueueSend (msg : MotPapBlock)
  | liftQueueSend (msg : LiftBlock)
  deriving DecidableEq, Repr

/-! ## The flags -/

/-- `1L<<(posn)` in the macros of `bitops.h`, for the positions of a byte. -/
def bit (posn : UInt8) : UInt8 := 1 <<< posn

/-- `BitSet`, on a byte. -/
def bitSet (arg posn : UInt8) : UInt8 := arg ||| bit posn

/-- `BitStatus`, as a condition. -/
def bitStatus (arg posn : UInt8) : Bool := arg &&& bit posn != 0

/-- `BitSet` under an `if`. -/
def bitSetIf (c : Prop) [Decidable c] (arg posn : UInt8) : UInt8 := if c then bitSet arg posn else arg

/-- The mode bits of the flag byte. -/
def modeBits : Mode → UInt8
  | .eStop => 0x00
  | .eFreeRun => bitSet 0x00 0
  | .eAuto => bitSet 0x00 1
  | .eLift => bitSet (bitSet 0x00 0) 1

/-- `ucActualFlagByte`: the mode in bits 0 and 1, then one bit each for the enable, the direction, the axis and the lift. -/
def ucActualFlagByte (cmd : HMICmd) : UInt8 :=
  bitSetIf (cmd.liftDir = .eUp)
    (bitSetIf (cmd.freeRunAxis = .ePole)
      (bitSetIf (cmd.freeRunDir = .eCCW)
        (bitSetIf (cmd.ctrlEn = .eEnable) (modeBits cmd.mode) 2) 3) 4) 5

/-- The static variables of `TaskTriggerMsg`. -/
structure TriggerStatics where
  ucPreviousFlagByte : UInt8
  bStallPreviousFlag : Bool
  uiPreviousPosCmdArm : UInt16
  uiPreviousPosCmdPole : UInt16
  deriving DecidableEq, Repr

/-- The static variables at boot. -/
def TriggerStatics.boot : TriggerStatics :=
  { ucPreviousFlagByte := 0, bStallPreviousFlag := false, uiPreviousPosCmdArm := 0, uiPreviousPosCmdPole := 0 }

/-- `ucEventFlagByte`: the flags that differ from the previous call, and in bit 6 whether a set point does. -/
def ucEventFlagByte (st : TriggerStatics) (cmd : HMICmd) : UInt8 :=
  bitSetIf (cmd.posCmdPole ≠ st.uiPreviousPosCmdPole)
    (bitSetIf (cmd.posCmdArm ≠ st.uiPreviousPosCmdArm) (ucActualFlagByte cmd ^^^ st.ucPreviousFlagByte) 6) 6

/-! ## The conditions -/

/-- The local flags of `TaskTriggerMsg` that say what to send, all false at first. -/
structure TriggerFlags where
  bSendToArm : Bool := false
  bSendToPole : Bool := false
  bSendToLift : Bool := false
  bTypeStop : Bool := false
  bTypeFreeRunStart : Bool := false
  bTypeAutoStart : Bool := false
  bTypeLiftUp : Bool := false
  bTypeLiftDown : Bool := false
  deriving DecidableEq, Repr

/-- `if (pHMICmd->freeRunAxis == eArm) bSendToArm = TRUE; else bSendToPole = TRUE;` -/
def TriggerFlags.sendToAxis (l : TriggerFlags) : FreeRunAxis → TriggerFlags
  | .eArm => { l with bSendToArm := true }
  | .ePole => { l with bSendToPole := true }

/-- The `switch` on the mode bits. -/
def modeTrigger (cmd : HMICmd) (ucEvent : UInt8) : TriggerFlags :=
  let ucMode_ActualBits := 0x03 &&& ucActualFlagByte cmd
  let ucMode_EventBits := 0x03 &&& ucEvent
  if ucMode_ActualBits = 0x00 then
    if ucMode_EventBits = 0x01 ∨ bitStatus ucEvent 4 = true then
      { bTypeStop := true : TriggerFlags }.sendToAxis cmd.freeRunAxis
    else if ucMode_EventBits = 0x02 then { bTypeStop := true, bSendToArm := true, bSendToPole := true }
    else if ucMode_EventBits = 0x03 then { bTypeStop := true, bSendToLift := true }
    else {}
  else if ucMode_ActualBits = 0x01 then { bTypeFreeRunStart := true : TriggerFlags }.sendToAxis cmd.freeRunAxis
  else if ucMode_ActualBits = 0x02 then { bTypeAutoStart := true, bSendToArm := true, bSendToPole := true }
  else if ucMode_ActualBits = 0x03 then
    if cmd.liftDir = .eUp then { bTypeLiftUp := true, bSendToLift := true }
    else { bTypeLiftDown := true, bSendToLift := true }
  else {}

/-- The test of `ctrlEn`, after the `switch`: the flags, and the call on the relay. -/
def ctrlEnTrigger (cmd : HMICmd) (ucEvent : UInt8) (l : TriggerFlags) : TriggerFlags × List Effect :=
  if bitStatus ucEvent 2 then
    if cmd.ctrlEn = .eDisable then
      ({ l with bTypeStop := true, bSendToArm := true, bSendToPole := true, bSendToLift := true }, [.relayMainPwr false])
    else (l, [.relayMainPwr true])
  else (l, [])

/-- A message to an axis: its type is assigned by the first of the three flags that is set, and by none of them if none is. -/
def motPapBlock (l : TriggerFlags) (dir : FreeRunDir) (vel : UInt8) (pos : UInt16) : MotPapBlock :=
  { type :=
      if l.bTypeStop then some .stop
      else if l.bTypeFreeRunStart then some .freeRunning
      else if l.bTypeAutoStart then some .closedLoop
      else none
    freeRunDirection := some dir.toMotPapDirection
    freeRunSpeed := some vel.toUInt32
    closedLoopSetpoint := some pos }

/-- `pArmMsg`. -/
def pArmMsg (l : TriggerFlags) (cmd : HMICmd) : MotPapBlock := motPapBlock l cmd.freeRunDir cmd.velCmdArm cmd.posCmdArm

/-- `pPoleMsg`. -/
def pPoleMsg (l : TriggerFlags) (cmd : HMICmd) : MotPapBlock := motPapBlock l cmd.freeRunDir cmd.velCmdPole cmd.posCmdPole

/-- `pLiftMsg`. -/
def pLiftMsg (l : TriggerFlags) : LiftBlock :=
  { type :=
      if l.bTypeStop then some .stop
      else if l.bTypeLiftUp then some .up
      else if l.bTypeLiftDown then some .down
      else none }

/-- The three sends, each under its flag. -/
def sends (l : TriggerFlags) (cmd : HMICmd) : List Effect :=
  (if l.bSendToArm then [.armQueueSend (pArmMsg l cmd)] else []) ++
    (if l.bSendToPole then [.poleQueueSend (pPoleMsg l cmd)] else []) ++
    (if l.bSendToLift then [.liftQueueSend (pLiftMsg l)] else [])

/-! ## The producers -/

/-- What `TaskTriggerMsg` does before it looks at the flags: the stall detection, and the offsets if the frame calibrates. -/
def settings (cmd : HMICmd) : List Effect :=
  .setStallDetection (decide (cmd.stallEn = .eEnable)) ::
    (if cmd.setCal = .eCal then [.armSetOffset cmd.posCmdArm, .poleSetOffset cmd.posCmdPole] else [])

/-- `TaskTriggerMsg`: the static variables it leaves, and the calls it makes. -/
def taskTriggerMsg (st : TriggerStatics) (cmd : HMICmd) : TriggerStatics × List Effect :=
  let ucEvent := ucEventFlagByte st cmd
  ({ ucPreviousFlagByte := ucActualFlagByte cmd
     bStallPreviousFlag := decide (cmd.stallEn = .eEnable)
     uiPreviousPosCmdArm := cmd.posCmdArm
     uiPreviousPosCmdPole := cmd.posCmdPole },
   settings cmd ++
    if ucEvent ≠ 0x00 ∧ (cmd.ctrlEn = .eEnable ∨ bitStatus st.ucPreviousFlagByte 2 = true) then
      let triggered := ctrlEnTrigger cmd ucEvent (modeTrigger cmd ucEvent)
      triggered.2 ++ sends triggered.1 cmd
    else [])

/-- `prvEmergencyStop`: the relay is cut after the three sends. -/
def prvEmergencyStop : List Effect :=
  [.armQueueSend { type := some .stop }, .poleQueueSend { type := some .stop }, .liftQueueSend { type := some .stop },
    .relayMainPwr false]

end Rtu

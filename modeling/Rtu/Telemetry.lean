import Rtu.Controller
import Rtu.Temperature
import Rtu.Text

/-!
# `NetValuesToSendFromRTU`

The reply that follows every accepted frame. It is built in `RTUDataTx`, a variable of the block of a connection that nobody
initialises, and the whole of its buffer is sent. A text field is filled by `sprintf` and read back by the `%s` of `snprintf`.

`Station` is the controller that builds its replies: where the thread has made the calls of `TaskTriggerMsg`, it goes on by building
one. The function waits for nothing between its sample of the two flags and its end, and reads nothing but positions before, so that a
reply is one step.
-/

namespace Rtu

/-! ## The texts -/

/-- `RTU_NETVAR_SIZE`. -/
def RTU_NETVAR_SIZE : Nat := 9

/-- The character between the fields of the text. -/
def space : UInt8 := 32

/-- The text of a field. It fits the field with its NUL, and no NUL and no space is in it. -/
structure NetVar where
  text : List UInt8
  fits : text.length < RTU_NETVAR_SIZE := by decide
  noNul : 0 ∉ text := by decide
  noSpace : space ∉ text := by decide

/-- `"ACW_RUN;"`. -/
def acwRun : NetVar := { text := literal ['A', 'C', 'W', '_', 'R', 'U', 'N', ';'] }
/-- `"ACC_RUN;"`. -/
def accRun : NetVar := { text := literal ['A', 'C', 'C', '_', 'R', 'U', 'N', ';'] }
/-- `"PCW_RUN;"`. -/
def pcwRun : NetVar := { text := literal ['P', 'C', 'W', '_', 'R', 'U', 'N', ';'] }
/-- `"PCC_RUN;"`. -/
def pccRun : NetVar := { text := literal ['P', 'C', 'C', '_', 'R', 'U', 'N', ';'] }
/-- `"LUP_RUN;"`. -/
def lupRun : NetVar := { text := literal ['L', 'U', 'P', '_', 'R', 'U', 'N', ';'] }
/-- `"LDW_RUN;"`. -/
def ldwRun : NetVar := { text := literal ['L', 'D', 'W', '_', 'R', 'U', 'N', ';'] }
/-- `"STL_ALM;"`. -/
def stlAlm : NetVar := { text := literal ['S', 'T', 'L', '_', 'A', 'L', 'M', ';'] }
/-- `"STL_RUN;"`. -/
def stlRun : NetVar := { text := literal ['S', 'T', 'L', '_', 'R', 'U', 'N', ';'] }
/-- `"ON_COND;"`. -/
def onCond : NetVar := { text := literal ['O', 'N', '_', 'C', 'O', 'N', 'D', ';'] }
/-- `"NOT_POS;"`. -/
def notPos : NetVar := { text := literal ['N', 'O', 'T', '_', 'P', 'O', 'S', ';'] }

/-- `sprintf(field, "%s", text)`. -/
def sprintf (field : Vector UInt8 RTU_NETVAR_SIZE) (text : NetVar) : Vector UInt8 RTU_NETVAR_SIZE :=
  Text.write 0 field text.text text.fits

/-- The conversion `%d` of a number that is not negative. -/
def decimal (n : Nat) : List UInt8 := literal (Nat.toDigits 10 n)

/-! ## The reply -/

/-- `RTUData_t`. -/
structure RTUData where
  posActArm : UInt16
  posActPole : UInt16
  velActArm : UInt16
  velActPole : UInt16
  cwLimitArm : Vector UInt8 RTU_NETVAR_SIZE
  ccwLimitArm : Vector UInt8 RTU_NETVAR_SIZE
  cwLimitPole : Vector UInt8 RTU_NETVAR_SIZE
  ccwLimitPole : Vector UInt8 RTU_NETVAR_SIZE
  limitUp : Vector UInt8 RTU_NETVAR_SIZE
  limitDown : Vector UInt8 RTU_NETVAR_SIZE
  stallAlm : Vector UInt8 RTU_NETVAR_SIZE
  onCondition : Vector UInt8 RTU_NETVAR_SIZE
  status : UInt8
  buffer : Vector UInt8 100
  deriving DecidableEq

/-- The arguments of `snprintf`, as the format converts them. The third is the temperature, in the place of `velActArm`. -/
def RTUData.columns (tx : RTUData) (temp : UInt16) : List (List UInt8) :=
  [decimal tx.posActArm.toNat, decimal tx.posActPole.toNat, decimal temp.toNat, decimal tx.velActPole.toNat,
    Text.read 0 tx.cwLimitArm, Text.read 0 tx.ccwLimitArm, Text.read 0 tx.cwLimitPole, Text.read 0 tx.ccwLimitPole,
    Text.read 0 tx.limitUp, Text.read 0 tx.limitDown, Text.read 0 tx.stallAlm, Text.read 0 tx.onCondition,
    decimal tx.status.toNat]

/-- The text of the format `"%d %d %d %d %s %s %s %s %s %s %s %s %d "`. -/
def RTUData.text (tx : RTUData) (temp : UInt16) : List UInt8 := Text.terminated space (tx.columns temp)

/-- The fields that the other end finds in a reply. -/
def RTUData.fields (tx : RTUData) : List (List UInt8) := (Text.read 0 tx.buffer).splitOn space

/-- The static variables behind a reply: `on_condition_old`, and those of `temperature_read`. -/
structure TelemetryStatics where
  onConditionOld : Bool
  temperature : Temperature

/-- The static variables as the loader leaves them. -/
def TelemetryStatics.boot : TelemetryStatics := { onConditionOld := false, temperature := .boot }

/-- What the converters answer while a reply is built. -/
structure TelemetryReadings where
  temperature : UInt16
  poleStatus : UInt16
  armStatus : UInt16
  armPosition : UInt16
  polePosition : UInt16
  deriving DecidableEq, Repr

/-- `NetValuesToSendFromRTU`: the static variables, the arm and the pole as it leaves them, and the reply. -/
def netValuesToSendFromRTU (st : TelemetryStatics) (arm pole : MotPap) (iServerStatus : UInt16) (pRTUDataTx : RTUData)
    (r : TelemetryReadings) : TelemetryStatics × MotPap × MotPap × RTUData :=
  let temperature := temperatureRead st.temperature r.temperature
  let temp := temperature.temperature
  let pole := motPapReadCorrectedPos pole r.poleStatus
  let arm := motPapReadCorrectedPos arm r.armStatus
  let onCondition := arm.alreadyThere && pole.alreadyThere
  let onConditionFlag := onCondition != st.onConditionOld && onCondition
  let tx :=
    { pRTUDataTx with
        posActArm := arm.rdc.readPosition r.armPosition
        posActPole := pole.rdc.readPosition r.polePosition
        velActArm := arm.freq.toUInt16
        velActPole := pole.freq.toUInt16
        cwLimitArm := sprintf pRTUDataTx.cwLimitArm acwRun
        ccwLimitArm := sprintf pRTUDataTx.ccwLimitArm accRun
        cwLimitPole := sprintf pRTUDataTx.cwLimitPole pcwRun
        ccwLimitPole := sprintf pRTUDataTx.ccwLimitPole pccRun
        limitUp := sprintf pRTUDataTx.limitUp lupRun
        limitDown := sprintf pRTUDataTx.limitDown ldwRun
        stallAlm := sprintf pRTUDataTx.stallAlm (if arm.stalled || pole.stalled then stlAlm else stlRun)
        onCondition := sprintf pRTUDataTx.onCondition (if onConditionFlag then onCond else notPos)
        status := if iServerStatus ≠ 0 then iServerStatus.toUInt8 else 0x00 }
  ({ onConditionOld := onCondition, temperature }, arm, pole, { tx with buffer := Text.writeBounded 0 tx.buffer (tx.text temp) })

/-! ## The controller and its replies -/

/-- The controller, the static variables behind its replies, and `RTUDataTx`. -/
structure Station where
  controller : Controller
  statics : TelemetryStatics
  rtuDataTx : RTUData

/-- Boot, with what the two variables of the block hold. -/
def Station.boot (stack : HMICmdVar) (rate : UInt32) (rtuDataTx : RTUData) : Station :=
  { controller := .boot stack rate, statics := .boot, rtuDataTx }

/-- What the scheduler can let the station do. -/
inductive StationLabel where
  /-- a step of the controller; should it open the block of a connection, `stack` is what `RTUDataTx` holds there -/
  | controller (l : ControllerLabel) (stack : RTUData)
  /-- the thread builds a reply -/
  | reply (r : TelemetryReadings)

/-- The thread has made the calls of `TaskTriggerMsg`, and builds the reply next. -/
def Station.Replies (s : Station) : Prop := s.controller.tcp.pc = .trigger []

instance (s : Station) : Decidable s.Replies := inferInstanceAs (Decidable (_ = _))

/-- The reply that a step builds. -/
def Station.netValues (s : Station) (r : TelemetryReadings) : TelemetryStatics × MotPap × MotPap × RTUData :=
  netValuesToSendFromRTU s.statics s.controller.arm.me s.controller.pole.me s.controller.tcp.iServerStatus s.rtuDataTx r

/-- One step. -/
def Station.step (s : Station) : StationLabel → Station
  | .controller (.tcp i) stack =>
    -- where a reply is due the thread goes on by building it
    if s.Replies then s
    else
      { s with
          controller := s.controller.step (.tcp i)
          rtuDataTx := match s.controller.tcp.pc, i with
            | .accept, .accept err _ => if err = 0 then stack else s.rtuDataTx
            | _, _ => s.rtuDataTx }
  | .controller l _ => { s with controller := s.controller.step l }
  | .reply r =>
    if s.Replies then
      let (statics, arm, pole, rtuDataTx) := s.netValues r
      { controller :=
          { s.controller with
              arm := { s.controller.arm with me := arm }, pole := { s.controller.pole with me := pole }
              tcp := s.controller.tcp.step .run }
        statics, rtuDataTx }
    else s

end Rtu

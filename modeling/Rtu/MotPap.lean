import Rtu.Messages
import Rtu.Ad2s1210

/-!
# A stepper motor: `mot_pap.c` on top of `tmr.c`

Every function takes the `struct mot_pap` and returns it. The functions that reach `vTaskDelay` return, beside the structure
as it is when the task is suspended, what the task still holds in its locals; the part after the delay is a function of its
own, applied to the structure as the other task may have left it.

The peripherals are part of the structure: the timer block holds its match register, and `dirOut` the last value given to
`gpios.direction`. `calls` is the list of the calls made on the peripherals, newest first, each with what it found there; no
function reads it.
-/

namespace Rtu

/-- `MOT_PAP_MAX_FREQ`. -/
def motPapMaxFreq : UInt32 := 125000
/-- `MOT_PAP_MAX_SPEED_FREE_RUN`. -/
def motPapMaxSpeedFreeRun : UInt32 := 8
/-- `MOT_PAP_COMPUMOTOR_MAX_FREQ`. -/
def motPapCompumotorMaxFreq : UInt32 := 300000
/-- `MOT_PAP_SUPERVISOR_RATE`. -/
def motPapSupervisorRate : UInt32 := 3000
/-- `MOT_PAP_POS_PROXIMITY_THRESHOLD`. -/
def motPapPosProximityThreshold : Nat := 100
/-- `MOT_PAP_POS_THRESHOLD`. -/
def motPapPosThreshold : Nat := 6
/-- `MOT_PAP_STALL_THRESHOLD`. -/
def motPapStallThreshold : Nat := 3
/-- `MOT_PAP_STALL_MAX_COUNT`. -/
def motPapStallMaxCount : UInt16 := 40

/-- `mot_pap_free_run_freqs`, in kHz. -/
def motPapFreeRunFreqs : List UInt32 := [0, 25, 25, 25, 50, 75, 75, 100, 125]

/-- `mot_pap_free_run_freqs[speed] * 1000`. -/
def freeRunFreq (speed : UInt32) : UInt32 := motPapFreeRunFreqs.getD speed.toNat 0 * 1000

/-! ## The timer -/

/-- `struct tmr` and the peripheral behind it. `started` is the peripheral's state too: `tmr_start` and `tmr_stop` set both.
`rate` is what `Chip_Clock_GetRate` answers for the timer's clock. -/
structure Tmr where
  started : Bool
  mr1 : UInt32
  rate : UInt32
  deriving DecidableEq, Repr

/-- `tmr_set_freq`, with its return value. The match register is that of a timer that toggles twice in a period. -/
def Tmr.setFreq (me : Tmr) (tickRateHz : UInt32) : Int × Tmr :=
  if tickRateHz > motPapCompumotorMaxFreq then (-1, me)
  else (0, { me with mr1 := me.rate / (tickRateHz <<< 1) })

/-- `tmr_start`. -/
def Tmr.start (me : Tmr) : Tmr := { me with started := true }

/-- `tmr_stop`: the reset it makes clears the counter, not the match register. -/
def Tmr.stop (me : Tmr) : Tmr := { me with started := false }

/-- A call on a peripheral, with what it found there or what it answered. -/
inductive Call where
  | tmrSetFreq (tickRateHz : UInt32) (ret : Int)
  | tmrStart
  | tmrStop
  | direction (dir : MotPapDirection) (last : Option MotPapDirection) (running : Bool)
  | pulse
  deriving DecidableEq, Repr

/-- `struct mot_pap`. -/
structure MotPap where
  type : MotPapType
  dir : MotPapDirection
  posCmd : UInt16
  posAct : UInt16
  freq : UInt32
  stalled : Bool
  alreadyThere : Bool
  stalledCounter : UInt16
  rdc : Ad2s1210
  tmr : Tmr
  lastDir : MotPapDirection
  lastPos : UInt16
  halfPulses : UInt32
  offset : UInt16
  dirOut : Option MotPapDirection
  calls : List Call
  deriving DecidableEq, Repr

namespace MotPap

/-- `tmr_set_freq(&(me->tmr), hz)`: the callers drop the return value. -/
def tmrSetFreq (me : MotPap) (hz : UInt32) : MotPap :=
  { me with tmr := (me.tmr.setFreq hz).2, calls := .tmrSetFreq hz (me.tmr.setFreq hz).1 :: me.calls }

/-- `tmr_start(&(me->tmr))`. -/
def tmrStart (me : MotPap) : MotPap := { me with tmr := me.tmr.start, calls := .tmrStart :: me.calls }

/-- `tmr_stop(&(me->tmr))`. -/
def tmrStop (me : MotPap) : MotPap := { me with tmr := me.tmr.stop, calls := .tmrStop :: me.calls }

/-- `me->gpios.direction(me->dir)`. -/
def direction (me : MotPap) : MotPap :=
  { me with dirOut := some me.dir, calls := .direction me.dir me.dirOut me.tmr.started :: me.calls }

end MotPap

/-! ## Positions and speeds -/

/-- `mot_pap_read_corrected_pos`, and `mot_pap_update_position`, whose body is the same. -/
def motPapReadCorrectedPos (me : MotPap) (raw : UInt16) : MotPap :=
  { me with posAct := motPapOffsetCorrection (me.rdc.readPosition raw) me.offset me.rdc.resolution }

/-- `mot_pap_direction_calculate`. -/
def motPapDirectionCalculate (error : Int) : MotPapDirection := if error < 0 then .cw else .ccw

/-- `mot_pap_free_run_speed_ok`. -/
def motPapFreeRunSpeedOk (speed : UInt32) : Bool := speed > 0 && speed ≤ motPapMaxSpeedFreeRun

/-- `me->posCmd - me->posAct`, in `int`. -/
def MotPap.error (me : MotPap) : Int := (me.posCmd.toNat : Int) - me.posAct.toNat

/-! ## The commands -/

/-- What the command task holds while it waits in `vTaskDelay` for the motor to stand still. -/
inductive CmdDelay where
  | freeRun (direction : MotPapDirection) (speed : UInt32)
  | closedLoop (dir : MotPapDirection)
  deriving DecidableEq, Repr

/-- The timer is stopped, programmed with `me->freq` and started: the end of both moves. -/
def MotPap.restart (me : MotPap) : MotPap := (me.tmrStop.tmrSetFreq me.freq).tmrStart

/-- `mot_pap_move_free_run`, after its delay. -/
def motPapMoveFreeRunEnd (me : MotPap) (direction : MotPapDirection) (speed : UInt32) : MotPap :=
  let me := { me with type := .freeRunning, dir := direction }.direction
  { me with freq := freeRunFreq speed }.restart

/-- `mot_pap_move_free_run`. -/
def motPapMoveFreeRun (me : MotPap) (direction : MotPapDirection) (speed : UInt32) : MotPap × Option CmdDelay :=
  if motPapFreeRunSpeedOk speed then
    if me.dir ≠ direction ∧ me.type ≠ .stop then (me.tmrStop, some (.freeRun direction speed))
    else (motPapMoveFreeRunEnd me direction speed, none)
  else (me, none)

/-- `mot_pap_move_closed_loop`, after its delay. -/
def motPapMoveClosedLoopEnd (me : MotPap) (dir : MotPapDirection) : MotPap :=
  let me := { me with type := .closedLoop, dir := dir }.direction
  { me with freq := motPapMaxFreq }.restart

/-- `mot_pap_move_closed_loop`, past the assignment of the set point. -/
def MotPap.moveToPosCmd (me : MotPap) : MotPap × Option CmdDelay :=
  if me.error.natAbs < motPapPosThreshold then ({ me with alreadyThere := true }.tmrStop, none)
  else if me.dir ≠ motPapDirectionCalculate me.error ∧ me.type ≠ .stop then
    (me.tmrStop, some (.closedLoop (motPapDirectionCalculate me.error)))
  else (motPapMoveClosedLoopEnd me (motPapDirectionCalculate me.error), none)

/-- `mot_pap_move_closed_loop`. -/
def motPapMoveClosedLoop (me : MotPap) (setpoint : UInt16) : MotPap × Option CmdDelay :=
  { me with posCmd := setpoint }.moveToPosCmd

/-- `mot_pap_stop`. -/
def motPapStop (me : MotPap) : MotPap := { me with type := .stop }.tmrStop

/-- What a command does once its delay is over. -/
def CmdDelay.resume (k : CmdDelay) (me : MotPap) : MotPap :=
  match k with
  | .freeRun direction speed => motPapMoveFreeRunEnd me direction speed
  | .closedLoop dir => motPapMoveClosedLoopEnd me dir

/-! ## The supervisor -/

/-- The stall check of `mot_pap_supervise`: the structure after it, and whether it trips. A trip also cuts the MAIN_PWR
relay, which is not part of the structure. -/
def motPapStallCheck (me : MotPap) (stallDetection : Bool) : MotPap × Bool :=
  if stallDetection then
    if ((me.posAct.toNat : Int) - me.lastPos.toNat).natAbs < motPapStallThreshold then
      if me.stalledCounter + 1 ≥ motPapStallMaxCount then
        ({ me with stalledCounter := me.stalledCounter + 1, stalled := true }.tmrStop, true)
      else ({ me with stalledCounter := me.stalledCounter + 1 }, false)
    else ({ me with stalledCounter := 0 }, false)
  else (me, false)

/-- The label `cont` of `mot_pap_supervise`. -/
def MotPap.cont (me : MotPap) : MotPap := { me with lastPos := me.posAct }

/-- The proximity branch of `mot_pap_supervise`. -/
def MotPap.slowDown (me : MotPap) : MotPap :=
  if me.error.natAbs < motPapPosProximityThreshold then
    ({ me with freq := motPapMaxFreq / 4 }.tmrStop.tmrSetFreq (motPapMaxFreq / 4)).tmrStart
  else me

/-- `mot_pap_supervise` past the stall check. If it waits for a reversal it holds the direction it calculated. -/
def motPapFollow (me : MotPap) : MotPap × Option MotPapDirection :=
  if me.type = .closedLoop then
    if me.error.natAbs < motPapPosThreshold then
      ({ me.slowDown with alreadyThere := true, type := .stop }.tmrStop.cont, none)
    else if me.dir ≠ motPapDirectionCalculate me.error then
      (me.slowDown.tmrStop, some (motPapDirectionCalculate me.error))
    else (me.slowDown.cont, none)
  else (me.cont, none)

/-- `mot_pap_supervise`. -/
def motPapSupervise (me : MotPap) (raw : UInt16) (stallDetection : Bool) : MotPap × Option MotPapDirection :=
  let checked := motPapStallCheck (motPapReadCorrectedPos me raw) stallDetection
  if checked.2 then (checked.1.cont, none) else motPapFollow checked.1

/-- Whether `mot_pap_supervise` trips on a stall, and so calls `relay_main_pwr(0)`. -/
def motPapStallTrips (me : MotPap) (raw : UInt16) (stallDetection : Bool) : Bool :=
  (motPapStallCheck (motPapReadCorrectedPos me raw) stallDetection).2

/-- `mot_pap_supervise`, after its delay. -/
def motPapSuperviseEnd (me : MotPap) (dir : MotPapDirection) : MotPap := ({ me with dir := dir }.direction.tmrStart).cont

/-! ## The timer interrupt -/

/-- `mot_pap_isr`, its first test: the pulses are counted anew when the direction has changed. -/
def MotPap.trackDir (me : MotPap) : MotPap :=
  if me.dir ≠ me.lastDir then { me with halfPulses := 0, lastDir := me.dir } else me

/-- `mot_pap_isr`, its pulse: the line is toggled and the half pulse counted. -/
def MotPap.pulse (me : MotPap) : MotPap := { me with calls := .pulse :: me.calls, halfPulses := me.halfPulses + 1 }

/-- `mot_pap_isr`, and whether it gives the supervisor semaphore. -/
def motPapIsr (me : MotPap) : MotPap × Bool :=
  if me.trackDir.pulse.halfPulses = motPapSupervisorRate then ({ me.trackDir.pulse with halfPulses := 0 }, true)
  else (me.trackDir.pulse, false)

end Rtu

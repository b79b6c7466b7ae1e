import Rtu.Drive
import Rtu.Lift
import Rtu.Lemmas.MotPap
import Rtu.Lemmas.Supervise

/-!
# The dead time of a reversal

The lift and the axes wait before they reverse, and both decide whether they do by `type`: a STOP in between makes them forget the
direction. Each is a device of `Rtu.Drive`, so the law of the dead time holds exactly as far as the motions that follow a STOP are
late enough.
-/

namespace Rtu

open Runs Drive

/-- `LIFT_DIRECTION_CHANGE_DELAY_MS` and `MOT_PAP_DIRECTION_CHANGE_DELAY_MS`. -/
def directionChangeDelayMs : Nat := 500

/-! ## The lift -/

/-- `lift_task` as a device: the drive is on while its power relay is, in the direction of the other relay. -/
def liftDevice : Drive.Device Lift LiftType LiftDirection LiftDirection :=
  { handle := liftTask, resume := fun d l => l.move d, on := Lift.liftPwr, dir := Lift.liftDir }

/-- The direction a message to the lift asks for. -/
def LiftType.direction : LiftType → Option LiftDirection
  | .up => some .up
  | .down => some .down
  | .stop => none

/-- The message, if it moves a lift whose type is STOP, moves it in the direction of the last movement or 500 ms after its end. -/
def LiftRested (s : Timed Lift LiftDirection) (a : Arrival LiftType) : Prop :=
  s.state.type = .stop → ∀ d, a.msg.direction = some d → AfterGap directionChangeDelayMs s.log.past d (s.taken a)

/-! ## An axis -/

/-- The command task of an axis as a device, each message with the reading it is handled at: the drive is on while the timer runs, in
the direction on the output. -/
def axisDevice : Drive.Device MotPap (MotPapMsg × UInt16) CmdDelay (Option MotPapDirection) :=
  { handle := fun me m => axisTask me m.1 m.2, resume := CmdDelay.resume, on := fun me => me.tmr.started, dir := MotPap.dirOut }

/-- The direction that a message asks of an axis: none if its speed is rejected, or if the axis is there. -/
def MotPap.asked (me : MotPap) (msg : MotPapMsg) (raw : UInt16) : Option MotPapDirection :=
  match msg.type with
  | .freeRunning => if motPapFreeRunSpeedOk msg.freeRunSpeed then some msg.freeRunDirection else none
  | .closedLoop =>
    let error : Int := (msg.closedLoopSetpoint.toNat : Int) - (me.correctedReading raw).toNat
    if error.natAbs < motPapPosThreshold then none else some (motPapDirectionCalculate error)
  | .stop => none

/-- The message, if it moves an axis whose type is STOP, moves it in the direction of the last movement or 500 ms after its end. -/
def AxisRested (s : Timed MotPap (Option MotPapDirection)) (a : Arrival (MotPapMsg × UInt16)) : Prop :=
  s.state.type = .stop → ∀ d, s.state.asked a.msg.1 a.msg.2 = some d →
    AfterGap directionChangeDelayMs s.log.past (some d) (s.taken a)

namespace DeadTimeAux

/-! ## The lift waits -/

/-- The direction a lift remembers. -/
def liftKept (l : Lift) : Option LiftDirection := l.type.direction

/-- A lift under power moves in the direction it remembers. -/
def LiftInv (l : Lift) : Prop := l.liftPwr = true → liftKept l = some l.liftDir

theorem move_state (l : Lift) (d : LiftDirection) :
    (l.move d).type.direction = some d ∧ (l.move d).liftPwr = true ∧ (l.move d).liftDir = d := by
  cases d <;> exact ⟨rfl, rfl, rfl⟩

theorem liftInv_move (l : Lift) (d : LiftDirection) : LiftInv (l.move d) := by
  obtain ⟨hkept, -, hdir⟩ := move_state l d
  intro _
  rw [liftKept, hkept, hdir]

/-- What `lift_task` does with a message: a motion, at once or after a wait that reverses the one remembered, or a stop. -/
theorem liftTask_cases (l : Lift) (m : LiftType) :
    (∃ d, m.direction = some d ∧ (liftKept l = none ∨ liftKept l = some d) ∧ liftTask l m = (l.move d, none)) ∨
    (∃ d d', m.direction = some d ∧ liftKept l = some d' ∧ liftTask l m = (l.relayLiftPwr false, some d)) ∨
    (m.direction = none ∧ liftTask l m = ({ l with type := .stop }.relayLiftPwr false, none)) := by
  obtain ⟨type, pwr, dir⟩ := l
  cases m with
  | stop => exact Or.inr (Or.inr ⟨rfl, rfl⟩)
  | up =>
    cases type with
    | up => exact Or.inl ⟨.up, rfl, Or.inr rfl, rfl⟩
    | down => exact Or.inr (Or.inl ⟨.up, .down, rfl, rfl, rfl⟩)
    | stop => exact Or.inl ⟨.up, rfl, Or.inl rfl, rfl⟩
  | down =>
    cases type with
    | up => exact Or.inr (Or.inl ⟨.down, .up, rfl, rfl, rfl⟩)
    | down => exact Or.inl ⟨.down, rfl, Or.inr rfl, rfl⟩
    | stop => exact Or.inl ⟨.down, rfl, Or.inl rfl, rfl⟩

theorem lift_waits : liftDevice.Waits liftKept LiftInv where
  energised _ h hon := h hon
  handled := by
    intro l m st h hhandle
    have heq : liftTask l m = (st, none) := hhandle
    rcases liftTask_cases l m with ⟨d, -, hkept, hmove⟩ | ⟨d, d', -, -, hwait⟩ | ⟨-, hstop⟩
    · rw [heq] at hmove
      obtain rfl : st = l.move d := congrArg Prod.fst hmove
      obtain ⟨-, hpwr, hdir⟩ := move_state l d
      refine ⟨liftInv_move l d, ?_, ?_⟩
      · intro hoff
        rw [show liftDevice.on (l.move d) = true from hpwr] at hoff
        cases hoff
      · intro _
        rw [show liftDevice.dir (l.move d) = d from hdir]
        exact hkept
    · rw [heq] at hwait
      cases congrArg Prod.snd hwait
    · rw [heq] at hstop
      obtain rfl := congrArg Prod.fst hstop
      refine ⟨fun hon => ?_, fun _ => Or.inl rfl, fun hon => ?_⟩ <;> cases hon
  waiting := by
    intro l m st d h hhandle
    have heq : liftTask l m = (st, some d) := hhandle
    rcases liftTask_cases l m with ⟨d', -, -, hmove⟩ | ⟨d', _, -, -, hwait⟩ | ⟨-, hstop⟩
    · rw [heq] at hmove
      cases congrArg Prod.snd hmove
    · rw [heq] at hwait
      obtain rfl := congrArg Prod.fst hwait
      exact ⟨rfl, liftInv_move _ d, (move_state _ d).2.1⟩
    · rw [heq] at hstop
      cases congrArg Prod.snd hstop

/-- A lift is patient exactly when it has rested. -/
theorem lift_patient_iff (s : Timed Lift LiftDirection) (a : Arrival LiftType) :
    liftDevice.Patient liftKept directionChangeDelayMs s a ↔ LiftRested s a := by
  have hstop : liftKept s.state = none ↔ s.state.type = .stop := by
    unfold liftKept
    cases s.state.type <;> simp [LiftType.direction]
  unfold Drive.Device.Patient LiftRested
  rw [← hstop]
  constructor
  · intro hpatient hkept d hd
    rcases liftTask_cases s.state a.msg with ⟨d', hd', -, hmove⟩ | ⟨_, d', -, hsome, -⟩ | ⟨hnone, -⟩
    · obtain rfl : d' = d := Option.some.inj (hd'.symm.trans hd)
      obtain ⟨-, hpwr, hdir⟩ := move_state s.state d'
      have hgap := hpatient _ hmove hkept hpwr
      rw [show liftDevice.dir (s.state.move d') = d' from hdir] at hgap
      exact hgap
    · rw [hkept] at hsome
      cases hsome
    · rw [hnone] at hd
      cases hd
  · intro hrested st hhandle hkept hon
    have heq : liftTask s.state a.msg = (st, none) := hhandle
    rcases liftTask_cases s.state a.msg with ⟨d, hd, -, hmove⟩ | ⟨_, _, -, -, hwait⟩ | ⟨-, hoff⟩
    · rw [heq] at hmove
      obtain rfl : st = s.state.move d := congrArg Prod.fst hmove
      rw [show liftDevice.dir (s.state.move d) = d from (move_state s.state d).2.2]
      exact hrested hkept d hd
    · rw [heq] at hwait
      cases congrArg Prod.snd hwait
    · rw [heq] at hoff
      obtain rfl := congrArg Prod.fst hoff
      cases hon

/-! ## An axis waits -/

/-- The direction an axis remembers. -/
def axisKept (me : MotPap) : Option (Option MotPapDirection) := if me.type = .stop then none else some (some me.dir)

/-- What an axis remembers decides whether a command waits. -/
theorem kept_of_guard {me : MotPap} {d : MotPapDirection} :
    (me.dir ≠ d ∧ me.type ≠ .stop → ∃ d', axisKept me = some d') ∧
      (¬(me.dir ≠ d ∧ me.type ≠ .stop) → axisKept me = none ∨ axisKept me = some (some d)) := by
  unfold axisKept
  by_cases htype : me.type = .stop
  · exact ⟨fun h => absurd htype h.2, fun _ => Or.inl (if_pos htype)⟩
  · rw [if_neg htype]
    refine ⟨fun _ => ⟨_, rfl⟩, fun h => Or.inr ?_⟩
    have hdir : me.dir = d := Classical.byContradiction fun hne => h ⟨hne, htype⟩
    rw [hdir]

/-- What a command task does with a message: a motion in the direction asked, at once if it is the one remembered or none is, and
after a wait otherwise; or, if nothing is asked, a stop, or no change of what is remembered and on the output. -/
theorem axisTask_cases (me : MotPap) (msg : MotPapMsg) (raw : UInt16) :
    (∃ d, me.asked msg raw = some d ∧ (axisKept me = none ∨ axisKept me = some (some d)) ∧ (axisTask me msg raw).2 = none ∧
      (axisTask me msg raw).1.tmr.started = true ∧ (axisTask me msg raw).1.dirOut = some d) ∨
    (∃ d d', me.asked msg raw = some d ∧ axisKept me = some d' ∧ (axisTask me msg raw).2 ≠ none) ∨
    (me.asked msg raw = none ∧ (axisTask me msg raw).2 = none ∧
      ((axisTask me msg raw).1.tmr.started = false ∨ (axisTask me msg raw).1.tmr.started = me.tmr.started) ∧
      (axisKept (axisTask me msg raw).1 = none ∨ axisKept (axisTask me msg raw).1 = axisKept me)) := by
  generalize hread : motPapReadCorrectedPos { me with stalled := false, stalledCounter := 0, alreadyThere := false } raw = read
  have hkept : axisKept read = axisKept me := by rw [← hread]; rfl
  have htmr : read.tmr = me.tmr := by rw [← hread]; rfl
  have hpos : read.posAct = me.correctedReading raw := by rw [← hread]; rfl
  unfold axisTask MotPap.asked
  rw [hread, ← hkept, ← htmr]
  cases msg.type with
  | freeRunning =>
    obtain ⟨hwait, hgo⟩ := @kept_of_guard read msg.freeRunDirection
    dsimp only
    unfold motPapMoveFreeRun
    cases hspeed : motPapFreeRunSpeedOk msg.freeRunSpeed with
    | false => exact Or.inr (Or.inr ⟨rfl, rfl, Or.inr rfl, Or.inr rfl⟩)
    | true =>
      rw [if_pos rfl, if_pos rfl]
      by_cases hguard : read.dir ≠ msg.freeRunDirection ∧ read.type ≠ .stop
      · obtain ⟨d', hd'⟩ := hwait hguard
        rw [if_pos hguard]
        exact Or.inr (Or.inl ⟨_, d', rfl, hd', by simp⟩)
      · rw [if_neg hguard]
        exact Or.inl ⟨_, rfl, hgo hguard, rfl, rfl, rfl⟩
  | closedLoop =>
    have herror : ({ read with posCmd := msg.closedLoopSetpoint } : MotPap).error =
        (msg.closedLoopSetpoint.toNat : Int) - (me.correctedReading raw).toNat := by
      unfold MotPap.error
      rw [hpos]
    dsimp only
    unfold motPapMoveClosedLoop MotPap.moveToPosCmd
    rw [herror]
    obtain ⟨hwait, hgo⟩ := @kept_of_guard read
      (motPapDirectionCalculate ((msg.closedLoopSetpoint.toNat : Int) - (me.correctedReading raw).toNat))
    by_cases hthere : ((msg.closedLoopSetpoint.toNat : Int) - (me.correctedReading raw).toNat).natAbs < motPapPosThreshold
    · rw [if_pos hthere, if_pos hthere]
      exact Or.inr (Or.inr ⟨rfl, rfl, Or.inl rfl, Or.inr rfl⟩)
    · rw [if_neg hthere, if_neg hthere]
      by_cases hguard : read.dir ≠
          motPapDirectionCalculate ((msg.closedLoopSetpoint.toNat : Int) - (me.correctedReading raw).toNat) ∧ read.type ≠ .stop
      · obtain ⟨d', hd'⟩ := hwait hguard
        rw [if_pos hguard]
        exact Or.inr (Or.inl ⟨_, d', rfl, hd', by simp⟩)
      · rw [if_neg hguard]
        exact Or.inl ⟨_, rfl, hgo hguard, rfl, rfl, rfl⟩
  | stop => exact Or.inr (Or.inr ⟨rfl, rfl, Or.inl rfl, Or.inl rfl⟩)

/-- An axis under way has the direction it remembers on its output. -/
theorem axis_energised {rate : UInt32} {me : MotPap} (h : AxisOk rate me) (hon : me.tmr.started = true) :
    axisKept me = some me.dirOut := by
  have hne := h.running hon
  unfold axisKept
  rw [if_neg hne, h.output hne]

theorem axis_waits (rate : UInt32) : axisDevice.Waits axisKept (AxisOk rate) where
  energised _ h hon := axis_energised h hon
  handled := by
    rintro me ⟨msg, raw⟩ st h hhandle
    have heq : axisTask me msg raw = (st, none) := hhandle
    have hok := (h.axisTask msg raw).1
    have hcases := axisTask_cases me msg raw
    rw [heq] at hok hcases
    refine ⟨hok, ?_, ?_⟩
    · intro hoff
      rcases hcases with ⟨d, -, -, -, hrun, -⟩ | ⟨_, _, -, -, hwait⟩ | ⟨-, -, -, hkept⟩
      · rw [show st.tmr.started = false from hoff] at hrun
        cases hrun
      · exact absurd rfl hwait
      · exact hkept
    · intro hon
      have hdir := axis_energised hok hon
      rcases hcases with ⟨d, -, hkept, -, -, hout⟩ | ⟨_, _, -, -, hwait⟩ | ⟨-, -, -, hnone | hsame⟩
      · rw [show axisDevice.dir st = some d from hout]
        exact hkept
      · exact absurd rfl hwait
      · rw [show axisKept st = none from hnone] at hdir
        cases hdir
      · rw [show axisKept st = axisKept me from hsame] at hdir
        exact Or.inr hdir
  waiting := by
    rintro me ⟨msg, raw⟩ st k h hhandle
    have heq : axisTask me msg raw = (st, some k) := hhandle
    obtain ⟨hok, hwait⟩ := h.axisTask msg raw
    rw [heq] at hok hwait
    obtain ⟨hstop, hk⟩ := hwait k rfl
    exact ⟨hstop, hok.resume k hstop hk, by cases k <;> rfl⟩

/-- An axis is patient exactly when it has rested. -/
theorem axis_patient_iff {rate : UInt32} {s : Timed MotPap (Option MotPapDirection)} (hok : AxisOk rate s.state)
    (a : Arrival (MotPapMsg × UInt16)) :
    axisDevice.Patient axisKept directionChangeDelayMs s a ↔ AxisRested s a := by
  obtain ⟨⟨msg, raw⟩, time, extra⟩ := a
  have hstop : axisKept s.state = none ↔ s.state.type = .stop := by
    unfold axisKept
    by_cases h : s.state.type = .stop <;> simp [h]
  have hcases := axisTask_cases s.state msg raw
  unfold Drive.Device.Patient AxisRested
  rw [← hstop]
  cases heq : axisTask s.state msg raw with
  | mk st held =>
    rw [heq] at hcases
    constructor
    · intro hpatient hkept d hd
      rcases hcases with ⟨d', hd', -, hnone, hrun, hout⟩ | ⟨_, d', -, hsome, -⟩ | ⟨hnone, -⟩
      · obtain rfl : d' = d := Option.some.inj (hd'.symm.trans hd)
        have hgap := hpatient st (heq.trans (by rw [show held = none from hnone])) hkept hrun
        rw [show axisDevice.dir st = some d' from hout] at hgap
        exact hgap
      · rw [hkept] at hsome
        cases hsome
      · rw [show s.state.asked msg raw = some d from hd] at hnone
        cases hnone
    · intro hrested st' hhandle hkept hon
      obtain rfl : st = st' := congrArg Prod.fst (heq.symm.trans hhandle)
      rcases hcases with ⟨d, hd, -, -, -, hout⟩ | ⟨_, d', -, hsome, -⟩ | ⟨-, -, hoff | hsame, -⟩
      · rw [show axisDevice.dir st = some d from hout]
        exact hrested hkept d hd
      · rw [hkept] at hsome
        cases hsome
      · rw [show st.tmr.started = true from hon] at hoff
        cases hoff
      · -- a message that asks nothing leaves an axis off whose direction is not remembered
        have hrun : s.state.tmr.started = true := by rw [← show st.tmr.started = s.state.tmr.started from hsame]; exact hon
        have hdir := axis_energised hok hrun
        rw [hkept] at hdir
        cases hdir

/-- Every state of a run of messages to an axis is in order. -/
theorem axisOk_timed {rate : UInt32} {me : MotPap} (h : AxisOk rate me) (sched : List (Arrival (MotPapMsg × UInt16))) :
    Always (axisDevice.step directionChangeDelayMs) (fun s => AxisOk rate s.state) (.start me) sched := by
  intro pre _
  refine run_inv (fun s : Timed MotPap (Option MotPapDirection) => AxisOk rate s.state) ?_ h pre
  intro s a hok
  unfold Drive.Device.step
  cases hhandle : axisDevice.handle s.state a.msg with
  | mk st held =>
    cases held with
    | none => exact ((axis_waits rate).handled s.state a.msg st hok hhandle).1
    | some k => exact ((axis_waits rate).waiting s.state a.msg st k hok hhandle).2.1

end DeadTimeAux

open DeadTimeAux

/-- The dead time of a reversal, exactly when the motions that follow a STOP keep it. For every sequence of messages to the lift, and
of messages with any readings to an axis set up by its `init` function, with any times of arrival and delays of 500 ms or more: any
two intervals in which the drive is on, in opposite directions and with none between them, are 500 ms apart, if and only if every
message that moves a lift or axis whose type is STOP moves it in the direction of the interval before, or is handled 500 ms after
its end. -/
theorem dead_time_iff :
    (∀ msgs : List (Arrival LiftType),
      Always (liftDevice.step directionChangeDelayMs) (fun s => s.log.Apart 500) (.start .init) msgs ↔
        Steps (liftDevice.step directionChangeDelayMs) LiftRested (.start .init) msgs) ∧
    (∀ (ax : Axis) (rate : UInt32) (msgs : List (Arrival (MotPapMsg × UInt16))),
      Always (axisDevice.step directionChangeDelayMs) (fun s => s.log.Apart 500) (.start (ax.init rate)) msgs ↔
        Steps (axisDevice.step directionChangeDelayMs) AxisRested (.start (ax.init rate)) msgs) := by
  constructor
  · intro msgs
    have hlaw := @apart_iff _ _ _ _ liftDevice liftKept LiftInv _ lift_waits Lift.init (fun h => by cases h) rfl rfl directionChangeDelayMs msgs
    refine hlaw.trans ⟨fun h pre a hpre => ?_, fun h pre a hpre => ?_⟩
    · exact (lift_patient_iff _ a).mp (h pre a hpre)
    · exact (lift_patient_iff _ a).mpr (h pre a hpre)
  · intro ax rate msgs
    obtain ⟨offset, heq⟩ := ax.init_eq rate
    have hoff : axisDevice.on (ax.init rate) = false := by rw [heq]; rfl
    have hkept : axisKept (ax.init rate) = none := by rw [heq]; rfl
    have hlaw := apart_iff (axis_waits rate) (axisOk_init ax rate) hoff hkept directionChangeDelayMs msgs
    have hok := axisOk_timed (axisOk_init ax rate) msgs
    refine hlaw.trans ⟨fun h pre a hpre => ?_, fun h pre a hpre => ?_⟩
    · exact (axis_patient_iff (hok pre ((List.prefix_append pre [a]).trans hpre)) a).mp (h pre a hpre)
    · exact (axis_patient_iff (hok pre ((List.prefix_append pre [a]).trans hpre)) a).mpr (h pre a hpre)

/-- Down, STOP 100 ms later, and up 100 ms after that: the lift is off for 100 ms. -/
theorem dead_time_false :
    ¬∀ msgs : List (Arrival LiftType),
      Always (liftDevice.step directionChangeDelayMs) (fun s => s.log.Apart 500) (.start .init) msgs := by
  intro h
  have hlast := (h [{ msg := .down, time := 0, extra := 0 }, { msg := .stop, time := 100, extra := 0 },
    { msg := .up, time := 200, extra := 0 }]).last
  have hgap := hlast.2 .up 200 rfl { dir := .down, start := 0, stop := 100 } rfl (by decide)
  exact absurd hgap (by decide)

end Rtu

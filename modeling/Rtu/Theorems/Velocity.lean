import Rtu.Lemmas.Pace
import Rtu.Lemmas.Supervise
import Rtu.Theorems.Announcement
import Rtu.Theorems.ReplyText

/-!
# The velocity in a reply

The frequency of an axis is set in three places: by a free run, by a closed-loop move, and by the supervisor near the set point. An
observer notes which of them last programmed the timer (`Pace`). `velActPole` has 16 bits, and three of the frequencies have 17:
`reported_velocity_iff` says which paces are reported as they are.
-/

namespace Rtu

open Runs ReplyTextAux AnnouncementAux

/-- What programs the timer of an axis. -/
inductive Pace where
  | freeRun (speed : UInt32)
  | closedLoop
  | proximity
  deriving DecidableEq, Repr

/-- The frequency it is programmed with. -/
def Pace.freq : Pace → UInt32
  | .freeRun speed => freeRunFreq speed
  | .closedLoop => motPapMaxFreq
  | .proximity => motPapMaxFreq / 4

/-- A free run at one of the lower four speeds, or the approach of a set point. -/
def Pace.Slow : Pace → Prop
  | .freeRun speed => speed ≤ 4
  | .closedLoop => False
  | .proximity => True

/-- The frequency that the timer was last programmed with, if it was programmed at all. -/
def MotPap.programmed (me : MotPap) : Option UInt32 :=
  me.calls.findSome? fun
    | .tmrSetFreq tickRateHz _ => some tickRateHz
    | _ => none

/-- What a message programs as soon as it is taken: a move that needs no reversal. -/
def MotPap.paceOf (me : MotPap) (msg : MotPapMsg) (raw : UInt16) : Option Pace :=
  let me := motPapReadCorrectedPos { me with stalled := false, stalledCounter := 0, alreadyThere := false } raw
  match msg.type with
  | .freeRunning =>
    if motPapFreeRunSpeedOk msg.freeRunSpeed = true ∧ ¬(me.dir ≠ msg.freeRunDirection ∧ me.type ≠ .stop) then
      some (.freeRun msg.freeRunSpeed)
    else none
  | .closedLoop =>
    let me := { me with posCmd := msg.closedLoopSetpoint }
    if ¬me.error.natAbs < motPapPosThreshold ∧ ¬(me.dir ≠ motPapDirectionCalculate me.error ∧ me.type ≠ .stop) then some .closedLoop
    else none
  | .stop => none

/-- What a command programs when its delay is over. -/
def CmdDelay.pace : CmdDelay → Pace
  | .freeRun _ speed => .freeRun speed
  | .closedLoop _ => .closedLoop

/-- What a step of the tasks programs. -/
def AxisTasks.paceOf (t : AxisTasks) : AxisStep → Option Pace
  | .receive msg raw => if t.cmd = none then t.me.paceOf msg raw else none
  | .cmdResume => t.cmd.map CmdDelay.pace
  | .supervise raw stallDetection =>
    if t.sup = none ∧ motPapStallTrips t.me raw stallDetection = false ∧ t.me.type = .closedLoop ∧
      (motPapReadCorrectedPos t.me raw).error.natAbs < motPapPosProximityThreshold then some .proximity
    else none
  | .supResume => none

/-- The pole, and what last programmed its timer. -/
structure Driven where
  tasks : AxisTasks
  pace : Option Pace
  deriving DecidableEq, Repr

/-- The pole at boot: nothing has programmed the timer. -/
def Driven.init (rate : UInt32) : Driven := { tasks := .init .pole rate, pace := none }

/-- What happens to the pole. -/
inductive DrivenLabel where
  /-- a task of the pole goes on -/
  | task (i : AxisStep)
  /-- `mot_pap_isr` is called -/
  | isr
  /-- `pole_get_status` -/
  | status (raw : UInt16)
  /-- `pole_set_offset` -/
  | setOffset (offset : UInt16)
  deriving DecidableEq, Repr

/-- The pole after it. -/
def AxisTasks.driven (t : AxisTasks) : DrivenLabel → AxisTasks
  | .task i => t.step i
  | .isr => { t with me := (motPapIsr t.me).1 }
  | .status raw => { t with me := motPapReadCorrectedPos t.me raw }
  | .setOffset offset => { t with me := { t.me with offset } }

/-- What it programs: only the tasks program the timer. -/
def Driven.paceOf (d : Driven) : DrivenLabel → Option Pace
  | .task i => d.tasks.paceOf i
  | _ => none

/-- One step. -/
def Driven.step (d : Driven) (l : DrivenLabel) : Driven := { tasks := d.tasks.driven l, pace := (d.paceOf l).or d.pace }

/-- A step programs nothing, or a slow pace. -/
def Driven.KeepsSlow (d : Driven) (l : DrivenLabel) : Prop := ∀ pace, d.paceOf l = some pace → pace.Slow

/-- The frequency of the pole is the one its timer was last programmed with, and any reply that is built now says so. -/
def Driven.Reported (d : Driven) : Prop :=
  d.tasks.me.freq = d.tasks.me.programmed.getD 0 ∧
    ∀ readings onConditionOld arm iServerStatus pRTUDataTx r,
      (ReplyFields.ofText (Text.read 0
        (replyAfter readings onConditionOld arm d.tasks.me iServerStatus pRTUDataTx r).buffer)).map ReplyFields.velActPole =
          some d.tasks.me.freq.toNat

namespace VelocityAux

/-! ## What programs the timer -/

/-- The frequency of an axis, and the one its timer was last programmed with. -/
def rates (me : MotPap) : UInt32 × Option UInt32 := (me.freq, me.programmed)

/-- The two after a step: those of the pace, if the step programs the timer. -/
def ratesAfter (pace : Option Pace) (before : UInt32 × Option UInt32) : UInt32 × Option UInt32 :=
  match pace with
  | some pace => (pace.freq, some pace.freq)
  | none => before

theorem rates_moveFreeRun (me : MotPap) (direction : MotPapDirection) (speed : UInt32) :
    rates (motPapMoveFreeRun me direction speed).1 =
      ratesAfter (if motPapFreeRunSpeedOk speed = true ∧ ¬(me.dir ≠ direction ∧ me.type ≠ .stop) then some (.freeRun speed) else none)
        (rates me) := by
  unfold motPapMoveFreeRun
  by_cases hspeed : motPapFreeRunSpeedOk speed = true
  · by_cases hturn : me.dir ≠ direction ∧ me.type ≠ .stop
    · rw [if_pos hspeed, if_pos hturn, if_neg fun h => h.2 hturn]
      rfl
    · rw [if_pos hspeed, if_neg hturn, if_pos ⟨hspeed, hturn⟩]
      rfl
  · rw [if_neg hspeed, if_neg fun h => hspeed h.1]
    rfl

theorem rates_moveToPosCmd (me : MotPap) :
    rates me.moveToPosCmd.1 =
      ratesAfter (if ¬me.error.natAbs < motPapPosThreshold ∧ ¬(me.dir ≠ motPapDirectionCalculate me.error ∧ me.type ≠ .stop) then
        some .closedLoop else none) (rates me) := by
  unfold MotPap.moveToPosCmd
  by_cases hthere : me.error.natAbs < motPapPosThreshold
  · rw [if_pos hthere, if_neg fun h => h.1 hthere]
    rfl
  · by_cases hturn : me.dir ≠ motPapDirectionCalculate me.error ∧ me.type ≠ .stop
    · rw [if_neg hthere, if_pos hturn, if_neg fun h => h.2 hturn]
      rfl
    · rw [if_neg hthere, if_neg hturn, if_pos ⟨hthere, hturn⟩]
      rfl

/-- A message taken, up to its delay if it has one. -/
theorem rates_axisTask (me : MotPap) (msg : MotPapMsg) (raw : UInt16) :
    rates (axisTask me msg raw).1 = ratesAfter (me.paceOf msg raw) (rates me) := by
  obtain ⟨type, direction, speed, setpoint⟩ := msg
  cases type with
  | freeRunning => exact rates_moveFreeRun _ direction speed
  | closedLoop => exact rates_moveToPosCmd _
  | stop => rfl

theorem rates_slowDown (me : MotPap) :
    rates me.slowDown =
      ratesAfter (if me.error.natAbs < motPapPosProximityThreshold then some .proximity else none) (rates me) := by
  unfold MotPap.slowDown
  split <;> rfl

theorem rates_follow (me : MotPap) :
    rates (motPapFollow me).1 =
      ratesAfter (if me.type = .closedLoop ∧ me.error.natAbs < motPapPosProximityThreshold then some .proximity else none)
        (rates me) := by
  unfold motPapFollow
  by_cases htype : me.type = .closedLoop
  · rw [if_pos htype]
    simp only [and_iff_right htype]
    rw [← rates_slowDown]
    split
    · rfl
    · split <;> rfl
  · rw [if_neg htype, if_neg fun h => htype h.1]
    rfl

/-- A supervision, up to its delay if it has one. -/
theorem rates_supervise (me : MotPap) (raw : UInt16) (stallDetection : Bool) :
    rates (motPapSupervise me raw stallDetection).1 =
      ratesAfter (if motPapStallTrips me raw stallDetection = false ∧ me.type = .closedLoop ∧
        (motPapReadCorrectedPos me raw).error.natAbs < motPapPosProximityThreshold then some .proximity else none) (rates me) := by
  unfold motPapSupervise motPapStallTrips
  dsimp only
  rcases stallCheck_cases (motPapReadCorrectedPos me raw) stallDetection with ⟨-, heq⟩ | ⟨-, heq⟩ <;> rw [heq]
  · rfl
  · simp only [Bool.false_eq_true, if_false, true_and]
    exact rates_follow _

/-- A step of the tasks. -/
theorem rates_axisStep (t : AxisTasks) (i : AxisStep) : rates (t.step i).me = ratesAfter (t.paceOf i) (rates t.me) := by
  cases i with
  | receive msg raw =>
    simp only [AxisTasks.step, AxisTasks.receive, AxisTasks.paceOf]
    cases hcmd : t.cmd with
    | none => exact rates_axisTask t.me msg raw
    | some k => rfl
  | cmdResume =>
    simp only [AxisTasks.step, AxisTasks.cmdResume, AxisTasks.paceOf]
    cases hcmd : t.cmd with
    | none => rfl
    | some k => cases k <;> rfl
  | supervise raw stallDetection =>
    simp only [AxisTasks.step, AxisTasks.supervise, AxisTasks.paceOf]
    cases hsup : t.sup with
    | none =>
      simp only [true_and]
      exact rates_supervise t.me raw stallDetection
    | some dir =>
      simp only [reduceCtorEq, false_and, if_false]
      rfl
  | supResume =>
    simp only [AxisTasks.step, AxisTasks.supResume, AxisTasks.paceOf]
    split <;> rfl

/-! ## Free runs are asked for at speeds of the table -/

/-- A pace that a command can ask for. -/
def Pace.Valid : Pace → Prop
  | .freeRun speed => motPapFreeRunSpeedOk speed = true
  | _ => True

theorem freeRunFreq_slow (speed : UInt32) (h : motPapFreeRunSpeedOk speed = true) :
    (Pace.freeRun speed).freq.toUInt16.toNat = (Pace.freeRun speed).freq.toNat ↔ speed ≤ 4 := by
  obtain ⟨hpos, hle⟩ := (freeRunSpeedOk_iff speed).mp h
  have table : ∀ n < 9, 0 < n →
      ((motPapFreeRunFreqs.getD n 0 * 1000).toUInt16.toNat = (motPapFreeRunFreqs.getD n 0 * 1000).toNat ↔ n ≤ 4) := by decide
  rw [UInt32.le_iff_toNat_le]
  exact table speed.toNat (Nat.lt_succ_of_le hle) hpos

/-- The frequency of a pace has 16 bits exactly if the pace is slow. -/
theorem toUInt16_freq {pace : Pace} (h : Pace.Valid pace) : pace.freq.toUInt16.toNat = pace.freq.toNat ↔ pace.Slow := by
  cases pace with
  | freeRun speed => exact freeRunFreq_slow speed h
  | closedLoop => exact iff_of_false (by decide) id
  | proximity => exact iff_of_true (by decide) trivial

theorem valid_command {t : AxisTasks} (h : t.Paced) {k : CmdDelay} (hk : t.cmd = some k) : Pace.Valid k.pace := by
  cases k with
  | freeRun dir speed => exact h.held dir speed hk
  | closedLoop dir => trivial

/-- What a message programs is a pace that a command can ask for. -/
theorem valid_message (me : MotPap) (msg : MotPapMsg) (raw : UInt16) {pace : Pace} (h : me.paceOf msg raw = some pace) :
    Pace.Valid pace := by
  unfold MotPap.paceOf at h
  dsimp only at h
  split at h
  · split at h
    · rename_i hrun
      cases h
      exact hrun.1
    · cases h
  · split at h
    · cases h
      trivial
    · cases h
  · cases h

/-- So is what a step of the tasks programs. -/
theorem valid_paceOf {t : AxisTasks} (ht : t.Paced) {i : AxisStep} {pace : Pace} (h : t.paceOf i = some pace) : Pace.Valid pace := by
  cases i with
  | receive msg raw =>
    simp only [AxisTasks.paceOf] at h
    split at h
    · exact valid_message t.me msg raw h
    · cases h
  | cmdResume =>
    obtain ⟨k, hk, rfl⟩ := Option.map_eq_some_iff.mp h
    exact valid_command ht hk
  | supervise raw stallDetection =>
    simp only [AxisTasks.paceOf] at h
    split at h
    · cases h
      trivial
    · cases h
  | supResume => cases h

/-! ## The invariant -/

/-- The frequency and the timer are at the pace noted, which is one that a command can ask for. -/
structure Holds (d : Driven) : Prop where
  rates : rates d.tasks.me = ratesAfter d.pace (0, none)
  pace : ∀ pace, d.pace = some pace → Pace.Valid pace
  paced : d.tasks.Paced

theorem holds_init (rate : UInt32) : Holds (.init rate) := ⟨rfl, nofun, paced_init .pole rate⟩

/-- The newer pace of two. -/
theorem ratesAfter_or (newer older : Option Pace) (before : UInt32 × Option UInt32) :
    ratesAfter (newer.or older) before = ratesAfter newer (ratesAfter older before) := by
  cases newer <;> rfl

/-- Every step keeps it. -/
theorem holds_step (d : Driven) (l : DrivenLabel) (h : Holds d) : Holds (d.step l) := by
  obtain ⟨hrates, hpace, hpaced⟩ := h
  cases l with
  | task i =>
    refine ⟨?_, ?_, paced_axisStep hpaced i⟩
    · show rates (d.tasks.step i).me = ratesAfter ((d.tasks.paceOf i).or d.pace) (0, none)
      rw [rates_axisStep, hrates, ratesAfter_or]
    · intro pace hsome
      rcases Option.or_eq_some_iff.mp hsome with hnew | ⟨-, hold⟩
      · exact valid_paceOf hpaced hnew
      · exact hpace pace hold
  | isr =>
    obtain ⟨lastDir, halfPulses, hisr⟩ := isr_eq d.tasks.me
    have htasks : d.tasks.driven .isr = { d.tasks with me := { d.tasks.me with lastDir, halfPulses, calls := .pulse :: d.tasks.me.calls } } := by
      rw [AxisTasks.driven, hisr]
    refine ⟨?_, hpace, ?_⟩
    · show rates (d.tasks.driven .isr).me = ratesAfter d.pace (0, none)
      rw [htasks]
      exact hrates
    · show (d.tasks.driven .isr).Paced
      rw [htasks]
      exact ⟨PaceAux.Paced.congr hpaced.me rfl rfl, hpaced.held⟩
  | status raw => exact ⟨hrates, hpace, PaceAux.Paced.congr hpaced.me rfl rfl, hpaced.held⟩
  | setOffset offset => exact ⟨hrates, hpace, PaceAux.Paced.congr hpaced.me rfl rfl, hpaced.held⟩

/-! ## The reply -/

/-- The velocity read back is the frequency in 16 bits. -/
theorem velActPole_replyAfter (readings : List UInt16) (onConditionOld : Bool) (arm pole : MotPap) (iServerStatus : UInt16)
    (pRTUDataTx : RTUData) (r : TelemetryReadings) :
    (ReplyFields.ofText (Text.read 0 (replyAfter readings onConditionOld arm pole iServerStatus pRTUDataTx r).buffer)).map
      ReplyFields.velActPole = some pole.freq.toUInt16.toNat := by
  rw [read_replyAfter, ofText_replyAfter]
  rfl

/-- The frequency of the pole is the one of its timer, and it has 16 bits exactly if the pace is slow. -/
theorem freq_of_holds {d : Driven} (h : Holds d) :
    d.tasks.me.freq = d.tasks.me.programmed.getD 0 ∧
      (d.tasks.me.freq.toUInt16.toNat = d.tasks.me.freq.toNat ↔ ∀ pace, d.pace = some pace → pace.Slow) := by
  obtain ⟨hfreq, htimer⟩ := Prod.mk.inj h.rates
  cases hpace : d.pace with
  | none =>
    rw [hpace] at hfreq htimer
    rw [hfreq, htimer]
    exact ⟨rfl, iff_of_true rfl nofun⟩
  | some pace =>
    rw [hpace] at hfreq htimer
    rw [hfreq, htimer]
    refine ⟨rfl, (toUInt16_freq (h.pace pace hpace)).trans ?_⟩
    simp only [Option.some.injEq, forall_eq']

/-- A reply says the frequency exactly if the pace is slow. -/
theorem reported_iff_slow {d : Driven} (h : Holds d) : d.Reported ↔ ∀ pace, d.pace = some pace → pace.Slow := by
  obtain ⟨hprogrammed, hnarrow⟩ := freq_of_holds h
  rw [← hnarrow]
  constructor
  · rintro ⟨-, hreply⟩
    have hread := hreply [] false d.tasks.me 0 clearedData zeroReadings
    rw [velActPole_replyAfter] at hread
    exact Option.some.inj hread
  · intro hfits
    refine ⟨hprogrammed, ?_⟩
    intro readings onConditionOld arm iServerStatus pRTUDataTx r
    rw [velActPole_replyAfter, hfits]

/-- The pace stays slow over a step exactly if the step programs no other one. -/
theorem slow_step {d : Driven} (hslow : ∀ pace, d.pace = some pace → pace.Slow) (l : DrivenLabel) :
    (∀ pace, (d.step l).pace = some pace → pace.Slow) ↔ d.KeepsSlow l := by
  unfold Driven.KeepsSlow Driven.step
  cases d.paceOf l with
  | none => exact iff_of_true hslow nofun
  | some pace => exact Iff.rfl

/-! ## A move to a set point -/

/-- The pole is sent to a set point. -/
def sentAway : List DrivenLabel :=
  [.task (.receive { type := .closedLoop, freeRunDirection := .cw, freeRunSpeed := 0, closedLoopSetpoint := 30000 } 0)]

end VelocityAux

open VelocityAux

/-- The velocity in a reply. For every rate of the timer's clock and every run of the pole from boot (its two tasks in any interleaving,
the timer interrupt, the readings of its position and the changes of its offset, in any order): the frequency of the pole is the one its
timer was last programmed with, and the number in a reply built there is that frequency if and only if the pace that programmed it is
slow. So the replies are right in every state of a run if and only if no step of the run programs another pace. -/
theorem reported_velocity_iff (rate : UInt32) (sched : List DrivenLabel) :
    (∀ readings onConditionOld arm iServerStatus pRTUDataTx r,
      let d := run Driven.step (.init rate) sched
      d.tasks.me.freq = d.tasks.me.programmed.getD 0 ∧
        ((ReplyFields.ofText (Text.read 0
          (replyAfter readings onConditionOld arm d.tasks.me iServerStatus pRTUDataTx r).buffer)).map ReplyFields.velActPole =
            some d.tasks.me.freq.toNat ↔ ∀ pace, d.pace = some pace → pace.Slow)) ∧
      (Always Driven.step Driven.Reported (.init rate) sched ↔ Steps Driven.step Driven.KeepsSlow (.init rate) sched) := by
  constructor
  · intro readings onConditionOld arm iServerStatus pRTUDataTx r d
    have hholds : Holds d := run_inv Holds holds_step (holds_init rate) sched
    obtain ⟨hprogrammed, hnarrow⟩ := freq_of_holds hholds
    refine ⟨hprogrammed, ?_⟩
    rw [velActPole_replyAfter, Option.some.injEq]
    exact hnarrow
  · refine always_iff_steps Holds holds_step ?_ (holds_init rate) ((reported_iff_slow (holds_init rate)).mpr nofun) sched
    intro d l hholds hreported
    rw [reported_iff_slow (holds_step d l hholds)]
    exact slow_step ((reported_iff_slow hholds).mp hreported) l

/-- A closed-loop move programs 125000, and the reply says 59464. -/
theorem reported_velocity_false : ¬∀ rate sched, Always Driven.step Driven.Reported (.init rate) sched := by
  intro h
  obtain ⟨-, hreply⟩ := (h 204000000 sentAway).last
  have hfreq : (run Driven.step (.init 204000000) sentAway).tasks.me.freq = 125000 := by decide
  have hsays := hreply [] false (armInit 204000000) 0 clearedData zeroReadings
  rw [velActPole_replyAfter, hfreq] at hsays
  exact absurd hsays (by decide)

end Rtu

import Rtu.Lemmas.Supervise
import Rtu.Runs

/-!
# The closed loop

A positioning is an approach: the axis is under way, with the last reading and whether it has been near the set point, or it has
arrived. `Approach` is that machine on its own, driven by corrected readings; the structure follows it, one supervision a
reading, however often a supervision slows the motor down or turns it round.
-/

namespace Rtu

open Runs

/-- The error of a reading against the set point, in counts. -/
def positionError (setpoint reading : UInt16) : Int := (setpoint.toNat : Int) - reading.toNat

/-- A reading at the set point. -/
def Reached (setpoint reading : UInt16) : Prop := (positionError setpoint reading).natAbs < motPapPosThreshold

/-- A reading near the set point. -/
def Near (setpoint reading : UInt16) : Prop := (positionError setpoint reading).natAbs < motPapPosProximityThreshold

instance (setpoint reading : UInt16) : Decidable (Reached setpoint reading) :=
  inferInstanceAs (Decidable (_ < _))

instance (setpoint reading : UInt16) : Decidable (Near setpoint reading) :=
  inferInstanceAs (Decidable (_ < _))

/-- A reading at the set point is near it. -/
theorem Reached.near {setpoint reading : UInt16} (h : Reached setpoint reading) : Near setpoint reading :=
  Nat.lt_trans h (by decide)

/-! ## The approach -/

/-- A positioning: under way, or arrived. -/
inductive Approach where
  | underWay (reading : UInt16) (slowed : Bool)
  | arrived
  deriving DecidableEq, Repr

/-- A reading seen by the supervisor. -/
def Approach.see (setpoint : UInt16) : Approach → UInt16 → Approach
  | .arrived, _ => .arrived
  | .underWay _ slowed, reading =>
    if Reached setpoint reading then .arrived else .underWay reading (slowed || decide (Near setpoint reading))

/-- The readings up to the first one at the set point, that one included. -/
def untilReached (setpoint : UInt16) : List UInt16 → List UInt16
  | [] => []
  | reading :: readings => if Reached setpoint reading then [reading] else reading :: untilReached setpoint readings

/-- An approach that has arrived stays so. -/
theorem run_arrived (setpoint : UInt16) (readings : List UInt16) : run (Approach.see setpoint) .arrived readings = .arrived := by
  induction readings with
  | nil => rfl
  | cons reading readings ih => exact ih

/-- An approach arrives with the first reading at the set point, and is under way until then. -/
theorem run_underWay (setpoint reading₀ : UInt16) (slowed : Bool) (readings : List UInt16) :
    run (Approach.see setpoint) (.underWay reading₀ slowed) readings =
      if ∃ reading ∈ readings, Reached setpoint reading then .arrived
      else .underWay ((reading₀ :: readings).getLast (List.cons_ne_nil _ _))
        (slowed || decide (∃ reading ∈ readings, Near setpoint reading)) := by
  induction readings generalizing reading₀ slowed with
  | nil => simp
  | cons reading readings ih =>
    rw [run_cons, Approach.see]
    by_cases hreached : Reached setpoint reading
    · rw [if_pos hreached, run_arrived, if_pos ⟨reading, List.mem_cons_self, hreached⟩]
    · rw [if_neg hreached, ih]
      simp [hreached, Bool.or_assoc]

/-- Without a reading at the set point, all readings count. -/
theorem untilReached_of_forall {setpoint : UInt16} {readings : List UInt16}
    (h : ∀ reading ∈ readings, ¬Reached setpoint reading) : untilReached setpoint readings = readings := by
  induction readings with
  | nil => rfl
  | cons reading readings ih =>
    obtain ⟨hfirst, hrest⟩ := List.forall_mem_cons.mp h
    rw [untilReached, if_neg hfirst, ih hrest]

/-- A reading at the set point is among the readings that count, or an earlier one is. -/
theorem exists_near_untilReached {setpoint : UInt16} {readings : List UInt16}
    (h : ∃ reading ∈ readings, Reached setpoint reading) : ∃ reading ∈ untilReached setpoint readings, Near setpoint reading := by
  induction readings with
  | nil => simp at h
  | cons reading readings ih =>
    by_cases hreached : Reached setpoint reading
    · rw [untilReached, if_pos hreached]
      exact ⟨reading, List.mem_singleton_self reading, hreached.near⟩
    · rw [untilReached, if_neg hreached]
      have hrest : ∃ reading ∈ readings, Reached setpoint reading := by simpa [hreached] using h
      obtain ⟨r, hmem, hnear⟩ := ih hrest
      exact ⟨r, List.mem_cons_of_mem reading hmem, hnear⟩

/-! ## The structure follows it -/

/-- The structure is in the state the approach says. -/
def Approach.Of (setpoint : UInt16) (me : MotPap) : Approach → Prop
  | .arrived => me.type = .stop ∧ me.alreadyThere = true ∧ me.tmr.started = false ∧ me.freq = motPapMaxFreq / 4
  | .underWay reading slowed =>
    me.type = .closedLoop ∧ me.alreadyThere = false ∧ me.tmr.started = true ∧ me.posCmd = setpoint ∧
      me.dir = motPapDirectionCalculate (positionError setpoint reading) ∧ me.dirOut = some me.dir ∧
      me.freq = if slowed then motPapMaxFreq / 4 else motPapMaxFreq

/-- The proximity branch, on a running motor. -/
theorem slowDown_motion (me : MotPap) :
    me.slowDown.freq = (if me.error.natAbs < motPapPosProximityThreshold then motPapMaxFreq / 4 else me.freq) ∧
      (me.tmr.started = true → me.slowDown.tmr.started = true) := by
  unfold MotPap.slowDown
  split
  · exact ⟨rfl, fun _ => rfl⟩
  · exact ⟨rfl, id⟩

/-- A supervision, past its reading, moves the structure as the reading moves the approach. -/
theorem followed_approach {setpoint reading : UInt16} {me : MotPap} {a : Approach} (hread : me.posAct = reading)
    (h : a.Of setpoint me) : (a.see setpoint reading).Of setpoint me.followed := by
  cases a with
  | arrived =>
    obtain ⟨htype, hthere, hstop, hfreq⟩ := h
    rw [followed_of_ne_closedLoop (by simp [htype])]
    exact ⟨htype, hthere, hstop, hfreq⟩
  | underWay last slowed =>
    obtain ⟨htype, hthere, hrun, hcmd, hdir, hout, hfreq⟩ := h
    have herror : me.error = positionError setpoint reading := by
      unfold MotPap.error positionError
      rw [hcmd, hread]
    obtain ⟨htype', hdir', hcmd', -, -, hthere', -, -, -, hout'⟩ := slowDown_frame me
    obtain ⟨hfreq', hrun'⟩ := slowDown_motion me
    rw [herror] at hfreq'
    have hslow : me.slowDown.freq =
        if (slowed || decide (Near setpoint reading)) then motPapMaxFreq / 4 else motPapMaxFreq := by
      have hnear : me.slowDown.freq = if Near setpoint reading then motPapMaxFreq / 4 else me.freq := hfreq'
      rw [hnear, hfreq]
      by_cases hn : Near setpoint reading <;> simp [hn]
    rw [Approach.see]
    by_cases hreached : Reached setpoint reading
    · rw [if_pos hreached, followed_reached htype (by rw [herror]; exact hreached)]
      exact ⟨rfl, rfl, rfl, hfreq'.trans (if_pos hreached.near)⟩
    · have haway : motPapPosThreshold ≤ me.error.natAbs := by
        rw [herror]
        exact Nat.not_lt.mp hreached
      rw [if_neg hreached]
      by_cases hturn : me.dir = motPapDirectionCalculate me.error
      · rw [followed_ahead htype haway hturn]
        rw [herror] at hturn
        exact ⟨htype'.trans htype, hthere'.trans hthere, hrun' hrun, hcmd'.trans hcmd, hdir'.trans hturn,
          by rw [MotPap.cont, hout', hdir', hout], hslow⟩
      · rw [followed_turned htype haway hturn, herror]
        exact ⟨htype'.trans htype, hthere'.trans hthere, rfl, hcmd'.trans hcmd, rfl, rfl, hslow⟩

/-- A positioning to a set point the axis is not at puts it under way, whatever it did before. -/
theorem message_approach (me : MotPap) (msg : MotPapMsg) (raw : UInt16) (htype : msg.type = .closedLoop)
    (haway : ¬Reached msg.closedLoopSetpoint (me.correctedReading raw)) :
    (Approach.underWay (me.correctedReading raw) false).Of msg.closedLoopSetpoint (axisTaskComplete me msg raw) ∧
      (axisTaskComplete me msg raw).rdc = me.rdc ∧ (axisTaskComplete me msg raw).offset = me.offset := by
  generalize hread : motPapReadCorrectedPos { me with stalled := false, stalledCounter := 0, alreadyThere := false } raw = read
  have hpos : read.posAct = me.correctedReading raw := by rw [← hread]; rfl
  have hthere : read.alreadyThere = false := by rw [← hread]; rfl
  have hframe : read.rdc = me.rdc ∧ read.offset = me.offset := by
    rw [← hread]
    exact ⟨rfl, rfl⟩
  have herror : ({ read with posCmd := msg.closedLoopSetpoint } : MotPap).error =
      positionError msg.closedLoopSetpoint (me.correctedReading raw) := by
    unfold MotPap.error positionError
    rw [hpos]
  have hend : axisTaskComplete me msg raw =
      motPapMoveClosedLoopEnd { read with posCmd := msg.closedLoopSetpoint }
        (motPapDirectionCalculate (positionError msg.closedLoopSetpoint (me.correctedReading raw))) ∨
      axisTaskComplete me msg raw =
        motPapMoveClosedLoopEnd ({ read with posCmd := msg.closedLoopSetpoint } : MotPap).tmrStop
          (motPapDirectionCalculate (positionError msg.closedLoopSetpoint (me.correctedReading raw))) := by
    unfold axisTaskComplete axisTask motPapMoveClosedLoop MotPap.moveToPosCmd
    rw [htype, hread]
    dsimp only
    have hfar : ¬(positionError msg.closedLoopSetpoint (me.correctedReading raw)).natAbs < motPapPosThreshold := haway
    rw [herror, if_neg hfar]
    by_cases hturn : read.dir ≠ motPapDirectionCalculate (positionError msg.closedLoopSetpoint (me.correctedReading raw)) ∧
        read.type ≠ .stop
    · rw [if_pos hturn]
      exact Or.inr rfl
    · rw [if_neg hturn]
      exact Or.inl rfl
  rcases hend with heq | heq <;> rw [heq] <;> exact ⟨⟨rfl, hthere, rfl, rfl, rfl, rfl, rfl⟩, hframe⟩

/-! ## The law -/

/-- Closed-loop control law. Whatever the axis did before, when a CLOSED_LOOP message is handled at a reading 6 or more counts from
its set point, and supervisions follow with detection off and no other message: if one of them reads the set point, the type is
STOP, `already_there` is set and the timer is stopped; otherwise the type is CLOSED_LOOP, `already_there` is clear, the timer runs,
and the direction, in the structure and on the output, is the one calculated from the last reading. The frequency is a quarter
of the maximum if a supervision up to the first at the set point read within 100 counts of it, and the maximum otherwise. -/
theorem closed_loop_law (me : MotPap) (msg : MotPapMsg) (raw₀ : UInt16) (raws : List UInt16) (htype : msg.type = .closedLoop)
    (haway : ¬Reached msg.closedLoopSetpoint (me.correctedReading raw₀)) :
    let final := run (fun me raw => motPapSuperviseComplete me raw false) (axisTaskComplete me msg raw₀) raws
    let readings := raws.map me.correctedReading
    ((∃ reading ∈ readings, Reached msg.closedLoopSetpoint reading) →
      final.type = .stop ∧ final.alreadyThere = true ∧ final.tmr.started = false) ∧
    ((∀ reading ∈ readings, ¬Reached msg.closedLoopSetpoint reading) →
      final.type = .closedLoop ∧ final.alreadyThere = false ∧ final.tmr.started = true ∧
      final.dir = motPapDirectionCalculate (positionError msg.closedLoopSetpoint
        ((me.correctedReading raw₀ :: readings).getLast (List.cons_ne_nil _ _))) ∧
      final.dirOut = some final.dir) ∧
    final.freq = if ∃ reading ∈ untilReached msg.closedLoopSetpoint readings, Near msg.closedLoopSetpoint reading then 31250
      else 125000 := by
  intro final readings
  have hfollow : (run (Approach.see msg.closedLoopSetpoint) (.underWay (me.correctedReading raw₀) false) readings).Of
      msg.closedLoopSetpoint final ∧ final.rdc = me.rdc ∧ final.offset = me.offset := by
    refine run_sim (fun (me' : MotPap) (a : Approach) =>
      a.Of msg.closedLoopSetpoint me' ∧ me'.rdc = me.rdc ∧ me'.offset = me.offset)
      me.correctedReading ?_ (message_approach me msg raw₀ htype haway) raws
    rintro me' a raw ⟨hof, hrdc, hoffset⟩
    rw [superviseComplete_off]
    obtain ⟨-, -, -, hrdc', hoffset'⟩ := followed_frame (motPapReadCorrectedPos me' raw)
    refine ⟨followed_approach ?_ ?_, hrdc'.trans hrdc, hoffset'.trans hoffset⟩
    · unfold motPapReadCorrectedPos MotPap.correctedReading
      rw [hrdc, hoffset]
    · cases a <;> exact hof
  obtain ⟨hof, -, -⟩ := hfollow
  rw [run_underWay] at hof
  by_cases hreached : ∃ reading ∈ readings, Reached msg.closedLoopSetpoint reading
  · rw [if_pos hreached] at hof
    obtain ⟨htype', hthere, hstop, hfreq⟩ := hof
    refine ⟨fun _ => ⟨htype', hthere, hstop⟩, ?_, ?_⟩
    · intro hall
      obtain ⟨reading, hmem, hr⟩ := hreached
      exact absurd hr (hall reading hmem)
    · rw [hfreq, if_pos (exists_near_untilReached hreached)]
      rfl
  · rw [if_neg hreached, Bool.false_or] at hof
    obtain ⟨htype', hthere, hrun, -, hdir, hout, hfreq⟩ := hof
    have hall : ∀ reading ∈ readings, ¬Reached msg.closedLoopSetpoint reading := by simpa using hreached
    refine ⟨fun h => absurd h hreached, fun _ => ⟨htype', hthere, hrun, hdir, hout⟩, ?_⟩
    rw [hfreq, untilReached_of_forall hall]
    simp only [decide_eq_true_eq]
    rfl

/-- The arm is sent to 2000 from 1000, passes it, comes back and stops. -/
theorem closed_loop_law_back :
    let final := run (fun me raw => motPapSuperviseComplete me raw false) (axisTaskComplete (armInit 204000000)
      { type := .closedLoop, freeRunDirection := .cw, freeRunSpeed := 0, closedLoopSetpoint := 2000 } 23305)
      [22355, 22205, 22307]
    final.type = .stop ∧ final.alreadyThere = true ∧ final.tmr.started = false :=
  (closed_loop_law (armInit 204000000)
    { type := .closedLoop, freeRunDirection := .cw, freeRunSpeed := 0, closedLoopSetpoint := 2000 } 23305
    [22355, 22205, 22307] rfl (by decide)).1 (by decide)

end Rtu

import Rtu.Axis

/-!
# A supervision run to its end

What `mot_pap_supervise` does when nothing runs in its delay, branch by branch: it trips on a stall, or it leaves a motor that
is not in closed loop as it is, or it stops at the set point, turns round, or goes on.
-/

namespace Rtu

/-- The reading stored for a register pair. -/
def MotPap.correctedReading (me : MotPap) (raw : UInt16) : UInt16 :=
  motPapOffsetCorrection (me.rdc.readPosition raw) me.offset me.rdc.resolution

/-- The stall check trips: detection is on, the position has moved by less than the threshold since the last supervision, and
this is at least the fortieth time. -/
def MotPap.TripsAt (me : MotPap) (stallDetection : Bool) : Prop :=
  stallDetection = true ∧ ((me.posAct.toNat : Int) - me.lastPos.toNat).natAbs < motPapStallThreshold ∧
    motPapStallMaxCount ≤ me.stalledCounter + 1

/-- The counter after a stall check that does not trip. -/
def MotPap.countStall (me : MotPap) (stallDetection : Bool) : UInt16 :=
  if stallDetection then
    if ((me.posAct.toNat : Int) - me.lastPos.toNat).natAbs < motPapStallThreshold then me.stalledCounter + 1 else 0
  else me.stalledCounter

/-- The rest of a supervision, past the stall check, with nothing else running in its delay. -/
def MotPap.followed (me : MotPap) : MotPap :=
  match motPapFollow me with
  | (me, none) => me
  | (me, some dir) => motPapSuperviseEnd me dir

/-- A trip counts, sets `stalled` and stops the timer; otherwise only the counter is written. -/
theorem stallCheck_cases (me : MotPap) (stallDetection : Bool) :
    (me.TripsAt stallDetection ∧ motPapStallCheck me stallDetection =
      ({ me with stalledCounter := me.stalledCounter + 1, stalled := true }.tmrStop, true)) ∨
    (¬me.TripsAt stallDetection ∧
      motPapStallCheck me stallDetection = ({ me with stalledCounter := me.countStall stallDetection }, false)) := by
  unfold motPapStallCheck MotPap.TripsAt MotPap.countStall
  split
  · rename_i hsd
    split
    · rename_i hmoved
      split
      · rename_i hcount
        exact Or.inl ⟨⟨hsd, hmoved, hcount⟩, rfl⟩
      · rename_i hcount
        exact Or.inr ⟨fun h => hcount h.2.2, rfl⟩
    · rename_i hmoved
      exact Or.inr ⟨fun h => hmoved h.2.1, rfl⟩
  · rename_i hsd
    exact Or.inr ⟨fun h => hsd h.1, rfl⟩

/-- A supervision run to its end: a trip, or the rest of it on the structure the stall check leaves. -/
theorem superviseComplete_eq (me : MotPap) (raw : UInt16) (stallDetection : Bool) :
    motPapSuperviseComplete me raw stallDetection =
      if (motPapStallCheck (motPapReadCorrectedPos me raw) stallDetection).2 then
        (motPapStallCheck (motPapReadCorrectedPos me raw) stallDetection).1.cont
      else (motPapStallCheck (motPapReadCorrectedPos me raw) stallDetection).1.followed := by
  unfold motPapSuperviseComplete motPapSupervise MotPap.followed
  dsimp only
  split <;> rename_i heq <;> split at heq
  · rename_i htrip
    rw [if_pos htrip]
    exact (congrArg Prod.fst heq).symm
  · rename_i hno
    rw [if_neg hno, heq]
  · cases heq
  · rename_i hno
    rw [if_neg hno, heq]

/-- A supervision that trips. -/
theorem superviseComplete_of_trips {me : MotPap} {raw : UInt16} {stallDetection : Bool}
    (h : (motPapReadCorrectedPos me raw).TripsAt stallDetection) :
    motPapSuperviseComplete me raw stallDetection =
      { motPapReadCorrectedPos me raw with stalledCounter := me.stalledCounter + 1, stalled := true }.tmrStop.cont := by
  rw [superviseComplete_eq]
  rcases stallCheck_cases (motPapReadCorrectedPos me raw) stallDetection with ⟨-, heq⟩ | ⟨hno, -⟩
  · rw [heq, if_pos rfl]
    rfl
  · exact absurd h hno

/-- A supervision that does not trip: past the stall check only the counter may have changed. -/
theorem superviseComplete_of_not_trips {me : MotPap} {raw : UInt16} {stallDetection : Bool}
    (h : ¬(motPapReadCorrectedPos me raw).TripsAt stallDetection) :
    motPapSuperviseComplete me raw stallDetection =
      ({ motPapReadCorrectedPos me raw with
        stalledCounter := (motPapReadCorrectedPos me raw).countStall stallDetection } : MotPap).followed := by
  rw [superviseComplete_eq]
  rcases stallCheck_cases (motPapReadCorrectedPos me raw) stallDetection with ⟨htrip, -⟩ | ⟨-, heq⟩
  · exact absurd htrip h
  · rw [heq]
    rfl

/-- A supervision with detection off is the rest of it on the structure with its new position. -/
theorem superviseComplete_off (me : MotPap) (raw : UInt16) :
    motPapSuperviseComplete me raw false = (motPapReadCorrectedPos me raw).followed := by
  rw [superviseComplete_eq]
  rfl

/-! ## Past the stall check -/

theorem followed_of_ne_closedLoop {me : MotPap} (h : me.type ≠ .closedLoop) : me.followed = me.cont := by
  unfold MotPap.followed motPapFollow
  rw [if_neg h]

/-- At the set point the timer is stopped and the type is STOP. -/
theorem followed_reached {me : MotPap} (h : me.type = .closedLoop) (hnear : me.error.natAbs < motPapPosThreshold) :
    me.followed = { me.slowDown with alreadyThere := true, type := .stop }.tmrStop.cont := by
  unfold MotPap.followed motPapFollow
  rw [if_pos h, if_pos hnear]

/-- Past the set point the motor is turned round. -/
theorem followed_turned {me : MotPap} (h : me.type = .closedLoop) (haway : motPapPosThreshold ≤ me.error.natAbs)
    (hdir : me.dir ≠ motPapDirectionCalculate me.error) :
    me.followed = motPapSuperviseEnd me.slowDown.tmrStop (motPapDirectionCalculate me.error) := by
  unfold MotPap.followed motPapFollow
  rw [if_pos h, if_neg (Nat.not_lt.mpr haway), if_pos hdir]

/-- Short of the set point the motor goes on. -/
theorem followed_ahead {me : MotPap} (h : me.type = .closedLoop) (haway : motPapPosThreshold ≤ me.error.natAbs)
    (hdir : me.dir = motPapDirectionCalculate me.error) : me.followed = me.slowDown.cont := by
  unfold MotPap.followed motPapFollow
  rw [if_pos h, if_neg (Nat.not_lt.mpr haway), if_neg (not_not_intro hdir)]

/-- The proximity branch writes the frequency and the timer only. -/
theorem slowDown_frame (me : MotPap) :
    me.slowDown.type = me.type ∧ me.slowDown.dir = me.dir ∧ me.slowDown.posCmd = me.posCmd ∧
      me.slowDown.posAct = me.posAct ∧ me.slowDown.stalled = me.stalled ∧ me.slowDown.alreadyThere = me.alreadyThere ∧
      me.slowDown.stalledCounter = me.stalledCounter ∧ me.slowDown.rdc = me.rdc ∧ me.slowDown.offset = me.offset ∧
      me.slowDown.dirOut = me.dirOut := by
  unfold MotPap.slowDown
  split
  · exact ⟨rfl, rfl, rfl, rfl, rfl, rfl, rfl, rfl, rfl, rfl⟩
  · exact ⟨rfl, rfl, rfl, rfl, rfl, rfl, rfl, rfl, rfl, rfl⟩

/-- Past the stall check, a supervision keeps the counter, `stalled`, the converter and the offset, and notes the position. -/
theorem followed_frame (me : MotPap) :
    me.followed.stalled = me.stalled ∧ me.followed.stalledCounter = me.stalledCounter ∧ me.followed.lastPos = me.posAct ∧
      me.followed.rdc = me.rdc ∧ me.followed.offset = me.offset := by
  obtain ⟨-, -, -, hpos, hstalled, -, hcount, hrdc, hoffset, -⟩ := slowDown_frame me
  by_cases htype : me.type = .closedLoop
  · by_cases hnear : me.error.natAbs < motPapPosThreshold
    · rw [followed_reached htype hnear]
      exact ⟨hstalled, hcount, hpos, hrdc, hoffset⟩
    · by_cases hturn : me.dir = motPapDirectionCalculate me.error
      · rw [followed_ahead htype (Nat.not_lt.mp hnear) hturn]
        exact ⟨hstalled, hcount, hpos, hrdc, hoffset⟩
      · rw [followed_turned htype (Nat.not_lt.mp hnear) hturn]
        exact ⟨hstalled, hcount, hpos, hrdc, hoffset⟩
  · rw [followed_of_ne_closedLoop htype]
    exact ⟨rfl, rfl, rfl, rfl, rfl⟩

end Rtu

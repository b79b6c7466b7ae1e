import Rtu.Lemmas.Axis
import Rtu.Lemmas.Supervise
import Rtu.Runs

/-!
# When a stall is detected

An observer of the supervisor notes, for every run since the last message, whether detection was on, and the positions this run
and the one before it saw. The counter is the number of runs with detection on that have been still in a row: runs with detection
off are passed over. Positions live on a circle of 65536 counts, and are compared as numbers.
-/

namespace Rtu

open Runs

/-- A run of the supervisor: whether detection was on, the position seen by the run before it, if there was one, and its own. -/
structure SuperviseRun where
  enabled : Bool
  before : Option UInt16
  position : UInt16
  deriving DecidableEq, Repr

/-- The position the run compares with: before the first run that is 0. -/
def SuperviseRun.origin (r : SuperviseRun) : UInt16 := r.before.getD 0

/-- An axis, with the position seen by the last run of its supervisor, and the runs since the last message, newest first. -/
structure Supervised where
  me : MotPap
  last : Option UInt16
  runs : List SuperviseRun
  deriving DecidableEq, Repr

/-- An axis at boot. -/
def Supervised.init (ax : Axis) (rate : UInt32) : Supervised := { me := ax.init rate, last := none, runs := [] }

/-- What the observer notes of a run. -/
def Supervised.seen (s : Supervised) (raw : UInt16) (stallDetection : Bool) : SuperviseRun :=
  { enabled := stallDetection, before := s.last, position := s.me.correctedReading raw }

/-- One complete operation, observed. -/
def Supervised.step (s : Supervised) (op : AxisOp) : Supervised :=
  { me := op.apply s.me
    last := match op with
      | .supervise raw _ => some (s.me.correctedReading raw)
      | _ => s.last
    runs := match op with
      | .supervise raw stallDetection => s.seen raw stallDetection :: s.runs
      | .message _ _ => []
      | _ => s.runs }

/-- The distance of two positions around the circle. -/
def circleDistance (a b : UInt16) : Nat := min (a - b).toNat (b - a).toNat

/-- The shorter way from one position to the other passes zero. -/
def CrossesZero (a b : UInt16) : Prop := 32768 < ((b.toNat : Int) - a.toNat).natAbs

/-- The last forty runs with detection on, with the run that is made now, all since the last message. -/
def Supervised.window (s : Supervised) (raw : UInt16) (stallDetection : Bool) : List SuperviseRun :=
  ((s.seen raw stallDetection :: s.runs).filter (·.enabled)).take 40

/-- There are forty such runs, and each saw the position move by less than the threshold around the circle. -/
def Supervised.WindowStill (s : Supervised) (raw : UInt16) (stallDetection : Bool) : Prop :=
  (s.window raw stallDetection).length = 40 ∧
    ∀ r ∈ s.window raw stallDetection, circleDistance r.origin r.position < motPapStallThreshold

/-- The operation, if it is a supervision that finds `stalled` clear, sets it only with detection on and a still window; and with
detection on and a still window that does not cross zero, it does. -/
def Supervised.StallExact (s : Supervised) (op : AxisOp) : Prop :=
  ∀ raw stallDetection, op = .supervise raw stallDetection → s.me.stalled = false →
    ((op.apply s.me).stalled = true → stallDetection = true ∧ s.WindowStill raw stallDetection) ∧
    (stallDetection = true → s.WindowStill raw stallDetection →
      (∀ r ∈ s.window raw stallDetection, ¬CrossesZero r.origin r.position) → (op.apply s.me).stalled = true)

/-- The operation, if it is a supervision, sets `stalled` exactly when detection is on and it and the 39 runs before it, all since
the last message and each with a run before it, saw the position move by less than the threshold around the circle. -/
def Supervised.StallExactLastForty (s : Supervised) (op : AxisOp) : Prop :=
  ∀ raw stallDetection, op = .supervise raw stallDetection →
    (s.me.stalled = false ∧ (op.apply s.me).stalled = true ↔
      stallDetection = true ∧ ((s.seen raw stallDetection :: s.runs).take 40).length = 40 ∧
        ∀ r ∈ (s.seen raw stallDetection :: s.runs).take 40,
          r.before ≠ none ∧ circleDistance r.origin r.position < motPapStallThreshold)

namespace StallAux

/-! ## Positions -/

/-- The run saw the position move by less than the threshold, the positions compared as numbers. -/
def SuperviseRun.Still (r : SuperviseRun) : Prop :=
  ((r.position.toNat : Int) - r.origin.toNat).natAbs < motPapStallThreshold

instance (r : SuperviseRun) : Decidable (SuperviseRun.Still r) := inferInstanceAs (Decidable (_ < _))

/-- A small difference of two positions, as numbers, is a small distance around the circle that does not cross zero. -/
theorem still_iff (r : SuperviseRun) :
    SuperviseRun.Still r ↔ circleDistance r.origin r.position < motPapStallThreshold ∧ ¬CrossesZero r.origin r.position := by
  have ha := r.origin.toNat_lt
  have hb := r.position.toNat_lt
  have hab : (r.origin - r.position).toNat = (65536 - r.position.toNat + r.origin.toNat) % 65536 := UInt16.toNat_sub _ _
  have hba : (r.position - r.origin).toNat = (65536 - r.origin.toNat + r.position.toNat) % 65536 := UInt16.toNat_sub _ _
  unfold SuperviseRun.Still circleDistance CrossesZero motPapStallThreshold
  rw [hab, hba]
  omega

/-- The first `n` elements are there and satisfy `p`, said of the longest prefix that does. -/
theorem le_length_takeWhile_iff {α : Type} (p : α → Bool) (l : List α) (n : Nat) :
    n ≤ (l.takeWhile p).length ↔ (l.take n).length = n ∧ ∀ a ∈ l.take n, p a = true := by
  induction l generalizing n with
  | nil =>
    cases n with
    | zero => simp
    | succ n => simp
  | cons a l ih =>
    cases n with
    | zero => simp
    | succ n =>
      cases hp : p a with
      | false => simp [hp]
      | true =>
        simp only [List.takeWhile_cons, hp, if_true, List.length_cons, List.take_succ_cons, List.forall_mem_cons, true_and]
        rw [Nat.add_le_add_iff_right, Nat.add_right_cancel_iff, ih n]

/-! ## Operations -/

/-- A message clears the stall flag and the counter, and leaves the position of the last supervision. -/
theorem message_stall (me : MotPap) (msg : MotPapMsg) (raw : UInt16) :
    (axisTaskComplete me msg raw).stalled = false ∧ (axisTaskComplete me msg raw).stalledCounter = 0 ∧
      (axisTaskComplete me msg raw).lastPos = me.lastPos := by
  have htask : (axisTask me msg raw).1.stalled = false ∧ (axisTask me msg raw).1.stalledCounter = 0 ∧
      (axisTask me msg raw).1.lastPos = me.lastPos := by
    unfold axisTask motPapMoveFreeRun motPapMoveClosedLoop MotPap.moveToPosCmd
    dsimp only
    repeat' split
    all_goals exact ⟨rfl, rfl, rfl⟩
  unfold axisTaskComplete
  split
  · rename_i me' heq
    rw [heq] at htask
    exact htask
  · rename_i me' k heq
    rw [heq] at htask
    cases k <;> exact htask

/-- The interrupt leaves what the stall check reads. -/
theorem isr_stall (me : MotPap) :
    (motPapIsr me).1.stalled = me.stalled ∧ (motPapIsr me).1.stalledCounter = me.stalledCounter ∧
      (motPapIsr me).1.lastPos = me.lastPos := by
  obtain ⟨lastDir, halfPulses, hisr⟩ := isr_eq me
  rw [hisr]
  exact ⟨rfl, rfl, rfl⟩

/-! ## The counter -/

/-- How many of the newest runs with detection on have been still. -/
def stillCount (runs : List SuperviseRun) : Nat :=
  ((runs.filter (·.enabled)).takeWhile fun r => decide (SuperviseRun.Still r)).length

/-- The structure holds the position of the last run, and, while no stall is noted, a counter below forty that counts the still
runs with detection on since the last message. -/
structure Counts (s : Supervised) : Prop where
  last : s.me.lastPos = s.last.getD 0
  count : s.me.stalled = false → s.me.stalledCounter.toNat = stillCount s.runs ∧ stillCount s.runs < 40

theorem counts_init (ax : Axis) (rate : UInt32) : Counts (.init ax rate) := by
  obtain ⟨offset, heq⟩ := ax.init_eq rate
  refine ⟨?_, fun _ => ⟨?_, by simp [Supervised.init, stillCount]⟩⟩ <;> simp [Supervised.init, heq, axisInit, stillCount]

/-- A run with detection on and still is one more; one that moved starts the count again; one with detection off leaves it. -/
theorem stillCount_seen (s : Supervised) (raw : UInt16) (stallDetection : Bool) :
    stillCount (s.seen raw stallDetection :: s.runs) =
      if stallDetection then
        if SuperviseRun.Still (s.seen raw stallDetection) then stillCount s.runs + 1 else 0
      else stillCount s.runs := by
  unfold stillCount
  cases stallDetection with
  | false => simp [Supervised.seen]
  | true =>
    have henabled : (s.seen raw true).enabled = true := rfl
    rw [List.filter_cons_of_pos henabled, List.takeWhile_cons]
    by_cases hstill : SuperviseRun.Still (s.seen raw true) <;> simp [hstill]

/-- A supervision that finds no stall trips exactly when it makes the count of still runs forty. -/
theorem Counts.trips_iff {s : Supervised} (h : Counts s) (hclear : s.me.stalled = false) (raw : UInt16) (stallDetection : Bool) :
    (motPapReadCorrectedPos s.me raw).TripsAt stallDetection ↔
      stallDetection = true ∧ 40 ≤ stillCount (s.seen raw stallDetection :: s.runs) := by
  obtain ⟨hcount, hlt⟩ := h.count hclear
  have hadd : (s.me.stalledCounter + 1).toNat = (s.me.stalledCounter.toNat + 1) % 65536 := UInt16.toNat_add _ 1
  have hstill : SuperviseRun.Still (s.seen raw stallDetection) ↔
      (((motPapReadCorrectedPos s.me raw).posAct.toNat : Int) - (motPapReadCorrectedPos s.me raw).lastPos.toNat).natAbs <
        motPapStallThreshold := by
    have hlast : (motPapReadCorrectedPos s.me raw).lastPos = s.last.getD 0 := h.last
    rw [hlast]
    exact Iff.rfl
  have hforty : motPapStallMaxCount ≤ s.me.stalledCounter + 1 ↔ 40 ≤ stillCount s.runs + 1 := by
    rw [UInt16.le_iff_toNat_le, hadd, hcount]
    unfold motPapStallMaxCount
    simp only [UInt16.reduceToNat]
    omega
  unfold MotPap.TripsAt
  rw [← hstill, stillCount_seen]
  refine and_congr_right fun hsd => ?_
  rw [if_pos hsd]
  by_cases hs : SuperviseRun.Still (s.seen raw stallDetection)
  · rw [if_pos hs]
    exact ⟨fun h => hforty.mp h.2, fun h => ⟨hs, hforty.mpr h⟩⟩
  · rw [if_neg hs]
    exact ⟨fun h => absurd h.1 hs, fun h => by omega⟩

/-- A supervision sets the stall flag exactly when it trips. -/
theorem stalled_supervise {me : MotPap} (hclear : me.stalled = false) (raw : UInt16) (stallDetection : Bool) :
    (motPapSuperviseComplete me raw stallDetection).stalled = true ↔ (motPapReadCorrectedPos me raw).TripsAt stallDetection := by
  by_cases htrip : (motPapReadCorrectedPos me raw).TripsAt stallDetection
  · rw [superviseComplete_of_trips htrip]
    exact ⟨fun _ => htrip, fun _ => rfl⟩
  · rw [superviseComplete_of_not_trips htrip, (followed_frame _).1]
    constructor
    · intro h
      have hset : me.stalled = true := h
      rw [hclear] at hset
      cases hset
    · exact fun h => absurd h htrip

/-- A supervision keeps the counter right. -/
theorem Counts.supervise {s : Supervised} (h : Counts s) (raw : UInt16) (stallDetection : Bool) :
    Counts (s.step (.supervise raw stallDetection)) := by
  by_cases htrip : (motPapReadCorrectedPos s.me raw).TripsAt stallDetection
  · have heq : (s.step (.supervise raw stallDetection)).me =
        { motPapReadCorrectedPos s.me raw with
          stalledCounter := s.me.stalledCounter + 1, stalled := true }.tmrStop.cont := superviseComplete_of_trips htrip
    refine ⟨by rw [heq]; rfl, ?_⟩
    intro hclear
    rw [heq] at hclear
    cases hclear
  · obtain ⟨hstalled, hcounter, hpos, -, -⟩ := followed_frame { motPapReadCorrectedPos s.me raw with
      stalledCounter := (motPapReadCorrectedPos s.me raw).countStall stallDetection }
    have heq : (s.step (.supervise raw stallDetection)).me = _ := superviseComplete_of_not_trips htrip
    rw [← heq] at hstalled hcounter hpos
    refine ⟨hpos, ?_⟩
    intro hclear
    have hbefore : s.me.stalled = false := hstalled.symm.trans hclear
    obtain ⟨hcount, hlt⟩ := h.count hbefore
    have hadd : (s.me.stalledCounter + 1).toNat = (s.me.stalledCounter.toNat + 1) % 65536 := UInt16.toNat_add _ 1
    have hno := mt (h.trips_iff hbefore raw stallDetection).mpr htrip
    have hlast : (motPapReadCorrectedPos s.me raw).lastPos = s.last.getD 0 := h.last
    have hruns : (s.step (.supervise raw stallDetection)).runs = s.seen raw stallDetection :: s.runs := rfl
    have hcountStall : (motPapReadCorrectedPos s.me raw).countStall stallDetection =
        if stallDetection then
          if SuperviseRun.Still (s.seen raw stallDetection) then s.me.stalledCounter + 1 else 0
        else s.me.stalledCounter := by
      unfold MotPap.countStall
      rw [hlast]
      rfl
    rw [hcounter, hcountStall, hruns, stillCount_seen]
    rw [stillCount_seen] at hno
    cases stallDetection with
    | false => exact ⟨hcount, hlt⟩
    | true =>
      by_cases hstill : SuperviseRun.Still (s.seen raw true)
      · simp only [hstill, if_true, true_and] at hno ⊢
        omega
      · simp [hstill]

/-- Every operation keeps the counter right. -/
theorem Counts.step {s : Supervised} (h : Counts s) (op : AxisOp) : Counts (s.step op) := by
  cases op with
  | message msg raw =>
    obtain ⟨-, hcounter, hlast⟩ := message_stall s.me msg raw
    refine ⟨hlast.trans h.last, fun _ => ⟨?_, by simp [Supervised.step, stillCount]⟩⟩
    have hzero : (s.step (.message msg raw)).me.stalledCounter = 0 := hcounter
    rw [hzero]
    rfl
  | supervise raw stallDetection => exact h.supervise raw stallDetection
  | isr =>
    obtain ⟨hstalled, hcounter, hlast⟩ := isr_stall s.me
    refine ⟨hlast.trans h.last, fun hclear => ?_⟩
    have hcount := h.count (hstalled.symm.trans hclear)
    rw [← hcounter] at hcount
    exact hcount
  | status raw => exact ⟨h.last, h.count⟩
  | setOffset offset => exact ⟨h.last, h.count⟩

/-- Where the counter is right, a stall is detected exactly. -/
theorem Counts.exact {s : Supervised} (h : Counts s) (op : AxisOp) : s.StallExact op := by
  rintro raw stallDetection rfl hclear
  have hset : ((AxisOp.supervise raw stallDetection).apply s.me).stalled = true ↔
      stallDetection = true ∧ 40 ≤ stillCount (s.seen raw stallDetection :: s.runs) :=
    (stalled_supervise hclear raw stallDetection).trans (h.trips_iff hclear raw stallDetection)
  have hforty : 40 ≤ stillCount (s.seen raw stallDetection :: s.runs) ↔
      (s.window raw stallDetection).length = 40 ∧ ∀ r ∈ s.window raw stallDetection, SuperviseRun.Still r := by
    simpa only [decide_eq_true_eq, stillCount, Supervised.window] using
      le_length_takeWhile_iff (fun r => decide (SuperviseRun.Still r))
        ((s.seen raw stallDetection :: s.runs).filter (·.enabled)) 40
  rw [hset, hforty]
  constructor
  · rintro ⟨hsd, hlen, hstill⟩
    exact ⟨hsd, hlen, fun r hr => ((still_iff r).mp (hstill r hr)).1⟩
  · rintro hsd ⟨hlen, hnear⟩ hcross
    exact ⟨hsd, hlen, fun r hr => (still_iff r).mpr ⟨hnear r hr, hcross r hr⟩⟩

end StallAux

open StallAux

/-- Stall detection is exact over the runs with detection on. In every sequence of complete operations on an axis set up by its
`init` function, with detection on or off at each run of the supervisor and any readings: a run that finds `stalled` clear sets
it only if detection is on, and that run and the 39 runs with detection on before it, all since the last message, each saw the
position move by less than the threshold around the circle from the run before it; and if that is so, and in none of the
forty did the position cross zero, it sets it. -/
theorem stall_exact (ax : Axis) (rate : UInt32) (ops : List AxisOp) :
    Steps Supervised.step Supervised.StallExact (.init ax rate) ops := by
  intro pre op _
  exact (run_inv Counts (fun _ op h => h.step op) (counts_init ax rate) pre).exact op

set_option maxRecDepth 4000 in
/-- Two runs at the same reading with detection off, then 39 with detection on: the last run and the 39 before it were still, and
no stall is noted. -/
theorem stall_exact_last_forty_false :
    ¬∀ (ax : Axis) (rate : UInt32) (ops : List AxisOp),
      Steps Supervised.step Supervised.StallExactLastForty (.init ax rate) ops := by
  intro h
  have hlast := h .arm 204000000
    (.supervise 23305 false :: .supervise 23305 false :: List.replicate 39 (.supervise 23305 true))
    (.supervise 23305 false :: .supervise 23305 false :: List.replicate 38 (.supervise 23305 true))
    (.supervise 23305 true) (List.prefix_refl _) 23305 true rfl
  have hset := hlast.mpr (by decide)
  exact absurd hset.2 (by decide)

end Rtu

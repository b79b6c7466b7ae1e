import Rtu.Lemmas.Axis
import Rtu.Streak

/-!
# The cadence of the supervisor

`mot_pap_isr` counts the half pulses since the direction last changed and gives the semaphore of the supervisor when it has counted
`MOT_PAP_SUPERVISOR_RATE` of them. An observer notes the direction that each call finds. Between two calls the tasks of the axis go on,
the direction is changed and the timer is stopped and started: nothing but the interrupt touches the count and the direction it goes
with.
-/

namespace Rtu

open Runs Streak

/-- The tasks of an axis, and the value of `me->dir` at each call of `mot_pap_isr`, newest first. -/
structure Pulsed where
  tasks : AxisTasks
  dirs : List MotPapDirection
  deriving DecidableEq, Repr

/-- An axis at boot. -/
def Pulsed.init (ax : Axis) (rate : UInt32) : Pulsed := { tasks := .init ax rate, dirs := [] }

/-- What happens to an axis between two looks at it. -/
inductive PulsedLabel where
  /-- `mot_pap_isr` is called -/
  | isr
  /-- `me->dir` is assigned -/
  | dir (dir : MotPapDirection)
  | tmrStop
  | tmrStart
  /-- a task of the axis goes on -/
  | task (i : AxisStep)
  deriving DecidableEq, Repr

/-- One step. -/
def Pulsed.step (p : Pulsed) : PulsedLabel → Pulsed
  | .isr => { tasks := { p.tasks with me := (motPapIsr p.tasks.me).1 }, dirs := p.tasks.me.dir :: p.dirs }
  | .dir dir => { p with tasks := { p.tasks with me := { p.tasks.me with dir := dir } } }
  | .tmrStop => { p with tasks := { p.tasks with me := p.tasks.me.tmrStop } }
  | .tmrStart => { p with tasks := { p.tasks with me := p.tasks.me.tmrStart } }
  | .task i => { p with tasks := p.tasks.step i }

/-- How many calls in a row have found the same direction, with a call that were made now. -/
def Pulsed.calls (p : Pulsed) : Nat := streak (p.tasks.me.dir :: p.dirs)

namespace CadenceAux

/-- The count, and the direction it goes with. -/
def count (me : MotPap) : UInt32 × MotPapDirection := (me.halfPulses, me.lastDir)

/-- The tasks of an axis leave the count alone. -/
theorem count_axisStep (t : AxisTasks) (i : AxisStep) : count (t.step i).me = count t.me := by
  obtain ⟨-, hkept⟩ := Prod.mk.inj (untouched_axisStep t i)
  exact (Prod.mk.inj hkept).2

/-- The count is that of the calls in a row, modulo the rate, and goes with the direction of the newest. -/
structure Counts (me : MotPap) (dirs : List MotPapDirection) : Prop where
  halfPulses : me.halfPulses.toNat = streak dirs % motPapSupervisorRate.toNat
  lastDir : ∀ dir, dirs.head? = some dir → me.lastDir = dir

theorem Counts.congr {me me' : MotPap} {dirs : List MotPapDirection} (h : Counts me dirs) (hcount : count me' = count me) :
    Counts me' dirs := by
  obtain ⟨hhalf, hlast⟩ := Prod.mk.inj hcount
  refine ⟨by rw [hhalf]; exact h.halfPulses, ?_⟩
  rw [hlast]
  exact h.lastDir

/-- Past the first test of the interrupt, the count is that of the calls in a row that came before this one. -/
theorem Counts.trackDir {me : MotPap} {dirs : List MotPapDirection} (h : Counts me dirs) :
    me.trackDir.lastDir = me.dir ∧
      ∃ m, streak (me.dir :: dirs) = m + 1 ∧ me.trackDir.halfPulses.toNat = m % motPapSupervisorRate.toNat := by
  unfold MotPap.trackDir
  cases dirs with
  | nil =>
    by_cases hdir : me.dir = me.lastDir
    · rw [if_neg (not_not_intro hdir)]
      exact ⟨hdir.symm, 0, rfl, h.halfPulses⟩
    · rw [if_pos hdir]
      exact ⟨rfl, 0, rfl, rfl⟩
  | cons dir dirs =>
    have hlast : me.lastDir = dir := h.lastDir dir rfl
    by_cases hdir : me.dir = dir
    · rw [if_neg (not_not_intro (hdir.trans hlast.symm))]
      refine ⟨hlast.trans hdir.symm, streak (dir :: dirs), ?_, h.halfPulses⟩
      rw [hdir, streak_cons_self]
    · have hother : me.dir ≠ me.lastDir := fun heq => hdir (heq.trans hlast)
      rw [if_pos hother]
      exact ⟨rfl, 0, streak_cons_of_ne (fun heq => hdir heq.symm) dirs, rfl⟩

/-- One call: the count goes on, and the semaphore is given where it wraps. -/
theorem Counts.isr {me : MotPap} {dirs : List MotPapDirection} (h : Counts me dirs) :
    Counts (motPapIsr me).1 (me.dir :: dirs) ∧
      ((motPapIsr me).2 = true ↔ motPapSupervisorRate.toNat ∣ streak (me.dir :: dirs)) := by
  obtain ⟨hlast, m, hstreak, hhalf⟩ := h.trackDir
  have hrate : 0 < motPapSupervisorRate.toNat := by decide
  have hlt : me.trackDir.halfPulses.toNat < 3000 := by
    rw [hhalf]
    exact Nat.mod_lt m hrate
  have hpulse : me.trackDir.pulse.halfPulses.toNat = m % motPapSupervisorRate.toNat + 1 := by
    show (me.trackDir.halfPulses + 1).toNat = _
    rw [UInt32.toNat_add, ← hhalf]
    exact Nat.mod_eq_of_lt (show _ + 1 < 2 ^ 32 by omega)
  have hgiven : me.trackDir.pulse.halfPulses = motPapSupervisorRate ↔
      m % motPapSupervisorRate.toNat + 1 = motPapSupervisorRate.toNat := by
    rw [← UInt32.toNat_inj, hpulse]
  have hhead : ∀ (me' : MotPap) dir, me'.lastDir = me.trackDir.lastDir → (me.dir :: dirs).head? = some dir → me'.lastDir = dir := by
    intro me' dir hsame hdir
    exact (hsame.trans hlast).trans (Option.some_inj.mp hdir)
  unfold motPapIsr
  rw [hstreak]
  split
  · rename_i hreached
    rw [hgiven] at hreached
    refine ⟨⟨?_, fun dir => hhead _ dir rfl⟩, ?_⟩
    · rw [hstreak, succ_mod_of_eq hreached]
      rfl
    · exact iff_of_true rfl ((succ_mod_eq_iff hrate).mp hreached)
  · rename_i hreached
    rw [hgiven] at hreached
    refine ⟨⟨?_, fun dir => hhead _ dir rfl⟩, ?_⟩
    · rw [hstreak, succ_mod_of_ne hrate hreached]
      exact hpulse
    · exact iff_of_false (by simp) (fun hdvd => hreached ((succ_mod_eq_iff hrate).mpr hdvd))

theorem counts_init (ax : Axis) (rate : UInt32) : Counts (ax.init rate) [] := by
  obtain ⟨offset, hinit⟩ := ax.init_eq rate
  rw [hinit]
  refine ⟨rfl, ?_⟩
  intro dir h
  cases h

/-- Every step keeps the count. -/
theorem counts_step (p : Pulsed) (l : PulsedLabel) (h : Counts p.tasks.me p.dirs) :
    Counts (p.step l).tasks.me (p.step l).dirs := by
  cases l with
  | isr => exact h.isr.1
  | dir | tmrStop | tmrStart => exact h.congr rfl
  | task i => exact h.congr (count_axisStep p.tasks i)

end CadenceAux

open CadenceAux

/-- The cadence of the supervisor. In every state that an axis set up by its `init` function can reach, with `me->dir` assigned and the
timer stopped and started anywhere between the calls of `mot_pap_isr`, and with its tasks going on: a call made now leaves the count
below `MOT_PAP_SUPERVISOR_RATE`, and gives the semaphore of the supervisor if and only if the number of calls in a row that have found
the same `me->dir`, this one included, is a multiple of the rate. -/
theorem supervision_cadence (ax : Axis) (rate : UInt32) (sched : List PulsedLabel) :
    (motPapIsr (run Pulsed.step (.init ax rate) sched).tasks.me).1.halfPulses < motPapSupervisorRate ∧
      ((motPapIsr (run Pulsed.step (.init ax rate) sched).tasks.me).2 = true ↔
        3000 ∣ (run Pulsed.step (.init ax rate) sched).calls) := by
  have hcounts : Counts (run Pulsed.step (.init ax rate) sched).tasks.me (run Pulsed.step (.init ax rate) sched).dirs :=
    run_inv (fun p : Pulsed => Counts p.tasks.me p.dirs) counts_step (counts_init ax rate) sched
  obtain ⟨hnext, hgiven⟩ := hcounts.isr
  refine ⟨?_, hgiven⟩
  rw [UInt32.lt_iff_toNat_lt, hnext.halfPulses]
  exact Nat.mod_lt _ (by decide)

end Rtu

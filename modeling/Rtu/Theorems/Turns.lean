import Rtu.Theorems.Scheduler
import Rtu.Lemmas.SchedulerEvents

/-!
# Whose turn it is

The ready tasks of one priority take turns, however tasks come and go in between (`round_robin`); an event is for the task of the
highest priority that waits for it (`event_wakes_highest`), and among those of one priority for the one that came first
(`no_overtaking`). The priorities are fixed: in these runs none is inherited through a mutex or given back.
-/

namespace Rtu

open Rosters SchedulerAux

variable {τ ε : Type} [DecidableEq τ] [DecidableEq ε] {S : TaskSet τ} {v : TaskItem τ → Nat}

/-- What a task that stays ready meets in a run, where at most `N` tasks of its priority are ready at a time: no task of a lower
priority is chosen; until it is chosen itself, others of its priority are chosen `2 * (N - 1)` times at most; and a tick that finds one
of them running asks for a switch. -/
structure TakesTurns (S : TaskSet τ) (N : Nat) (t : τ) (k : Scheduler τ ε) (es : List (KernelEvent τ ε)) : Prop where
  highest : ∀ u ∈ Runs.trace (Scheduler.step S) (Scheduler.chooses S) k es, S.uxPriority t ≤ S.uxPriority u
  turns : t ∉ Runs.trace (Scheduler.step S) (Scheduler.chooses S) k es →
    ((Runs.trace (Scheduler.step S) (Scheduler.chooses S) k es).filter fun u => S.uxPriority u = S.uxPriority t).length ≤ 2 * (N - 1)
  slices : Runs.Steps (Scheduler.step S) (fun k e => e = .sysTick → k.uxSchedulerSuspended = 0 →
    Scheduler.Ready S (k.step S e) (k.step S e).pxCurrentTCB → t ≠ (k.step S e).pxCurrentTCB →
      S.uxPriority t = S.uxPriority (k.step S e).pxCurrentTCB → (k.step S e).pendSV = true) k es

theorem round_robin (hvalue : ∀ i, v i ≤ portMAX_DELAY) {tasks : List τ} (hnodup : (tasks ++ [S.xIdleTask, S.xTimerTask]).Nodup)
    (es₀ : List (KernelEvent τ ε)) {t : τ} {N : Nat} (es : List (KernelEvent τ ε))
    (hready : Runs.Always (Scheduler.step S)
      (fun k => Scheduler.Ready S k t ∧ (k.lists.items (Scheduler.readyList S t)).length ≤ N) (Scheduler.run S v tasks es₀) es) :
    TakesTurns S N t (Scheduler.run S v tasks es₀) es := by
  have h : Scheduler.Steady S v (Scheduler.run S v tasks es₀) := Scheduler.steady_run hvalue hnodup es₀
  generalize Scheduler.run S v tasks es₀ = k at *
  obtain ⟨ht, hlength⟩ := hready [] List.nil_prefix
  have hmem := Scheduler.mem_readyList h.sound ht
  obtain ⟨n, rfl⟩ : ∃ n, N = n + 1 :=
    Nat.exists_eq_succ_of_ne_zero (Nat.ne_of_gt (Nat.lt_of_lt_of_le (List.length_pos_of_mem hmem) hlength))
  obtain ⟨hhighest, hturns⟩ := Scheduler.wait_run h hready
  refine ⟨hhighest, fun hnot => ?_, ?_⟩
  · exact Nat.le_trans (hturns hnot) (Roster.wait_le hmem hlength)
  · rintro pre e hpre rfl hsuspended hcurrent hne hprio
    have hsteady := Runs.run_inv (Scheduler.Steady S v) (fun _ e h => h.step e) h pre
    have ht' : Scheduler.Ready S (Runs.run (Scheduler.step S) k (pre ++ [.sysTick])) t := (hready _ hpre).1
    rw [Runs.run_snoc] at ht'
    exact Scheduler.pendSV_of_sysTick hsteady hsuspended ht' hcurrent hne hprio

/-- The third task comes in front of the first, which is still the one with the index on it: two others are chosen before the first,
although only two tasks are ready at a time. -/
theorem round_robin_sample :
    Runs.trace (Scheduler.step sampleTurns) (Scheduler.chooses sampleTurns)
        (Scheduler.run sampleTurns (fun _ => 7) [1, 2, 3] samplePast) sampleStretch = [2, 3] ∧
      TakesTurns sampleTurns 2 1 (Scheduler.run sampleTurns (fun _ => 7) [1, 2, 3] samplePast) sampleStretch :=
  ⟨by decide +kernel, round_robin (fun _ => by decide) (by decide) samplePast sampleStretch (by
    simp only [sampleStretch, Runs.always_cons, Runs.always_nil, Scheduler.Ready]
    decide +kernel)⟩

/-- The lists of the tasks that wait for an event are those of `QueueTasks`: a task comes into its list by `vListInsert` there, and an
event takes the first one out. -/
theorem event_lists_as_queued (hvalue : ∀ i, v i ≤ portMAX_DELAY) {tasks : List τ}
    (hnodup : (tasks ++ [S.xIdleTask, S.xTimerTask]).Nodup) (es : List (KernelEvent τ ε)) (e : ε) :
    (∀ n, (Scheduler.run S v tasks es).running = .placing e n → (Scheduler.run S v tasks es).pendSV = false →
        ((Scheduler.run S v tasks es).step S .proceed).waitersOf e = vListInsert (fun t => S.uxPriority t)
          (Scheduler.run S v tasks es).pxCurrentTCB ((Scheduler.run S v tasks es).waitersOf e)) ∧
      ∀ yield, ((Scheduler.run S v tasks es).step S (.event e yield)).waitersOf e =
        ((Scheduler.run S v tasks es).waitersOf e).tail := by
  have h : Scheduler.Steady S v (Scheduler.run S v tasks es) := Scheduler.steady_run hvalue hnodup es
  have hk := Scheduler.prioritised_run hvalue hnodup es
  generalize Scheduler.run S v tasks es = k at *
  refine ⟨fun n hplacing hpendSV => ?_, Scheduler.waitersOf_event h.sound e⟩
  have hfits := h.fits
  have hready : Scheduler.Ready S k k.pxCurrentTCB := by
    by_contra hnot
    rw [hplacing] at hfits
    rcases h.leaves hnot with hresuming | ⟨hzero, -⟩
    · cases hplacing.symm.trans hresuming
    · rw [hzero] at hfits
      exact absurd hfits.1 (by decide)
  rw [← Scheduler.waitersOf_vTaskPlaceOnEventList h.sound hk hready e n]
  simp only [Scheduler.step, hpendSV, if_true, Scheduler.proceed, hplacing]
  rfl

/-- What an event does: nobody waits for it and nothing happens; or it wakes a task of the highest priority of those that wait, at
once or when the scheduler is resumed, and no other task moves. -/
inductive EventWakes (S : TaskSet τ) (l : ε) (yield : Bool) (k : Scheduler τ ε) : Prop
  | nobody (hnobody : ∀ u, k.event u ≠ some (.eventList l)) (hsame : k.step S (.event l yield) = k)
  | wakes (t : τ) (hwaits : k.event t = some (.eventList l))
      (hhighest : ∀ u, k.event u = some (.eventList l) → S.uxPriority u ≤ S.uxPriority t)
      (hready : k.uxSchedulerSuspended = 0 →
        Scheduler.Ready S (k.step S (.event l yield)) t ∧ (k.step S (.event l yield)).event t = none)
      (hpending : k.uxSchedulerSuspended ≠ 0 → (k.step S (.event l yield)).event t = some .xPendingReadyList)
      (hothers : ∀ u, u ≠ t →
        (k.step S (.event l yield)).state u = k.state u ∧ (k.step S (.event l yield)).event u = k.event u)

theorem event_wakes_highest (hvalue : ∀ i, v i ≤ portMAX_DELAY) {tasks : List τ}
    (hnodup : (tasks ++ [S.xIdleTask, S.xTimerTask]).Nodup) (es : List (KernelEvent τ ε)) (l : ε) (yield : Bool) :
    EventWakes S l yield (Scheduler.run S v tasks es) := by
  have h : Scheduler.Steady S v (Scheduler.run S v tasks es) := Scheduler.steady_run hvalue hnodup es
  have hwaiters := (Scheduler.prioritised_run hvalue hnodup es).waiters h.sound l
  generalize Scheduler.run S v tasks es = k at *
  rcases Scheduler.step_event h.sound l yield with ⟨hnobody, hsame⟩ | ⟨t, k₁, y, p, hhead, -, hmoved, -, hstep⟩
  · exact .nobody hnobody hsame
  · have hhighest : ∀ u, k.event u = some (.eventList l) → S.uxPriority u ≤ S.uxPriority t := by
      intro u hu
      have hmem := (h.sound.coherent.member _ _).mp hu
      obtain ⟨rest, hitems⟩ := List.head?_eq_some_iff.mp hhead
      rw [hitems] at hmem hwaiters
      rcases List.mem_cons.mp hmem with hsame | hbehind
      · obtain rfl := TaskItem.xEventListItem.inj hsame
        exact Fin.le_refl _
      · exact (List.pairwise_cons.mp hwaiters).1 _ hbehind
    refine .wakes t (h.sound.event_of_head hhead) hhighest ?_ ?_ ?_
    · intro hsuspended
      rcases hmoved with ⟨-, hwoke⟩ | ⟨hnonzero, -⟩
      · rw [hstep]
        exact ⟨hwoke.ready t rfl, hwoke.noEvent t rfl⟩
      · exact absurd hsuspended hnonzero
    · intro hsuspended
      rcases hmoved with ⟨hzero, -⟩ | ⟨-, hnoted⟩
      · exact absurd hzero hsuspended
      · rw [hstep]
        exact hnoted.event_self
    · intro u hu
      rw [hstep]
      rcases hmoved with ⟨-, hwoke⟩ | ⟨-, hnoted⟩
      · exact ⟨hwoke.state u hu, hwoke.event u hu⟩
      · exact ⟨hnoted.state u, hnoted.event_others hu⟩

/-- Two tasks wait for the event, and the one of the higher priority came last. -/
theorem event_wakes_highest_sample :
    (Scheduler.run sampleRanks (fun _ => 7) [1, 2] sampleWaits).event 1 = some (.eventList 0) ∧
      (Scheduler.run sampleRanks (fun _ => 7) [1, 2] sampleWaits).event 2 = some (.eventList 0) ∧
      EventWakes sampleRanks 0 true (Scheduler.run sampleRanks (fun _ => 7) [1, 2] sampleWaits) :=
  ⟨by decide +kernel, by decide +kernel, event_wakes_highest (fun _ => by decide) (by decide) sampleWaits 0 true⟩

/-- While a task waits for an event, another stays behind it in the list, and no event is for that one. -/
structure StaysBehind (S : TaskSet τ) (l : ε) (t u : τ) (k : Scheduler τ ε) : Prop where
  behind : k.event u = some (.eventList l) →
    [TaskItem.xEventListItem t, .xEventListItem u].Sublist (k.lists.items (.eventList l))
  passed_over : ∀ yield, (k.step S (.event l yield)).event u = k.event u

theorem no_overtaking (hvalue : ∀ i, v i ≤ portMAX_DELAY) {tasks : List τ} (hnodup : (tasks ++ [S.xIdleTask, S.xTimerTask]).Nodup)
    (es₀ : List (KernelEvent τ ε)) {l : ε} {t u : τ} (hmade : u ∈ (Scheduler.run S v tasks es₀).tasks)
    (hprio : S.uxPriority u ≤ S.uxPriority t) (hlater : (Scheduler.run S v tasks es₀).event u ≠ some (.eventList l))
    (es : List (KernelEvent τ ε))
    (hwaits : Runs.Always (Scheduler.step S) (fun k => k.event t = some (.eventList l)) (Scheduler.run S v tasks es₀) es) :
    Runs.Always (Scheduler.step S) (StaysBehind S l t u) (Scheduler.run S v tasks es₀) es := by
  have h : Scheduler.Steady S v (Scheduler.run S v tasks es₀) := Scheduler.steady_run hvalue hnodup es₀
  have hk := Scheduler.prioritised_run hvalue hnodup es₀
  generalize Scheduler.run S v tasks es₀ = k₀ at *
  have hne : t ≠ u := by
    rintro rfl
    exact hlater (hwaits [] List.nil_prefix)
  have hbehind := Scheduler.behind_run h hk ((h.sound.made u).mp hmade) hprio (fun hin => absurd hin hlater) hwaits
  intro pre hpre
  have hsteady := Runs.run_inv (Scheduler.Steady S v) (fun _ e h => h.step e) h pre
  have hlist := hbehind pre hpre
  generalize Runs.run (Scheduler.step S) k₀ pre = k at *
  refine ⟨hlist, fun yield => ?_⟩
  rcases Scheduler.step_event hsteady.sound l yield with ⟨-, hsame⟩ | ⟨w, k₁, y, p, hhead, -, hmoved, -, hstep⟩
  · rw [hsame]
  · have hw : u ≠ w := by
      rintro rfl
      exact Scheduler.head_ne_of_behind hsteady.sound hne hlist hhead
    rw [hstep]
    rcases hmoved with ⟨-, hwoke⟩ | ⟨-, hnoted⟩
    · exact hwoke.event u hw
    · exact hnoted.event_others hw

/-- The second task comes to wait for the event that the first one waits for. -/
theorem no_overtaking_sample :
    Runs.Always (Scheduler.step sampleTasks) (StaysBehind sampleTasks 0 1 2)
      (Scheduler.run sampleTasks (fun _ => 7) [1, 2] (sampleRun.take 11))
      [.wait 0 9, .proceed, .proceed, .proceed, .pendSV, .sysTick] :=
  no_overtaking (fun _ => by decide) (by decide) (sampleRun.take 11) (by decide +kernel) (by decide) (by decide +kernel) _ (by
    simp only [Runs.always_cons, Runs.always_nil]
    decide +kernel)

end Rtu

import Rtu.Lemmas.SchedulerWaits
import Rtu.Lemmas.ListMemory

/-!
# What the scheduler promises

The pointers of `list.c` mean the rosters over every run of legal calls (`list_calls_refine`), and every call of the scheduler is
legal, so that no `configASSERT` of it fails (`scheduler_on_list_memory`). Every task is in one list of states, and the lists say
the truth about the ready tasks and the times to wake (`tasks_in_their_lists`). Where no switch is on its way, a ready task of the
highest priority runs (`highest_priority_runs`). All this is about tasks of fixed priorities: in these runs none is inherited through
a mutex.
-/

namespace Rtu

open Rosters

namespace SchedulerAux

/-- Two tasks of one priority, the idle task and the timer task. -/
def sampleTasks : TaskSet (Fin 4) where
  uxPriority := fun t => if t = 0 then 0 else if t = 3 then 4 else 2
  xIdleTask := 0
  xTimerTask := 3
  idle_lowest := rfl
  timer_priority := rfl

/-- Memory that holds anything. -/
def sampleMemory : ListMemory (TaskItem (Fin 4)) (TaskList (Fin 2)) where
  nodes := fun _ => ⟨7, .xListEnd .xPendingReadyList, .xListEnd .xPendingReadyList, some .xSuspendedTaskList⟩
  lists := fun _ => ⟨9, .xListEnd .xSuspendedTaskList⟩

def sampleItems : List (TaskItem (Fin 4)) :=
  [.xStateListItem 0, .xStateListItem 1, .xStateListItem 2, .xStateListItem 3, .xEventListItem 0, .xEventListItem 1,
    .xEventListItem 2, .xEventListItem 3]

def sampleLists : List (TaskList (Fin 2)) :=
  [.pxReadyTasksLists 0, .pxReadyTasksLists 1, .pxReadyTasksLists 2, .pxReadyTasksLists 3, .pxReadyTasksLists 4,
    .xDelayedTaskList1, .xDelayedTaskList2, .xPendingReadyList, .xSuspendedTaskList, .eventList 0, .eventList 1]

theorem mem_sampleItems (i : TaskItem (Fin 4)) : i ∈ sampleItems := by
  cases i with
  | xStateListItem t =>
    revert t
    decide
  | xEventListItem t =>
    revert t
    decide

theorem mem_sampleLists (l : TaskList (Fin 2)) : l ∈ sampleLists := by
  cases l with
  | pxReadyTasksLists p =>
    revert p
    decide
  | eventList e =>
    revert e
    decide
  | _ => decide

/-- The timer task waits at its queue for ever. -/
def sampleStart : List (KernelEvent (Fin 4) (Fin 2)) := [.wait 1 portMAX_DELAY, .proceed, .proceed, .proceed, .pendSV]

/-- Then the first task waits for an event with a time limit and the second is chosen; the event comes. -/
def sampleRun : List (KernelEvent (Fin 4) (Fin 2)) :=
  sampleStart ++ [.wait 0 5, .sysTick, .proceed, .proceed, .proceed, .pendSV, .sysTick, .event 0 true]

/-- Three tasks of one priority, the idle task and the timer task. -/
def sampleTurns : TaskSet (Fin 5) where
  uxPriority := fun t => if t = 0 then 0 else if t = 4 then 4 else 2
  xIdleTask := 0
  xTimerTask := 4
  idle_lowest := rfl
  timer_priority := rfl

/-- The three have run in turn, the third is asleep, and the first runs again. -/
def samplePast : List (KernelEvent (Fin 5) (Fin 2)) :=
  [.wait 1 portMAX_DELAY, .proceed, .proceed, .proceed, .pendSV, .sysTick, .pendSV, .sysTick, .pendSV, .vTaskDelay 3, .proceed,
    .proceed, .proceed, .pendSV]

/-- The second is chosen and goes to sleep, and the third wakes. -/
def sampleStretch : List (KernelEvent (Fin 5) (Fin 2)) :=
  [.sysTick, .pendSV, .vTaskDelay 9, .proceed, .sysTick, .sysTick, .proceed, .proceed, .pendSV]

/-- Two tasks of different priorities, the idle task and the timer task. -/
def sampleRanks : TaskSet (Fin 4) where
  uxPriority := fun t => if t = 0 then 0 else if t = 1 then 1 else if t = 2 then 3 else 4
  xIdleTask := 0
  xTimerTask := 3
  idle_lowest := rfl
  timer_priority := rfl

/-- The task of the lower priority waits for an event while the other sleeps, and then that one waits for it too. -/
def sampleWaits : List (KernelEvent (Fin 4) (Fin 2)) :=
  sampleStart ++ [.vTaskDelay 2, .proceed, .proceed, .proceed, .pendSV, .wait 0 9, .proceed, .proceed, .proceed, .pendSV, .sysTick,
    .sysTick, .pendSV, .wait 0 9, .proceed, .proceed, .proceed, .pendSV]

end SchedulerAux

open SchedulerAux

/-- The memory of the lists over a run of calls: every function comes to its end and gives back what the rosters say. -/
theorem list_calls_refine {ι κ : Type} [DecidableEq ι] [DecidableEq κ] {m : ListMemory ι κ} {lists : List κ} {items : List ι}
    (hlists : ∀ l, l ∈ lists) (hitems : ∀ i, i ∈ items) (hvalue : ∀ i, (m.nodes (.item i)).xItemValue ≤ portMAX_DELAY)
    {cs : List (ListCall ι κ)} (hlegal : (KernelLists.initial fun i => (m.nodes (.item i)).xItemValue).LegalCalls cs) :
    ∃ m', (m.initialise lists items).calls cs =
        some (m', (KernelLists.initial fun i => (m.nodes (.item i)).xItemValue).replies cs) ∧
      Represents m' ((KernelLists.initial fun i => (m.nodes (.item i)).xItemValue).calls cs) :=
  (represents_initialise hlists hitems hvalue).calls hlegal

/-- Three items in one list, of which the one with the index is taken out. -/
theorem list_calls_refine_sample :
    ∃ m', (sampleMemory.initialise sampleLists sampleItems).calls
        [.insertEnd .xPendingReadyList (.xStateListItem 0), .insert .xPendingReadyList (.xStateListItem 1),
          .next .xPendingReadyList, .next .xPendingReadyList, .insertEnd .xPendingReadyList (.xEventListItem 2),
          .remove (.xStateListItem 1), .next .xPendingReadyList] =
        some (m', [.none, .none, .owner (.item (.xStateListItem 0)), .owner (.item (.xStateListItem 1)), .none, .count 2,
          .owner (.item (.xStateListItem 0))]) ∧
      Represents m' ((KernelLists.initial fun _ => 7).calls
        [.insertEnd .xPendingReadyList (.xStateListItem 0), .insert .xPendingReadyList (.xStateListItem 1),
          .next .xPendingReadyList, .next .xPendingReadyList, .insertEnd .xPendingReadyList (.xEventListItem 2),
          .remove (.xStateListItem 1), .next .xPendingReadyList]) :=
  list_calls_refine (m := sampleMemory) mem_sampleLists mem_sampleItems (fun _ => show 7 ≤ portMAX_DELAY by decide) (by decide)

/-- The scheduler with its lists in a memory that has been made ready: no `configASSERT` fails, and after each of its calls of `list.c`
the memory holds the lists that it takes it for, whatever it reads of them. -/
structure OnListMemory {τ ε : Type} [DecidableEq τ] [DecidableEq ε] (m₀ : ListMemory (TaskItem τ) (TaskList ε))
    (v : TaskItem τ → Nat) (k : Scheduler τ ε) : Prop where
  asserted : k.vAssertCalled = false
  lists : k.lists = (KernelLists.initial v).calls k.listCalls
  calls : ∀ cs, cs <+: k.listCalls → ∃ m, m₀.calls cs = some (m, (KernelLists.initial v).replies cs) ∧
    Represents m ((KernelLists.initial v).calls cs) ∧ ReadsAs m ((KernelLists.initial v).calls cs)

theorem scheduler_on_list_memory {τ ε : Type} [DecidableEq τ] [DecidableEq ε] {S : TaskSet τ}
    {m : ListMemory (TaskItem τ) (TaskList ε)} {lists : List (TaskList ε)} {items : List (TaskItem τ)} (hlists : ∀ l, l ∈ lists)
    (hitems : ∀ i, i ∈ items) (hvalue : ∀ i, (m.nodes (.item i)).xItemValue ≤ portMAX_DELAY) {tasks : List τ}
    (hnodup : (tasks ++ [S.xIdleTask, S.xTimerTask]).Nodup) (es : List (KernelEvent τ ε)) :
    OnListMemory (m.initialise lists items) (fun i => (m.nodes (.item i)).xItemValue)
      (Scheduler.run S (fun i => (m.nodes (.item i)).xItemValue) tasks es) := by
  have hsteady := Scheduler.steady_run (S := S) (v := fun i => (m.nodes (.item i)).xItemValue) hvalue hnodup es
  have hlogged := hsteady.sound.logged
  refine ⟨hsteady.asserted, hlogged.lists, ?_⟩
  rintro cs ⟨rest, hrest⟩
  have hlegal := hlogged.legal
  rw [← hrest] at hlegal
  obtain ⟨m', hcalls, hrepresents⟩ :=
    (represents_initialise hlists hitems hvalue).calls (KernelLists.eachCall_append.mp hlegal).1
  exact ⟨m', hcalls, hrepresents, hrepresents.reads⟩

theorem scheduler_on_list_memory_sample :
    (Scheduler.run sampleTasks (fun _ => 7) [1, 2] sampleRun).pxCurrentTCB = 2 ∧
      OnListMemory (sampleMemory.initialise sampleLists sampleItems) (fun _ => 7)
        (Scheduler.run sampleTasks (fun _ => 7) [1, 2] sampleRun) :=
  ⟨by decide +kernel, scheduler_on_list_memory (m := sampleMemory) mem_sampleLists mem_sampleItems (fun _ => show 7 ≤ portMAX_DELAY by decide)
    (by decide) sampleRun⟩

/-- Where the tasks of fixed priorities are: each that was made is in one list of states, it is in an event list only while it is not
ready, the bits of the ready priorities are those of the ready tasks, and the delayed lists are in the order of the times to wake,
one for those before the tick count wraps and one for those behind. -/
structure InTheirLists {τ ε : Type} (S : TaskSet τ) (k : Scheduler τ ε) : Prop where
  made : ∀ t, t ∈ k.tasks ↔ ∃ l, k.state t = some l
  member : ∀ i l, k.lists.container i = some l ↔ i ∈ k.lists.items l
  once : ∀ l, (k.lists.items l).Nodup
  states : ∀ t l, k.state t = some l →
    l = Scheduler.readyList S t ∨ l = k.pxDelayedTaskList ∨ l = k.pxOverflowDelayedTaskList ∨ l = .xSuspendedTaskList
  events : ∀ t l, k.event t = some l → (l = .xPendingReadyList ∨ ∃ e, l = .eventList e) ∧ ¬Scheduler.Ready S k t
  top : ∀ p, k.uxTopReadyPriority.getLsbD p = true ↔ ∃ t, Scheduler.Ready S k t ∧ S.uxPriority t = p
  due : ∀ t, k.state t = some k.pxDelayedTaskList → k.xTickCount < k.wakeTime t ∧ k.xNextTaskUnblockTime ≤ k.wakeTime t
  later : ∀ t, k.state t = some k.pxOverflowDelayedTaskList → k.wakeTime t < k.xTickCount
  ordered : (k.lists.items k.pxDelayedTaskList).Pairwise fun i j => k.lists.value i ≤ k.lists.value j
  ordered_later : (k.lists.items k.pxOverflowDelayedTaskList).Pairwise fun i j => k.lists.value i ≤ k.lists.value j

theorem tasks_in_their_lists {τ ε : Type} [DecidableEq τ] [DecidableEq ε] {S : TaskSet τ} {v : TaskItem τ → Nat}
    (hvalue : ∀ i, v i ≤ portMAX_DELAY) {tasks : List τ} (hnodup : (tasks ++ [S.xIdleTask, S.xTimerTask]).Nodup)
    (es : List (KernelEvent τ ε)) : InTheirLists S (Scheduler.run S v tasks es) := by
  have h : Scheduler.Steady S v (Scheduler.run S v tasks es) := Scheduler.steady_run hvalue hnodup es
  generalize Scheduler.run S v tasks es = k at h
  refine ⟨?_, h.sound.coherent.member, h.sound.coherent.nodup, h.sound.places, ?_, ?_, fun t ht => ⟨h.waiting t ht, h.sound.next t ht⟩,
    h.sound.later, h.sound.ordered, h.sound.ordered_later⟩
  · intro t
    rw [h.sound.made, Option.ne_none_iff_exists']
  · intro t l hl
    refine ⟨(h.sound.events t l hl).1, fun hready => ?_⟩
    rw [h.sound.event_of_ready hready] at hl
    cases hl
  · intro p
    by_cases hp : p < configMAX_PRIORITIES
    · rw [h.sound.top ⟨p, hp⟩]
      constructor
      · rintro ⟨t, ht⟩
        have hprio := h.sound.priority_of_ready ht
        refine ⟨t, ?_, by rw [hprio]⟩
        rw [Scheduler.Ready, Scheduler.readyList, hprio, ht]
      · rintro ⟨t, ht, rfl⟩
        exact ⟨t, ht⟩
    · refine iff_of_false ?_ ?_
      · rw [h.sound.top_high p (Nat.le_of_not_lt hp)]
        decide
      · rintro ⟨t, -, rfl⟩
        exact hp (S.uxPriority t).isLt

theorem tasks_in_their_lists_sample :
    (Scheduler.run sampleTasks (fun _ => 7) [1, 2] (sampleRun.take 10)).state 1 = some .xDelayedTaskList1 ∧
      (Scheduler.run sampleTasks (fun _ => 7) [1, 2] (sampleRun.take 10)).event 1 = some (.eventList 0) ∧
      InTheirLists sampleTasks (Scheduler.run sampleTasks (fun _ => 7) [1, 2] (sampleRun.take 10)) :=
  ⟨by decide +kernel, by decide +kernel, tasks_in_their_lists (fun _ => by decide) (by decide) _⟩

/-- The running task is ready, and no ready task has a higher priority. -/
def RunsHighest {τ ε : Type} (S : TaskSet τ) (k : Scheduler τ ε) : Prop :=
  Scheduler.Ready S k k.pxCurrentTCB ∧ ∀ t, Scheduler.Ready S k t → S.uxPriority t ≤ S.uxPriority k.pxCurrentTCB

/-- Among tasks of fixed priorities, one of the highest priority runs unless the scheduler is suspended, a switch is pending, or the
running task is about to ask for one; and the switch chooses such a task. -/
theorem highest_priority_runs {τ ε : Type} [DecidableEq τ] [DecidableEq ε] {S : TaskSet τ} {v : TaskItem τ → Nat}
    (hvalue : ∀ i, v i ≤ portMAX_DELAY) {tasks : List τ} (hnodup : (tasks ++ [S.xIdleTask, S.xTimerTask]).Nodup)
    (es : List (KernelEvent τ ε)) (hsuspended : (Scheduler.run S v tasks es).uxSchedulerSuspended = 0) :
    ((Scheduler.run S v tasks es).xYieldPending = false → (Scheduler.run S v tasks es).pendSV = false →
        (Scheduler.run S v tasks es).running ≠ .yielding → RunsHighest S (Scheduler.run S v tasks es)) ∧
      ((Scheduler.run S v tasks es).pendSV = true → RunsHighest S ((Scheduler.run S v tasks es).step S .pendSV)) := by
  have h : Scheduler.Steady S v (Scheduler.run S v tasks es) := Scheduler.steady_run hvalue hnodup es
  generalize Scheduler.run S v tasks es = k at h hsuspended
  constructor
  · intro hyield hpendSV hrunning
    constructor
    · by_contra hnot
      rcases h.leaves hnot with hresuming | ⟨-, hout⟩
      · have hfits := h.fits
        rw [hresuming, hsuspended] at hfits
        exact absurd hfits.symm Nat.one_ne_zero
      · rcases hout with hyielding | hset
        · exact hrunning hyielding
        · rw [hpendSV] at hset
          cases hset
    · intro t ht
      by_contra hlower
      rcases h.highest t ht (Fin.not_le.mp hlower) with hset | hset
      · rw [hyield] at hset
        cases hset
      · rw [hpendSV] at hset
        cases hset
  · intro hpendSV
    rcases Scheduler.step_pendSV h with ⟨hclear, -⟩ | ⟨hnonzero, -⟩ | ⟨-, u, hu, hstep⟩
    · rw [hpendSV] at hclear
      cases hclear
    · exact absurd hsuspended hnonzero
    · rw [hstep]
      exact ⟨hu.ready, hu.highest⟩

/-- A state in which the second task runs, and the one before it in which the first has asked for the switch. -/
theorem highest_priority_runs_sample :
    RunsHighest sampleTasks (Scheduler.run sampleTasks (fun _ => 7) [1, 2] sampleRun) ∧
      (Scheduler.run sampleTasks (fun _ => 7) [1, 2] (sampleRun.take 10)).pendSV = true ∧
      RunsHighest sampleTasks ((Scheduler.run sampleTasks (fun _ => 7) [1, 2] (sampleRun.take 10)).step sampleTasks .pendSV) :=
  ⟨(highest_priority_runs (fun _ => by decide) (by decide) sampleRun (by decide +kernel)).1 (by decide +kernel) (by decide +kernel)
      (by decide +kernel),
    by decide +kernel,
    (highest_priority_runs (fun _ => by decide) (by decide) (sampleRun.take 10) (by decide +kernel)).2 (by decide +kernel)⟩

end Rtu

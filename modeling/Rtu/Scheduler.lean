import Rtu.KernelLists
import Rtu.Runs

/-!
# The scheduler

`tasks.c`, as far as it decides when a task runs: which list a task is in, the tick with its delayed tasks, the events that tasks
wait for, and the choice of the next task. A task calls `vTaskDelay`, or waits on an event list as `xQueueGenericSend` and
`xQueueReceive` do, or suspends the scheduler for a while as `pvPortMalloc` does; interrupts come in between. A step is what happens
with the interrupts masked or without a look at anything an interrupt changes.

The lists are those of `list.c` by what they mean, and every call is kept in `listCalls`.

The priority of a task is fixed: the runs here are those in which no task inherits a priority or gives one back. No task asks for a
mutex that one of a lower priority holds, so that `xTaskPriorityInherit` and `xTaskPriorityDisinherit` change no priority. No task is
deleted or suspended.
-/

namespace Rtu

open Rosters

abbrev configMAX_PRIORITIES : Nat := 5

abbrev configTIMER_TASK_PRIORITY : Nat := configMAX_PRIORITIES - 1

/-- The two items of a task. -/
inductive TaskItem (τ : Type)
  | xStateListItem (t : τ)
  | xEventListItem (t : τ)
deriving DecidableEq, Repr

/-- `pvOwner`. -/
def TaskItem.pvOwner {τ : Type} : TaskItem τ → τ
  | .xStateListItem t => t
  | .xEventListItem t => t

/-- The lists of the scheduler and the event lists of the queues. -/
inductive TaskList (ε : Type)
  | pxReadyTasksLists (uxPriority : Fin configMAX_PRIORITIES)
  | xDelayedTaskList1
  | xDelayedTaskList2
  | xPendingReadyList
  | xSuspendedTaskList
  | eventList (e : ε)
deriving DecidableEq, Repr

/-- The tasks and their priorities, which are fixed: no task inherits one through a mutex. The idle task has the lowest,
`tskIDLE_PRIORITY`, and never waits; the task of the software timers has the highest. -/
structure TaskSet (τ : Type) where
  uxPriority : τ → Fin configMAX_PRIORITIES
  xIdleTask : τ
  xTimerTask : τ
  idle_lowest : uxPriority xIdleTask = 0
  timer_priority : uxPriority xTimerTask = configTIMER_TASK_PRIORITY

/-- The call that a task is in, and what it does there next. -/
inductive TaskCall (ε : Type)
  /-- none -/
  | none
  /-- `vTaskDelay`, with the scheduler suspended: `prvAddCurrentTaskToDelayedList` -/
  | delaying (xTicksToDelay : Nat)
  /-- a send or a receive at a queue, with the scheduler suspended: `vTaskPlaceOnEventList` -/
  | placing (e : ε) (xTicksToWait : Nat)
  /-- `xTaskResumeAll` -/
  | resuming
  /-- `portYIELD_WITHIN_API` -/
  | yielding
deriving DecidableEq, Repr

/-- The file scope data of `tasks.c`. -/
structure Scheduler (τ ε : Type) where
  lists : KernelLists (TaskItem τ) (TaskList ε)
  pxDelayedTaskList : TaskList ε
  pxOverflowDelayedTaskList : TaskList ε
  pxCurrentTCB : τ
  xTickCount : Nat
  /-- counts on without a bound: its 32 bits last for 2 ^ 63 ticks -/
  xNumOfOverflows : Nat
  xNextTaskUnblockTime : Nat
  uxTopReadyPriority : BitVec 32
  uxPendedTicks : Nat
  uxSchedulerSuspended : Nat
  xYieldPending : Bool
  /-- the bit `portNVIC_PENDSVSET_BIT` -/
  pendSV : Bool
  /-- a `configASSERT` has failed -/
  vAssertCalled : Bool
  /-- what every task is doing -/
  doing : τ → TaskCall ε
  /-- the tasks that were made, `uxCurrentNumberOfTasks` of them -/
  tasks : List τ
  listCalls : List (ListCall (TaskItem τ) (TaskList ε))

def portRECORD_READY_PRIORITY (uxPriority : Nat) (uxReadyPriorities : BitVec 32) : BitVec 32 :=
  uxReadyPriorities ||| (1#32 <<< uxPriority)

def portRESET_READY_PRIORITY (uxPriority : Nat) (uxReadyPriorities : BitVec 32) : BitVec 32 :=
  uxReadyPriorities &&& ~~~(1#32 <<< uxPriority)

/-- `31UL - ucPortCountLeadingZeros`, in 32 bits. -/
def portGET_HIGHEST_PRIORITY (uxReadyPriorities : BitVec 32) : Nat := (31#32 - uxReadyPriorities.clz).toNat

/-- `TickType_t` counts up to `portMAX_DELAY` and goes on at 0. -/
def tickAdd (a b : Nat) : Nat := (a + b) % (portMAX_DELAY + 1)

namespace Scheduler

variable {τ ε : Type} [DecidableEq τ] [DecidableEq ε]

/-- A call of `list.c`. -/
def list (c : ListCall (TaskItem τ) (TaskList ε)) (k : Scheduler τ ε) : Scheduler τ ε :=
  { k with lists := k.lists.call c, listCalls := k.listCalls ++ [c] }

/-- `uxListRemove`, with the number of items left that it gives back. -/
def uxListRemove (i : TaskItem τ) (k : Scheduler τ ε) : Scheduler τ ε × Nat :=
  (k.list (.remove i),
    match k.lists.reply (.remove i) with
    | .count n => n
    | _ => 0)

def configASSERT (b : Bool) (k : Scheduler τ ε) : Scheduler τ ε := if b then k else { k with vAssertCalled := true }

variable (S : TaskSet τ)

def prvAddTaskToReadyList (pxTCB : τ) (k : Scheduler τ ε) : Scheduler τ ε :=
  let k := { k with uxTopReadyPriority := portRECORD_READY_PRIORITY (S.uxPriority pxTCB) k.uxTopReadyPriority }
  k.list (.insertEnd (.pxReadyTasksLists (S.uxPriority pxTCB)) (.xStateListItem pxTCB))

/-- `listGET_LIST_ITEM_VALUE( &( ( pxTCB )->xStateListItem ) )`. -/
def wakeTime (k : Scheduler τ ε) (pxTCB : τ) : Nat := k.lists.value (.xStateListItem pxTCB)

def prvResetNextTaskUnblockTime (k : Scheduler τ ε) : Scheduler τ ε :=
  match (k.lists.items k.pxDelayedTaskList).head? with
  | none => { k with xNextTaskUnblockTime := portMAX_DELAY }
  | some i => { k with xNextTaskUnblockTime := k.wakeTime i.pvOwner }

def taskSWITCH_DELAYED_LISTS (k : Scheduler τ ε) : Scheduler τ ε :=
  let k := k.configASSERT (k.lists.items k.pxDelayedTaskList).isEmpty
  let k :=
    { k with
      pxDelayedTaskList := k.pxOverflowDelayedTaskList
      pxOverflowDelayedTaskList := k.pxDelayedTaskList
      xNumOfOverflows := k.xNumOfOverflows + 1 }
  k.prvResetNextTaskUnblockTime

/-- A task leaves the list of its state, and the event list or the pending list if it is in one, and is ready. -/
def unblock (pxTCB : τ) (k : Scheduler τ ε) : Scheduler τ ε :=
  let k := k.list (.remove (.xStateListItem pxTCB))
  let k := if k.lists.container (.xEventListItem pxTCB) ≠ none then k.list (.remove (.xEventListItem pxTCB)) else k
  k.prvAddTaskToReadyList S pxTCB

/-- The loop of `xTaskIncrementTick`, and whether a task was unblocked that may run instead of this one. It ends within as many
rounds as there are tasks in the list and one more. -/
def unblockDelayed (xConstTickCount : Nat) : Nat → Scheduler τ ε → Scheduler τ ε × Bool
  | 0, k => (k, false)
  | fuel + 1, k =>
    match (k.lists.items k.pxDelayedTaskList).head? with
    | none => ({ k with xNextTaskUnblockTime := portMAX_DELAY }, false)
    | some i =>
      let pxTCB := i.pvOwner
      let xItemValue := k.wakeTime pxTCB
      if xConstTickCount < xItemValue then
        ({ k with xNextTaskUnblockTime := xItemValue }, false)
      else
        let (k, xSwitchRequired) := unblockDelayed xConstTickCount fuel (k.unblock S pxTCB)
        (k, xSwitchRequired || S.uxPriority k.pxCurrentTCB ≤ S.uxPriority pxTCB)

/-- The tick count goes on, and the delayed lists are switched when it wraps to 0. -/
def nextTick (k : Scheduler τ ε) : Scheduler τ ε :=
  let xConstTickCount := tickAdd k.xTickCount 1
  let k := { k with xTickCount := xConstTickCount }
  if xConstTickCount = 0 then k.taskSWITCH_DELAYED_LISTS else k

/-- The half of `xTaskIncrementTick` that counts the tick. -/
def countTick (k : Scheduler τ ε) : Scheduler τ ε × Bool :=
  let k := k.nextTick
  let xConstTickCount := k.xTickCount
  let (k, xSwitchRequired) :=
    if xConstTickCount ≥ k.xNextTaskUnblockTime then
      k.unblockDelayed S xConstTickCount ((k.lists.items k.pxDelayedTaskList).length + 1)
    else
      (k, false)
  (k, xSwitchRequired || (k.lists.items (.pxReadyTasksLists (S.uxPriority k.pxCurrentTCB))).length > 1)

def xTaskIncrementTick (k : Scheduler τ ε) : Scheduler τ ε × Bool :=
  let (k, xSwitchRequired) :=
    if k.uxSchedulerSuspended = 0 then
      k.countTick S
    else
      ({ k with uxPendedTicks := k.uxPendedTicks + 1 }, false)
  (k, xSwitchRequired || k.xYieldPending)

/-- The loop over `xPendingReadyList`. It ends within as many rounds as there are tasks in the list. -/
def readyPending : Nat → Scheduler τ ε → Scheduler τ ε
  | 0, k => k
  | fuel + 1, k =>
    match (k.lists.items .xPendingReadyList).head? with
    | none => k
    | some i =>
      let pxTCB := i.pvOwner
      let k := k.list (.remove (.xEventListItem pxTCB))
      let k := k.list (.remove (.xStateListItem pxTCB))
      let k := k.prvAddTaskToReadyList S pxTCB
      let k := if S.uxPriority k.pxCurrentTCB ≤ S.uxPriority pxTCB then { k with xYieldPending := true } else k
      readyPending fuel k

/-- The loop over the pended ticks. -/
def countPended : Nat → Scheduler τ ε → Scheduler τ ε
  | 0, k => k
  | uxPendedCounts + 1, k =>
    let (k, xSwitchRequired) := k.xTaskIncrementTick S
    countPended uxPendedCounts (if xSwitchRequired then { k with xYieldPending := true } else k)

/-- `xTaskResumeAll`, and `xAlreadyYielded`. -/
def xTaskResumeAll (k : Scheduler τ ε) : Scheduler τ ε × Bool :=
  let k := k.configASSERT (k.uxSchedulerSuspended ≠ 0)
  let k := { k with uxSchedulerSuspended := k.uxSchedulerSuspended - 1 }
  if k.uxSchedulerSuspended = 0 then
    let pending := k.lists.items .xPendingReadyList
    let k := k.readyPending S pending.length
    let k := if pending.isEmpty then k else k.prvResetNextTaskUnblockTime
    let k := { k.countPended S k.uxPendedTicks with uxPendedTicks := 0 }
    if k.xYieldPending then
      ({ k with pendSV := true }, true)
    else
      (k, false)
  else
    (k, false)

def vTaskSwitchContext (k : Scheduler τ ε) : Scheduler τ ε :=
  if k.uxSchedulerSuspended ≠ 0 then
    { k with xYieldPending := true }
  else
    let k := { k with xYieldPending := false }
    let uxTopPriority := portGET_HIGHEST_PRIORITY k.uxTopReadyPriority
    if h : uxTopPriority < configMAX_PRIORITIES then
      let pxConstList := TaskList.pxReadyTasksLists ⟨uxTopPriority, h⟩
      let k := k.configASSERT ((k.lists.items pxConstList).length > 0)
      match k.lists.reply (.next pxConstList) with
      | .owner (.item i) => { k.list (.next pxConstList) with pxCurrentTCB := i.pvOwner }
      | _ => k.list (.next pxConstList)
    else
      -- beyond the array of ready lists
      k.configASSERT false

/-- The first half of `prvAddCurrentTaskToDelayedList`: the running task leaves its ready list. -/
def leaveReadyList (k : Scheduler τ ε) : Scheduler τ ε :=
  let (k, left) := k.uxListRemove (.xStateListItem k.pxCurrentTCB)
  if left = 0 then
    { k with uxTopReadyPriority := portRESET_READY_PRIORITY (S.uxPriority k.pxCurrentTCB) k.uxTopReadyPriority }
  else
    k

/-- The second half. `xCanBlockIndefinitely` is set in a wait for an event. -/
def sleep (xTicksToWait : Nat) (xCanBlockIndefinitely : Bool) (k : Scheduler τ ε) : Scheduler τ ε :=
  let item := TaskItem.xStateListItem k.pxCurrentTCB
  if xTicksToWait = portMAX_DELAY ∧ xCanBlockIndefinitely then
    k.list (.insertEnd .xSuspendedTaskList item)
  else
    let xTimeToWake := tickAdd k.xTickCount xTicksToWait
    let k := k.list (.setValue item xTimeToWake)
    if xTimeToWake < k.xTickCount then
      k.list (.insert k.pxOverflowDelayedTaskList item)
    else
      let k := k.list (.insert k.pxDelayedTaskList item)
      if xTimeToWake < k.xNextTaskUnblockTime then { k with xNextTaskUnblockTime := xTimeToWake } else k

def prvAddCurrentTaskToDelayedList (xTicksToWait : Nat) (xCanBlockIndefinitely : Bool) (k : Scheduler τ ε) :
    Scheduler τ ε :=
  (k.leaveReadyList S).sleep xTicksToWait xCanBlockIndefinitely

def vTaskPlaceOnEventList (e : ε) (xTicksToWait : Nat) (k : Scheduler τ ε) : Scheduler τ ε :=
  let k := k.list (.insert (.eventList e) (.xEventListItem k.pxCurrentTCB))
  k.prvAddCurrentTaskToDelayedList S xTicksToWait true

/-- The callers have seen that the event list is not empty. -/
def xTaskRemoveFromEventList (e : ε) (k : Scheduler τ ε) : Scheduler τ ε × Bool :=
  match (k.lists.items (.eventList e)).head? with
  | none => (k, false)
  | some i =>
    let pxUnblockedTCB := i.pvOwner
    let k := k.list (.remove (.xEventListItem pxUnblockedTCB))
    let k :=
      if k.uxSchedulerSuspended = 0 then
        (k.list (.remove (.xStateListItem pxUnblockedTCB))).prvAddTaskToReadyList S pxUnblockedTCB
      else
        k.list (.insertEnd .xPendingReadyList (.xEventListItem pxUnblockedTCB))
    if S.uxPriority k.pxCurrentTCB < S.uxPriority pxUnblockedTCB then
      ({ k with xYieldPending := true }, true)
    else
      (k, false)

/-! ## What can happen -/

/-- A task is made while the scheduler runs. -/
def xTaskCreate (pxNewTCB : τ) (k : Scheduler τ ε) : Scheduler τ ε :=
  let k := k.list (.setValue (.xEventListItem pxNewTCB) (configMAX_PRIORITIES - S.uxPriority pxNewTCB))
  let k := { k with tasks := k.tasks ++ [pxNewTCB] }
  let k := k.prvAddTaskToReadyList S pxNewTCB
  if S.uxPriority k.pxCurrentTCB < S.uxPriority pxNewTCB then { k with pendSV := true } else k

end Scheduler

/-- What the tasks and the interrupts do. -/
inductive KernelEvent (τ ε : Type)
  /-- `xPortSysTickHandler` -/
  | sysTick
  /-- `xPortPendSVHandler` -/
  | pendSV
  /-- `xTaskRemoveFromEventList`, by an interrupt or by the running task, which asks for a switch or not -/
  | event (e : ε) (yield : Bool)
  | xTaskCreate (t : τ)
  | vTaskSuspendAll
  | xTaskResumeAll
  | vTaskDelay (xTicksToDelay : Nat)
  /-- the running task finds nothing at a queue and suspends the scheduler; the timer task waits alone at its queue, where the
  `vListInsertEnd` of `vTaskPlaceOnEventListRestricted` does what `vListInsert` does -/
  | wait (e : ε) (xTicksToWait : Nat)
  /-- the running task goes on with its call -/
  | proceed
deriving DecidableEq

namespace Scheduler

variable {τ ε : Type} [DecidableEq τ] [DecidableEq ε] (S : TaskSet τ)

/-- What the running task is doing. -/
def running (k : Scheduler τ ε) : TaskCall ε := k.doing k.pxCurrentTCB

/-- The running task is in no call, and no switch comes before its next instruction. -/
def Idle (k : Scheduler τ ε) : Prop := k.running = .none ∧ k.pendSV = false

instance (k : Scheduler τ ε) : Decidable k.Idle := inferInstanceAs (Decidable (_ ∧ _))

/-- The running task may give up the processor: it is not the idle task, and it has not suspended the scheduler. -/
def MayBlock (k : Scheduler τ ε) : Prop := k.Idle ∧ k.uxSchedulerSuspended = 0 ∧ k.pxCurrentTCB ≠ S.xIdleTask

instance (k : Scheduler τ ε) : Decidable (k.MayBlock S) := inferInstanceAs (Decidable (_ ∧ _ ∧ _))

/-- The running task comes to another place in its call. -/
def goTo (c : TaskCall ε) (k : Scheduler τ ε) : Scheduler τ ε :=
  { k with doing := Function.update k.doing k.pxCurrentTCB c }

/-- The running task goes on with its call. -/
def proceed (k : Scheduler τ ε) : Scheduler τ ε :=
  match k.running with
  | .none => k
  | .delaying xTicksToDelay => (k.prvAddCurrentTaskToDelayedList S xTicksToDelay false).goTo .resuming
  | .placing e xTicksToWait => (k.vTaskPlaceOnEventList S e xTicksToWait).goTo .resuming
  | .resuming =>
    let (k, xAlreadyYielded) := k.xTaskResumeAll S
    k.goTo (if xAlreadyYielded then .none else .yielding)
  | .yielding => { k with pendSV := true }.goTo .none

/-- One step. What the callers must not do does not happen. -/
def step (k : Scheduler τ ε) : KernelEvent τ ε → Scheduler τ ε
  | .sysTick =>
    let (k, xSwitchRequired) := k.xTaskIncrementTick S
    if xSwitchRequired then { k with pendSV := true } else k
  | .pendSV => if k.pendSV then { k with pendSV := false }.vTaskSwitchContext else k
  | .event e yield =>
    let (k, xReturn) := k.xTaskRemoveFromEventList S e
    if yield && xReturn then { k with pendSV := true } else k
  | .xTaskCreate t => if k.Idle ∧ t ∉ k.tasks then k.xTaskCreate S t else k
  | .vTaskSuspendAll => if k.Idle then { k with uxSchedulerSuspended := k.uxSchedulerSuspended + 1 } else k
  | .xTaskResumeAll => if k.Idle ∧ k.uxSchedulerSuspended ≠ 0 then (k.xTaskResumeAll S).1 else k
  | .vTaskDelay xTicksToDelay =>
    if k.MayBlock S ∧ xTicksToDelay ≤ portMAX_DELAY then
      if xTicksToDelay > 0 then
        { k with uxSchedulerSuspended := k.uxSchedulerSuspended + 1 }.goTo (.delaying xTicksToDelay)
      else
        k.goTo .yielding
    else
      k
  | .wait e xTicksToWait =>
    if k.MayBlock S ∧ 0 < xTicksToWait ∧ xTicksToWait ≤ portMAX_DELAY then
      { k with uxSchedulerSuspended := k.uxSchedulerSuspended + 1 }.goTo (.placing e xTicksToWait)
    else
      k
  | .proceed => if k.pendSV = false then k.proceed S else k

/-! ## The start -/

/-- `prvAddNewTaskToReadyList` before the scheduler runs: the last task of the highest priority will be the first to run. -/
def prvAddNewTaskToReadyList (k : Scheduler τ ε) (pxNewTCB : τ) : Scheduler τ ε :=
  let k := k.list (.setValue (.xEventListItem pxNewTCB) (configMAX_PRIORITIES - S.uxPriority pxNewTCB))
  let k := { k with tasks := k.tasks ++ [pxNewTCB] }
  let k := if S.uxPriority k.pxCurrentTCB ≤ S.uxPriority pxNewTCB then { k with pxCurrentTCB := pxNewTCB } else k
  k.prvAddTaskToReadyList S pxNewTCB

/-- `prvInitialiseTaskLists`, and the data of `tasks.c` as `vTaskStartScheduler` sets them. -/
def prvInitialiseTaskLists (value : TaskItem τ → Nat) (pxCurrentTCB : τ) : Scheduler τ ε where
  lists := .initial value
  pxDelayedTaskList := .xDelayedTaskList1
  pxOverflowDelayedTaskList := .xDelayedTaskList2
  pxCurrentTCB := pxCurrentTCB
  xTickCount := 0
  xNumOfOverflows := 0
  xNextTaskUnblockTime := portMAX_DELAY
  uxTopReadyPriority := 0
  uxPendedTicks := 0
  uxSchedulerSuspended := 0
  xYieldPending := false
  pendSV := false
  vAssertCalled := false
  doing := fun _ => .none
  tasks := []
  listCalls := []

/-- The tasks that are made before the scheduler runs, and the idle task and the timer task, which `vTaskStartScheduler` makes. -/
def vTaskStartScheduler (value : TaskItem τ → Nat) (tasks : List τ) : Scheduler τ ε :=
  (tasks ++ [S.xIdleTask, S.xTimerTask]).foldl (prvAddNewTaskToReadyList S) (prvInitialiseTaskLists value (tasks.headD S.xIdleTask))

end Scheduler

end Rtu

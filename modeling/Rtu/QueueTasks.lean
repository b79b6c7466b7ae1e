import Rtu.XQueue
import Rtu.Runs

/-!
# Tasks and interrupts at a queue

`xQueueGenericSend`, `xQueueReceive` and `xQueuePeek` are loops. A task looks at the queue in a critical section; if there is nothing
for it, it suspends the scheduler, locks the queue, looks again, puts itself on an event list, unlocks and resumes. Interrupts send
and receive in between; while the queue is locked they leave the event lists alone and count, and the task that unlocks the queue
wakes for them. `xQueueSemaphoreTake` of a semaphore is `xQueueReceive` of a queue whose items have no bytes.

A step is one critical section. A task takes its next step unless it is on an event list or another task has suspended the
scheduler. When a wait has expired is for the schedule to say. Which of two ready tasks runs is left open, and so are the lists of
ready tasks.
-/

namespace Rtu

/-- What a task waits for: room, on `xTasksWaitingToSend`, or an item, on `xTasksWaitingToReceive`. -/
inductive Side where
  | send
  | receive
  deriving DecidableEq, Repr

def queueUNLOCKED : Int8 := -1

def queueLOCKED_UNMODIFIED : Int8 := 0

/-- The call that a task is in. -/
inductive QueueCall (uxItemSize : Nat) where
  | xQueueGenericSend (pvItemToQueue : Vector UInt8 uxItemSize) (xCopyPosition : CopyPosition)
  | xQueueReceive
  | xQueuePeek
  deriving DecidableEq

/-- What it waits for. -/
def QueueCall.side {uxItemSize : Nat} : QueueCall uxItemSize → Side
  | .xQueueGenericSend _ _ => .send
  | .xQueueReceive | .xQueuePeek => .receive

/-- What a task in a call does next. -/
inductive Stage where
  /-- the critical section at the head of the loop -/
  | critical
  /-- `vTaskSuspendAll` -/
  | suspendAll
  /-- `prvLockQueue` -/
  | lock
  /-- `xTaskCheckForTimeOut` -/
  | check
  /-- `prvIsQueueFull` or `prvIsQueueEmpty` -/
  | probe
  /-- `vTaskPlaceOnEventList` -/
  | place
  /-- the first half of `prvUnlockQueue`, and whether the wait has expired -/
  | unlockTx (expired : Bool)
  /-- the second half -/
  | unlockRx (expired : Bool)
  /-- `xTaskResumeAll` -/
  | resumeAll (expired : Bool)
  /-- `prvIsQueueEmpty` after the wait has expired -/
  | probeLast
  deriving DecidableEq, Repr

/-- The queue and those who use it. -/
structure QueueTasks (τ : Type) (uxItemSize : Nat) where
  queue : XQueue
  /-- the event lists `xTasksWaitingToSend` and `xTasksWaitingToReceive` -/
  waiting : Side → List τ
  /-- what interrupts have counted for those who wait: `cRxLock` for room, `cTxLock` for items -/
  lock : Side → Int8
  task : τ → Option (QueueCall uxItemSize × Stage)
  /-- the task that has suspended the scheduler -/
  uxSchedulerSuspended : Option τ

/-- What happens at the queue, in the order in which it takes effect. -/
inductive QueueEvent (uxItemSize : Nat) where
  | sent (item : Vector UInt8 uxItemSize) (xCopyPosition : CopyPosition)
  | received (item : Vector UInt8 uxItemSize)
  | peeked (item : Vector UInt8 uxItemSize)
  deriving DecidableEq

/-- What the scheduler, the clock and the interrupts can do. -/
inductive QueueLabel (τ : Type) (uxItemSize : Nat) where
  | call (t : τ) (c : QueueCall uxItemSize)
  /-- a task goes on; `expired` says whether it has no ticks left to wait, if that is what it looks at -/
  | run (t : τ) (expired : Bool)
  /-- the tick at which the wait of a task ends -/
  | tick (t : τ)
  | xQueueGenericSendFromISR (pvItemToQueue : Vector UInt8 uxItemSize) (xCopyPosition : CopyPosition)
  | xQueueReceiveFromISR

section Lists

variable {τ : Type} (uxPriority : τ → Nat)

/-- `vListInsert` into an event list: before the first task of lower priority. -/
def vListInsert (t : τ) : List τ → List τ
  | [] => [t]
  | x :: l => if uxPriority t ≤ uxPriority x then x :: vListInsert t l else t :: x :: l

/-- The loop of `prvUnlockQueue`: `xTaskRemoveFromEventList` for everything that was counted. -/
def wakeCounted (cLock : Int8) : List τ → List τ
  | [] => []
  | x :: l => if cLock > queueLOCKED_UNMODIFIED then wakeCounted (cLock - 1) l else x :: l

end Lists

/-- `prvLockQueue`. -/
def prvLockQueue (lock : Side → Int8) : Side → Int8 := fun side =>
  if lock side = queueUNLOCKED then queueLOCKED_UNMODIFIED else lock side

section Steps

variable {τ : Type} [DecidableEq τ] {uxLength uxItemSize : Nat} (S : Storage uxLength uxItemSize) (uxPriority : τ → Nat)

/-- A new queue, in the calls of no task. -/
def QueueTasks.boot (mem : Nat → UInt8) : QueueTasks τ uxItemSize :=
  { queue := xQueueGenericReset S mem
    waiting := fun _ => []
    lock := fun _ => queueUNLOCKED
    task := fun _ => none
    uxSchedulerSuspended := none }

/-- Whether a task can take a step. -/
def QueueTasks.Ready (s : QueueTasks τ uxItemSize) (t : τ) : Prop :=
  s.uxSchedulerSuspended = some t ∨
    s.uxSchedulerSuspended = none ∧ t ∉ s.waiting .send ∧ t ∉ s.waiting .receive

instance (s : QueueTasks τ uxItemSize) (t : τ) : Decidable (s.Ready t) := inferInstanceAs (Decidable (_ ∨ _))

/-- A task is in a call and does this next, or is in none. -/
def QueueTasks.goOn (s : QueueTasks τ uxItemSize) (t : τ) (next : Option (QueueCall uxItemSize × Stage)) :
    QueueTasks τ uxItemSize :=
  { s with task := Function.update s.task t next }

/-- `xTaskRemoveFromEventList` if the list is not empty. -/
def QueueTasks.wake (s : QueueTasks τ uxItemSize) (side : Side) : QueueTasks τ uxItemSize :=
  { s with waiting := Function.update s.waiting side (s.waiting side).tail }

/-- Whether `xQueueGenericSend` finds room. -/
def XQueue.takes (q : XQueue) (uxLength : Nat) (xCopyPosition : CopyPosition) : Bool :=
  q.uxMessagesWaiting < uxLength ∨ xCopyPosition = .queueOVERWRITE

/-- `configASSERT`: only a queue of one item can be overwritten. -/
def CopyPosition.permitted (uxLength : Nat) (xCopyPosition : CopyPosition) : Bool :=
  xCopyPosition = .queueOVERWRITE → uxLength = 1

/-- Whether a call passes it. One that does not is not made. -/
def QueueCall.permitted (uxLength : Nat) : QueueCall uxItemSize → Bool
  | .xQueueGenericSend _ xCopyPosition => xCopyPosition.permitted uxLength
  | .xQueueReceive | .xQueuePeek => true

/-- Whether there is nothing for a task that waits for this: `prvIsQueueFull` and `prvIsQueueEmpty`. -/
def XQueue.lacks (q : XQueue) (uxLength : Nat) : Side → Bool
  | .send => q.uxMessagesWaiting = uxLength
  | .receive => q.uxMessagesWaiting = 0

/-- The queue after an item was taken out. -/
def XQueue.taken (q : XQueue) : XQueue :=
  { (prvCopyDataFromQueue S q).2 with uxMessagesWaiting := q.uxMessagesWaiting - 1 }

/-- The critical section at the head of a call. -/
def QueueTasks.critical (s : QueueTasks τ uxItemSize) (t : τ) (c : QueueCall uxItemSize) (expired : Bool) :
    QueueTasks τ uxItemSize :=
  let wait := s.goOn t (if expired then none else some (c, .suspendAll))
  match c with
  | .xQueueGenericSend pvItemToQueue xCopyPosition =>
    if s.queue.takes uxLength xCopyPosition then
      { (s.wake .receive).goOn t none with queue := prvCopyDataToQueue S s.queue pvItemToQueue xCopyPosition }
    else wait
  | .xQueueReceive =>
    if s.queue.uxMessagesWaiting > 0 then { (s.wake .send).goOn t none with queue := s.queue.taken S } else wait
  | .xQueuePeek =>
    if s.queue.uxMessagesWaiting > 0 then
      { (s.wake .receive).goOn t none with
        queue := { (prvCopyDataFromQueue S s.queue).2 with pcReadFrom := s.queue.pcReadFrom } }
    else wait

/-- Half of `prvUnlockQueue`. -/
def QueueTasks.unlock (s : QueueTasks τ uxItemSize) (side : Side) : QueueTasks τ uxItemSize :=
  { s with
    waiting := Function.update s.waiting side (wakeCounted (s.lock side) (s.waiting side))
    lock := Function.update s.lock side queueUNLOCKED }

/-- A task in a call goes on. -/
def QueueTasks.runTask (s : QueueTasks τ uxItemSize) (t : τ) (c : QueueCall uxItemSize) (expired : Bool) :
    Stage → QueueTasks τ uxItemSize
  | .critical => s.critical S t c expired
  | .suspendAll => { s with uxSchedulerSuspended := some t }.goOn t (some (c, .lock))
  | .lock => { s with lock := prvLockQueue s.lock }.goOn t (some (c, .check))
  | .check => s.goOn t (some (c, if expired then .unlockTx true else .probe))
  | .probe => s.goOn t (some (c, if s.queue.lacks uxLength c.side then .place else .unlockTx false))
  | .place =>
    { s with waiting := Function.update s.waiting c.side (vListInsert uxPriority t (s.waiting c.side)) }.goOn t
      (some (c, .unlockTx false))
  | .unlockTx e => (s.unlock .receive).goOn t (some (c, .unlockRx e))
  | .unlockRx e => (s.unlock .send).goOn t (some (c, .resumeAll e))
  | .resumeAll e =>
    { s with uxSchedulerSuspended := none }.goOn t
      (if e then
        match c.side with
        | .send => none
        | .receive => some (c, .probeLast)
      else some (c, .critical))
  | .probeLast => s.goOn t (if s.queue.lacks uxLength .receive then none else some (c, .critical))

/-- An interrupt has added something for those who wait for it: it wakes one of them, or counts if the queue is locked. -/
def QueueTasks.notify (s : QueueTasks τ uxItemSize) (side : Side) : QueueTasks τ uxItemSize :=
  if s.lock side = queueUNLOCKED then s.wake side
  else { s with lock := Function.update s.lock side (s.lock side + 1) }

/-- One step. -/
def QueueTasks.step (s : QueueTasks τ uxItemSize) : QueueLabel τ uxItemSize → QueueTasks τ uxItemSize
  | .call t c =>
    if s.task t = none ∧ s.Ready t ∧ c.permitted uxLength then s.goOn t (some (c, .critical)) else s
  | .run t expired =>
    match s.task t with
    | none => s
    | some (c, stage) => if s.Ready t then s.runTask S uxPriority t c expired stage else s
  | .tick t =>
    if s.uxSchedulerSuspended = none then { s with waiting := fun side => (s.waiting side).erase t } else s
  | .xQueueGenericSendFromISR pvItemToQueue xCopyPosition =>
    if xCopyPosition.permitted uxLength ∧ s.queue.takes uxLength xCopyPosition then
      { s.notify .receive with queue := prvCopyDataToQueue S s.queue pvItemToQueue xCopyPosition }
    else s
  | .xQueueReceiveFromISR =>
    if s.queue.uxMessagesWaiting > 0 then { s.notify .send with queue := s.queue.taken S } else s

/-- What a critical section does to the queue. -/
def XQueue.events (q : XQueue) : QueueCall uxItemSize → List (QueueEvent uxItemSize)
  | .xQueueGenericSend pvItemToQueue xCopyPosition =>
    if q.takes uxLength xCopyPosition then [.sent pvItemToQueue xCopyPosition] else []
  | .xQueueReceive => if q.uxMessagesWaiting > 0 then [.received (prvCopyDataFromQueue S q).1] else []
  | .xQueuePeek => if q.uxMessagesWaiting > 0 then [.peeked (prvCopyDataFromQueue S q).1] else []

/-- What a step does to the queue. -/
def QueueTasks.events (s : QueueTasks τ uxItemSize) : QueueLabel τ uxItemSize → List (QueueEvent uxItemSize)
  | .call _ _ | .tick _ => []
  | .run t _ =>
    match s.task t with
    | some (c, .critical) => if s.Ready t then s.queue.events S c else []
    | _ => []
  | .xQueueGenericSendFromISR pvItemToQueue xCopyPosition =>
    if xCopyPosition.permitted uxLength ∧ s.queue.takes uxLength xCopyPosition then [.sent pvItemToQueue xCopyPosition] else []
  | .xQueueReceiveFromISR => if s.queue.uxMessagesWaiting > 0 then [.received (prvCopyDataFromQueue S s.queue).1] else []

end Steps

end Rtu

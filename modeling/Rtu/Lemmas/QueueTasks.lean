import Rtu.QueueTasks
import Rtu.Lemmas.XQueue

/-!
# Helpers for tasks at a queue

What a queue is for is said by `QueueEvent.act`: a list that grows at its ends and shrinks at its head. `follows_step` shows that a
step does to the queue what its events do to the list.
-/

namespace Rtu

/-! ## The queue as a list -/

/-- What an event does to the items of a queue: nothing is sent to a full queue, but `queueOVERWRITE` puts an item in the place of the
one in a queue of one; and what is received or peeked is the first. -/
def QueueEvent.act {uxItemSize : Nat} (uxLength : Nat) (items : List (Vector UInt8 uxItemSize)) :
    QueueEvent uxItemSize → Option (List (Vector UInt8 uxItemSize))
  | .sent x .queueSEND_TO_BACK => if items.length < uxLength then some (items ++ [x]) else none
  | .sent x .queueSEND_TO_FRONT => if items.length < uxLength then some (x :: items) else none
  | .sent x .queueOVERWRITE => if uxLength = 1 then some [x] else none
  | .received x => if items.head? = some x then some items.tail else none
  | .peeked x => if items.head? = some x then some items else none

/-- The items after a list of events. -/
def replay {uxItemSize : Nat} (uxLength : Nat) (items : List (Vector UInt8 uxItemSize)) (es : List (QueueEvent uxItemSize)) :
    Option (List (Vector UInt8 uxItemSize)) :=
  es.foldlM (QueueEvent.act uxLength) items

section Items

variable {uxLength uxItemSize : Nat} {S : Storage uxLength uxItemSize} {q : XQueue}
  {items : List (Vector UInt8 uxItemSize)}

theorem replay_nil : replay uxLength items [] = some items := rfl

theorem replay_singleton (e : QueueEvent uxItemSize) : replay uxLength items [e] = e.act uxLength items := by
  simp [replay]

/-- One list of events after another. -/
theorem replay_append (es es' : List (QueueEvent uxItemSize)) :
    replay uxLength items (es ++ es') = (replay uxLength items es).bind fun items' => replay uxLength items' es' := by
  simp [replay, List.foldlM_append]

/-- A position that the source allows: only a queue of one item is overwritten, and a semaphore is not. -/
def CopyPosition.Sound (uxLength uxItemSize : Nat) (xCopyPosition : CopyPosition) : Prop :=
  xCopyPosition = .queueOVERWRITE → uxLength = 1 ∧ uxItemSize ≠ 0

/-- From a queue of these items to another queue: what happens to the items is what these events say, and nothing is written outside
the storage area. -/
def Follows (S : Storage uxLength uxItemSize) (items : List (Vector UInt8 uxItemSize)) (q : XQueue)
    (es : List (QueueEvent uxItemSize)) (q' : XQueue) : Prop :=
  ∃ items', replay uxLength items es = some items' ∧ Stores S q' items' ∧ ∀ a, ¬S.Covers a → q'.mem a = q.mem a

theorem Stores.follows_nil (h : Stores S q items) : Follows S items q [] q :=
  ⟨items, replay_nil, h, fun _ _ => rfl⟩

/-- A queue that takes an item. -/
theorem Stores.follows_sent (h : Stores S q items) {xCopyPosition : CopyPosition}
    (hsound : xCopyPosition.Sound uxLength uxItemSize) (htakes : q.takes uxLength xCopyPosition = true)
    (x : Vector UInt8 uxItemSize) :
    Follows S items q [.sent x xCopyPosition] (prvCopyDataToQueue S q x xCopyPosition) := by
  have hroom : xCopyPosition ≠ .queueOVERWRITE → items.length < uxLength := by
    intro hne
    simpa [XQueue.takes, hne, h.uxMessagesWaiting] using htakes
  have hframe := fun a => h.copyTo_frame (x := x) xCopyPosition (a := a)
  cases xCopyPosition with
  | queueSEND_TO_BACK =>
    have hlt := hroom (by decide)
    exact ⟨items ++ [x], by simp [replay_singleton, QueueEvent.act, hlt], h.copyToBack hlt, hframe⟩
  | queueSEND_TO_FRONT =>
    have hlt := hroom (by decide)
    exact ⟨x :: items, by simp [replay_singleton, QueueEvent.act, hlt], h.copyToFront hlt, hframe⟩
  | queueOVERWRITE =>
    obtain ⟨hone, hsize⟩ := hsound rfl
    exact ⟨[x], by simp [replay_singleton, QueueEvent.act, hone], h.overwrite hone hsize, hframe⟩

/-- A queue with items has a first one, and it is the one that is copied out. -/
theorem Stores.exists_cons (h : Stores S q items) (hpos : q.uxMessagesWaiting > 0) :
    ∃ rest, items = (prvCopyDataFromQueue S q).1 :: rest := by
  cases items with
  | nil => exact absurd h.uxMessagesWaiting (Nat.ne_of_gt hpos)
  | cons x rest => exact ⟨rest, by rw [h.copyFrom_fst]⟩

/-- A queue that an item is taken out of. -/
theorem Stores.follows_received (h : Stores S q items) (hpos : q.uxMessagesWaiting > 0) :
    Follows S items q [.received (prvCopyDataFromQueue S q).1] (q.taken S) := by
  obtain ⟨rest, hrest⟩ := h.exists_cons hpos
  refine ⟨rest, by simp [replay_singleton, QueueEvent.act, hrest], ?_, ?_⟩
  · rw [hrest] at h
    exact h.copyFrom_snd
  · intro a _
    exact congrFun (copyFrom_mem S q) a

/-- A queue that is looked into. -/
theorem Stores.follows_peeked (h : Stores S q items) (hpos : q.uxMessagesWaiting > 0) :
    Follows S items q [.peeked (prvCopyDataFromQueue S q).1]
      { (prvCopyDataFromQueue S q).2 with pcReadFrom := q.pcReadFrom } := by
  obtain ⟨rest, hrest⟩ := h.exists_cons hpos
  have hq : { (prvCopyDataFromQueue S q).2 with pcReadFrom := q.pcReadFrom } = q := by
    unfold prvCopyDataFromQueue
    split <;> rfl
  rw [hq]
  refine ⟨items, ?_, h, fun _ _ => rfl⟩
  rw [replay_singleton, QueueEvent.act, hrest, List.head?_cons, if_pos rfl]

end Items

section Machine

variable {τ : Type} [DecidableEq τ] {uxLength uxItemSize : Nat} {S : Storage uxLength uxItemSize} {uxPriority : τ → Nat}
  {s : QueueTasks τ uxItemSize} {items : List (Vector UInt8 uxItemSize)} {t : τ} {side : Side}

section GoOn

variable (s t) (next : Option (QueueCall uxItemSize × Stage))

@[simp] theorem queue_goOn : (s.goOn t next).queue = s.queue := rfl

@[simp] theorem waiting_goOn : (s.goOn t next).waiting = s.waiting := rfl

@[simp] theorem lock_goOn : (s.goOn t next).lock = s.lock := rfl

@[simp] theorem task_goOn : (s.goOn t next).task = Function.update s.task t next := rfl

@[simp] theorem suspended_goOn : (s.goOn t next).uxSchedulerSuspended = s.uxSchedulerSuspended := rfl

end GoOn

omit [DecidableEq τ] in
@[simp] theorem queue_wake : (s.wake side).queue = s.queue := rfl

omit [DecidableEq τ] in
@[simp] theorem queue_unlock : (s.unlock side).queue = s.queue := rfl

/-- A call whose position the source allows. -/
def QueueCall.Sound (uxLength : Nat) : QueueCall uxItemSize → Prop
  | .xQueueGenericSend _ xCopyPosition => xCopyPosition.Sound uxLength uxItemSize
  | .xQueueReceive | .xQueuePeek => True

/-- The critical section at the head of a call. -/
theorem follows_critical (h : Stores S s.queue items) {c : QueueCall uxItemSize} (hsound : c.Sound uxLength) (expired : Bool) :
    Follows S items s.queue (s.queue.events S c) (s.critical S t c expired).queue := by
  cases c with
  | xQueueGenericSend x xCopyPosition =>
    simp only [XQueue.events, QueueTasks.critical]
    split
    next htakes => exact h.follows_sent hsound htakes x
    next => exact h.follows_nil
  | xQueueReceive =>
    simp only [XQueue.events, QueueTasks.critical]
    split
    next hpos => exact h.follows_received hpos
    next => exact h.follows_nil
  | xQueuePeek =>
    simp only [XQueue.events, QueueTasks.critical]
    split
    next hpos => exact h.follows_peeked hpos
    next => exact h.follows_nil

/-- No other stage of a call touches the queue. -/
theorem queue_runTask {c : QueueCall uxItemSize} {expired : Bool} {stage : Stage} (hstage : stage ≠ .critical) :
    (s.runTask S uxPriority t c expired stage).queue = s.queue := by
  cases stage <;> first | exact absurd rfl hstage | rfl

/-- What holds of the calls that tasks are in. -/
def QueueTasks.Calls (P : QueueCall uxItemSize → Prop) (s : QueueTasks τ uxItemSize) : Prop :=
  ∀ t c stage, s.task t = some (c, stage) → P c

/-- Whether a label sends with `queueOVERWRITE`. -/
def QueueLabel.Overwrites : QueueLabel τ uxItemSize → Prop
  | .call _ (.xQueueGenericSend _ xCopyPosition) | .xQueueGenericSendFromISR _ xCopyPosition =>
    xCopyPosition = .queueOVERWRITE
  | _ => False

/-- A permitted position is sound if it does not overwrite a semaphore. -/
theorem CopyPosition.sound_of_permitted {xCopyPosition : CopyPosition} (hp : xCopyPosition.permitted uxLength = true)
    (hsize : xCopyPosition = .queueOVERWRITE → uxItemSize ≠ 0) : xCopyPosition.Sound uxLength uxItemSize := by
  intro ho
  rw [CopyPosition.permitted, decide_eq_true_iff] at hp
  exact ⟨hp ho, hsize ho⟩

omit [DecidableEq τ] in
theorem QueueCall.sound_of_permitted {c : QueueCall uxItemSize} (hp : c.permitted uxLength = true)
    (hsize : QueueLabel.Overwrites (.call t c) → uxItemSize ≠ 0) : c.Sound uxLength := by
  cases c with
  | xQueueGenericSend x xCopyPosition => exact CopyPosition.sound_of_permitted hp hsize
  | xQueueReceive => trivial
  | xQueuePeek => trivial

/-- A step does to the queue what its events do to the items. -/
theorem follows_step (h : Stores S s.queue items) (hsound : s.Calls (·.Sound uxLength)) {l : QueueLabel τ uxItemSize}
    (hsize : l.Overwrites → uxItemSize ≠ 0) :
    Follows S items s.queue (s.events S l) (s.step S uxPriority l).queue := by
  cases l with
  | call t c =>
    have hq : (s.step S uxPriority (.call t c)).queue = s.queue := by
      simp only [QueueTasks.step]
      split <;> rfl
    rw [hq]
    exact h.follows_nil
  | run t expired =>
    simp only [QueueTasks.step, QueueTasks.events]
    rcases htask : s.task t with _ | ⟨c, stage⟩
    · exact h.follows_nil
    · by_cases hready : s.Ready t
      · simp only [if_pos hready]
        by_cases hstage : stage = .critical
        · subst hstage
          exact follows_critical h (hsound t c _ htask) expired
        · rw [queue_runTask hstage]
          cases stage <;> first | exact absurd rfl hstage | exact h.follows_nil
      · simp only [if_neg hready]
        cases stage <;> exact h.follows_nil
  | tick t =>
    simp only [QueueTasks.step, QueueTasks.events]
    split <;> exact h.follows_nil
  | xQueueGenericSendFromISR x xCopyPosition =>
    simp only [QueueTasks.step, QueueTasks.events]
    split
    next hif => exact h.follows_sent (CopyPosition.sound_of_permitted hif.1 hsize) hif.2 x
    next => exact h.follows_nil
  | xQueueReceiveFromISR =>
    simp only [QueueTasks.step, QueueTasks.events]
    split
    next hpos => exact h.follows_received hpos
    next => exact h.follows_nil

/-- What a task in a call does next, it does in the same call. -/
theorem task_runTask (S : Storage uxLength uxItemSize) (uxPriority : τ → Nat) (s : QueueTasks τ uxItemSize) (t : τ)
    (c : QueueCall uxItemSize) (expired : Bool) (stage : Stage) :
    ∃ next, (s.runTask S uxPriority t c expired stage).task = Function.update s.task t next ∧
      ∀ c' stage', next = some (c', stage') → c' = c := by
  have hsame : ∀ stage' : Stage, ∀ c' stage'', some (c, stage') = some (c', stage'') → c' = c := by
    intro stage' c' stage'' he
    exact (Prod.mk.inj (Option.some_inj.mp he)).1.symm
  have hnone : ∀ c' stage', (none : Option (QueueCall uxItemSize × Stage)) = some (c', stage') → c' = c := by
    intro c' stage' he
    cases he
  have hif : ∀ (b : Bool) (stage' : Stage), ∀ c' stage'',
      (if b = true then none else some (c, stage')) = some (c', stage'') → c' = c := by
    intro b stage' c' stage'' he
    cases b with
    | false => exact hsame _ _ _ he
    | true => exact hnone _ _ he
  cases stage with
  | critical =>
    simp only [QueueTasks.runTask, QueueTasks.critical]
    cases c <;> (simp only []; split <;> first | exact ⟨_, rfl, hnone⟩ | exact ⟨_, rfl, hif expired _⟩)
  | resumeAll e =>
    cases e with
    | false => exact ⟨_, rfl, hsame _⟩
    | true => cases c <;> first | exact ⟨_, rfl, hnone⟩ | exact ⟨_, rfl, hsame _⟩
  | probeLast => exact ⟨_, rfl, hif _ _⟩
  | _ => exact ⟨_, rfl, hsame _⟩

/-- What holds of every call that is made holds of every call that a task is in. -/
theorem calls_step {P : QueueCall uxItemSize → Prop} (h : s.Calls P) {l : QueueLabel τ uxItemSize}
    (hl : ∀ t c, l = .call t c → c.permitted uxLength = true → P c) : (s.step S uxPriority l).Calls P := by
  have hupdate : ∀ {s' : QueueTasks τ uxItemSize} {t : τ} {next : Option (QueueCall uxItemSize × Stage)},
      s'.task = Function.update s.task t next → (∀ c stage, next = some (c, stage) → P c) → s'.Calls P := by
    intro s' t next htask hnext u c stage hu
    rw [htask] at hu
    by_cases hut : u = t
    · subst hut
      rw [Function.update_self] at hu
      exact hnext c stage hu
    · rw [Function.update_of_ne hut] at hu
      exact h u c stage hu
  cases l with
  | call t c =>
    simp only [QueueTasks.step]
    split
    next hif =>
      refine hupdate (task_goOn _ _ _) ?_
      rintro c' stage ⟨⟩
      exact hl t c rfl hif.2.2
    next => exact h
  | run t expired =>
    simp only [QueueTasks.step]
    rcases htask : s.task t with _ | ⟨c, stage⟩
    · exact h
    · simp only []
      split
      · obtain ⟨next, hnext, hsame⟩ := task_runTask S uxPriority s t c expired stage
        refine hupdate hnext ?_
        intro c' stage' he
        rw [hsame c' stage' he]
        exact h t c stage htask
      · exact h
  | tick t =>
    simp only [QueueTasks.step]
    split <;> exact h
  | xQueueGenericSendFromISR x xCopyPosition =>
    simp only [QueueTasks.step, QueueTasks.notify]
    split
    · split <;> exact h
    · exact h
  | xQueueReceiveFromISR =>
    simp only [QueueTasks.step, QueueTasks.notify]
    split
    · split <;> exact h
    · exact h

/-- All calls are sound if no label overwrites a semaphore. -/
theorem sound_step (h : s.Calls (·.Sound uxLength)) {l : QueueLabel τ uxItemSize} (hsize : l.Overwrites → uxItemSize ≠ 0) :
    (s.step S uxPriority l).Calls (·.Sound uxLength) := by
  refine calls_step h ?_
  rintro t c rfl hp
  exact QueueCall.sound_of_permitted hp hsize

end Machine

end Rtu

import Rtu.Lemmas.QueueWakes

/-!
# What the queues promise

However tasks and interrupts interleave, the bytes in the storage area behave as a bounded list (`queue_linearizes`), so that what is
sent to the back is received once and in order (`received_in_order`). No wake-up is lost: while tasks wait, there is no more for them
than the tasks that are awake already will look for (`no_lost_wakeup`). That rests on counts that fit into an `int8_t`: the 128th item
that interrupts send while the queue is locked is one too many (`wakeup_lost`).
-/

namespace Rtu

/-- The items that were sent, in order. -/
def sentItems {uxItemSize : Nat} (es : List (QueueEvent uxItemSize)) : List (Vector UInt8 uxItemSize) :=
  es.filterMap fun
    | .sent x _ => some x
    | _ => none

/-- The items that were received, in order. -/
def receivedItems {uxItemSize : Nat} (es : List (QueueEvent uxItemSize)) : List (Vector UInt8 uxItemSize) :=
  es.filterMap fun
    | .received x => some x
    | _ => none

/-- Whether a call sends to the back, if it sends. -/
def QueueCall.SendsBack {uxItemSize : Nat} : QueueCall uxItemSize → Prop
  | .xQueueGenericSend _ xCopyPosition => xCopyPosition = .queueSEND_TO_BACK
  | .xQueueReceive | .xQueuePeek => True

/-- Whether what a label sends goes to the back. -/
def QueueLabel.SendsBack {τ : Type} {uxItemSize : Nat} : QueueLabel τ uxItemSize → Prop
  | .call _ c => c.SendsBack
  | .xQueueGenericSendFromISR _ xCopyPosition => xCopyPosition = .queueSEND_TO_BACK
  | .run _ _ | .tick _ | .xQueueReceiveFromISR => True

/-- Whether a task is awake and about to look whether there is something for a side. -/
def QueueTasks.Heading {τ : Type} {uxItemSize : Nat} (s : QueueTasks τ uxItemSize) (side : Side) (t : τ) : Prop :=
  t ∉ s.waiting side ∧ (s.task t).any fun x => x.1.side = side ∧ x.2 = .critical

instance {τ : Type} [DecidableEq τ] {uxItemSize : Nat} (s : QueueTasks τ uxItemSize) (side : Side) (t : τ) :
    Decidable (s.Heading side t) := inferInstanceAs (Decidable (_ ∧ _))

namespace QueueTasksAux

variable {τ : Type} [DecidableEq τ] {uxLength uxItemSize : Nat} {S : Storage uxLength uxItemSize} {uxPriority : τ → Nat}
  {s : QueueTasks τ uxItemSize} {sched : List (QueueLabel τ uxItemSize)}

/-! ### The list -/

/-- The queue and the calls after a run, and the events of the run. -/
structure Faithful (S : Storage uxLength uxItemSize) (mem : Nat → UInt8) (s : QueueTasks τ uxItemSize)
    (es : List (QueueEvent uxItemSize)) : Prop where
  stores : ∃ items, replay uxLength [] es = some items ∧ Stores S s.queue items
  outside : ∀ a, ¬S.Covers a → s.queue.mem a = mem a
  sound : s.Calls (·.Sound uxLength)

omit [DecidableEq τ] in
theorem faithful_boot (S : Storage uxLength uxItemSize) (mem : Nat → UInt8) :
    Faithful S mem (QueueTasks.boot S mem : QueueTasks τ uxItemSize) [] :=
  ⟨⟨[], replay_nil, stores_reset S mem⟩, fun _ _ => rfl, fun t c stage h => by cases h⟩

theorem faithful_run (S : Storage uxLength uxItemSize) (uxPriority : τ → Nat) (mem : Nat → UInt8)
    (hsize : ∀ l ∈ sched, l.Overwrites → uxItemSize ≠ 0) :
    Faithful S mem (Runs.run (QueueTasks.step S uxPriority) (.boot S mem) sched)
      (Runs.trace (QueueTasks.step S uxPriority) (QueueTasks.events S) (.boot S mem) sched) := by
  refine Runs.trace_inv_of_steps (Faithful S mem) ?_ (faithful_boot S mem) (Runs.steps_of_forall _ hsize)
  rintro s es l ⟨⟨items, hreplay, hstores⟩, houtside, hsound⟩ hl
  have hfollows : Follows S items s.queue (s.events S l) (s.step S uxPriority l).queue := follows_step hstores hsound hl
  obtain ⟨items', hreplay', hstores', hframe⟩ := hfollows
  refine ⟨⟨items', ?_, hstores'⟩, ?_, sound_step hsound hl⟩
  · rw [replay_append, hreplay]
    exact hreplay'
  · intro a ha
    rw [hframe a ha, houtside a ha]

/-! ### In order -/

/-- What is sent to the back and what is received, over a list of events that a queue can show. -/
theorem items_of_replay {items items' : List (Vector UInt8 uxItemSize)} {es : List (QueueEvent uxItemSize)}
    (hback : ∀ x p, .sent x p ∈ es → p = .queueSEND_TO_BACK) (h : replay uxLength items es = some items') :
    items ++ sentItems es = receivedItems es ++ items' := by
  induction es generalizing items with
  | nil =>
    obtain rfl := Option.some_inj.mp h
    simp [sentItems, receivedItems]
  | cons e es ih =>
    rw [← List.singleton_append, replay_append, replay_singleton] at h
    obtain ⟨mid, hact, hrest⟩ := Option.bind_eq_some_iff.mp h
    have hih := ih (fun x p hx => hback x p (List.mem_cons_of_mem e hx)) hrest
    cases e with
    | sent x p =>
      obtain rfl := hback x p List.mem_cons_self
      simp only [QueueEvent.act, Option.ite_none_right_eq_some, Option.some_inj] at hact
      obtain ⟨-, rfl⟩ := hact
      simpa [sentItems, receivedItems] using hih
    | received x =>
      simp only [QueueEvent.act, Option.ite_none_right_eq_some, Option.some_inj] at hact
      obtain ⟨hhead, rfl⟩ := hact
      obtain ⟨rest, rfl⟩ := List.head?_eq_some_iff.mp hhead
      simpa [sentItems, receivedItems] using hih
    | peeked x =>
      simp only [QueueEvent.act, Option.ite_none_right_eq_some, Option.some_inj] at hact
      obtain ⟨-, rfl⟩ := hact
      simpa [sentItems, receivedItems] using hih

/-- Calls that send to the back have events that do. -/
theorem events_back (hcalls : s.Calls QueueCall.SendsBack) {l : QueueLabel τ uxItemSize} (hl : l.SendsBack)
    {x : Vector UInt8 uxItemSize} {p : CopyPosition} (h : .sent x p ∈ s.events S l) : p = .queueSEND_TO_BACK := by
  cases l with
  | call t c => cases h
  | tick t => cases h
  | run t expired =>
    simp only [QueueTasks.events] at h
    split at h
    next c htask =>
      have hc := hcalls t c _ htask
      cases c <;> simp only [XQueue.events] at h
      · split at h
        · split at h
          · simp only [List.mem_singleton, QueueEvent.sent.injEq] at h
            rw [h.2]
            exact hc
          · cases h
        · cases h
      · split at h
        · split at h <;> simp at h
        · cases h
      · split at h
        · split at h <;> simp at h
        · cases h
    next => cases h
  | xQueueGenericSendFromISR y xCopyPosition =>
    simp only [QueueTasks.events] at h
    split at h
    · simp only [List.mem_singleton, QueueEvent.sent.injEq] at h
      rw [h.2]
      exact hl
    · cases h
  | xQueueReceiveFromISR =>
    simp only [QueueTasks.events] at h
    split at h <;> simp at h

/-- Calls and events that send to the back. -/
def BackOnly (s : QueueTasks τ uxItemSize) (es : List (QueueEvent uxItemSize)) : Prop :=
  s.Calls QueueCall.SendsBack ∧ ∀ x p, .sent x p ∈ es → p = .queueSEND_TO_BACK

theorem backOnly_run (S : Storage uxLength uxItemSize) (uxPriority : τ → Nat) (mem : Nat → UInt8)
    (hback : ∀ l ∈ sched, l.SendsBack) :
    BackOnly (Runs.run (QueueTasks.step S uxPriority) (.boot S mem) sched)
      (Runs.trace (QueueTasks.step S uxPriority) (QueueTasks.events S) (.boot S mem) sched) := by
  refine Runs.trace_inv_of_steps BackOnly ?_ ?_ (Runs.steps_of_forall _ hback)
  · rintro s es l ⟨hcalls, hes⟩ hl
    refine ⟨calls_step hcalls ?_, ?_⟩
    · rintro t c rfl -
      exact hl
    · intro x p hx
      rcases List.mem_append.mp hx with hx | hx
      · exact hes x p hx
      · exact events_back hcalls hl hx
  · refine ⟨?_, ?_⟩
    · intro t c stage h
      cases h
    · intro x p hx
      cases hx

omit [DecidableEq τ] in
/-- A label that sends to the back does not overwrite. -/
theorem not_overwrites {l : QueueLabel τ uxItemSize} (h : l.SendsBack) : ¬l.Overwrites := by
  intro ho
  cases l with
  | call t c =>
    cases c with
    | xQueueGenericSend x p =>
      obtain rfl : p = .queueSEND_TO_BACK := h
      cases ho
    | xQueueReceive => exact ho
    | xQueuePeek => exact ho
  | run t expired => exact ho
  | tick t => exact ho
  | xQueueGenericSendFromISR x p =>
    obtain rfl : p = .queueSEND_TO_BACK := h
    cases ho
  | xQueueReceiveFromISR => exact ho

/-! ### Whom a queue wakes -/

section Wakes

variable [Fintype τ]

/-- What is kept where interrupts only send, or only receive, and count no further than the `int8_t` goes. -/
structure Awake (S : Storage uxLength uxItemSize) (uxPriority : τ → Nat) (w : Side) (s : QueueTasks τ uxItemSize) : Prop where
  stores : ∃ items, Stores S s.queue items
  sound : s.Calls (·.Sound uxLength)
  wakes : Wakes uxLength uxPriority s
  covered : s.Covered uxLength w

theorem awake_run (S : Storage uxLength uxItemSize) (uxPriority : τ → Nat) (mem : Nat → UInt8) {w : Side}
    (hlen : uxLength ≤ 127) (hl : ∀ l ∈ sched, (l.Overwrites → uxItemSize ≠ 0) ∧ l.OneWay w) :
    Awake S uxPriority w (Runs.run (QueueTasks.step S uxPriority) (.boot S mem) sched) := by
  refine (Runs.always_of_steps (Awake S uxPriority w) ?_ ?_ (Runs.steps_of_forall _ hl)).last
  · rintro s l ⟨⟨items, hstores⟩, hsound, hwakes, hcovered⟩ ⟨hsize, honeWay⟩
    have hfits : s.queue.uxMessagesWaiting ≤ uxLength := hstores.uxMessagesWaiting ▸ hstores.length_le
    have hcount := canCount_of_covered hcovered hlen honeWay
    have hfollows : Follows S items s.queue (s.events S l) (s.step S uxPriority l).queue := follows_step hstores hsound hsize
    obtain ⟨items', -, hstores', -⟩ := hfollows
    exact ⟨⟨items', hstores'⟩, sound_step hsound hsize, wakes_step hwakes hsound hsize hcount,
      covered_step hcovered hwakes hfits honeWay hcount⟩
  · refine ⟨⟨[], stores_reset S mem⟩, ?_, wakes_boot S uxPriority mem, ?_⟩
    · intro t c stage h
      cases h
    · intro side
      rw [show ((QueueTasks.boot S mem : QueueTasks τ uxItemSize).lock side).toInt = -1 from toInt_queueUNLOCKED]
      split <;> omega

omit [DecidableEq τ] in
/-- While no task has suspended the scheduler, those on their way to a critical section are at it. -/
theorem heading_of_returnsIn (h : Wakes uxLength uxPriority s) (hnone : s.uxSchedulerSuspended = none) {side : Side} {t : τ}
    (hret : returnsIn side (s.task t) = true) (ht : t ∉ s.waiting side) : s.Heading side t := by
  refine ⟨ht, ?_⟩
  have hfree : suspendsIn (s.task t) = false := by
    rw [← Bool.not_eq_true, ← h.holder t, hnone]
    exact fun he => by cases he
  rcases htask : s.task t with _ | ⟨c, stage⟩
  · rw [htask] at hret
    cases hret
  · rw [htask] at hret hfree
    simp only [returnsIn, decide_eq_true_iff] at hret
    simp only [Option.any_some, decide_eq_true_iff]
    refine ⟨hret.1, ?_⟩
    obtain ⟨-, hstage⟩ := hret
    cases stage <;> first | rfl | cases hstage | cases hfree

/-- There is no more for those who wait than for those who are awake. -/
theorem amount_le_heading (h : Wakes uxLength uxPriority s) (hnone : s.uxSchedulerSuspended = none) {side : Side}
    (hwait : s.waiting side ≠ []) :
    s.queue.amount uxLength side ≤ (Finset.univ.filter fun t => s.Heading side t).card := by
  have hlock : s.lock side = queueUNLOCKED := by
    by_contra hne
    obtain ⟨t, ht⟩ := (h.locked side).mp hne
    have := (h.holder t).mpr (suspendsIn_of_locksIn ht)
    rw [hnone] at this
    cases this
  have henough := (h.line side).enough hwait
  rw [hlock, toInt_queueUNLOCKED] at henough
  have hsub : (Finset.univ.filter fun t => returnsIn side (s.task t) = true) ⊆
      (s.waiting side).toFinset ∪ Finset.univ.filter fun t => s.Heading side t := by
    intro t ht
    have hret := (Finset.mem_filter.mp ht).2
    by_cases hmem : t ∈ s.waiting side
    · exact Finset.mem_union_left _ (List.mem_toFinset.mpr hmem)
    · exact Finset.mem_union_right _ (Finset.mem_filter.mpr ⟨Finset.mem_univ t, heading_of_returnsIn h hnone hret hmem⟩)
  have hcard := (Finset.card_le_card hsub).trans (Finset.card_union_le _ _)
  have hlist := List.toFinset_card_le (s.waiting side)
  unfold returning at henough
  omega

end Wakes

/-! ### One interrupt too many -/

/-- A task is on the list of those who wait for an item, about to unlock the queue, and interrupts have sent this many items. -/
structure Asleep (t : τ) (k : Nat) (s : QueueTasks τ uxItemSize) : Prop where
  waiting : s.waiting .receive = [t]
  lock : s.lock .receive = Int8.ofNat k
  count : s.queue.uxMessagesWaiting = k
  task : s.task = Function.update (fun _ => none) t (some (.xQueueReceive, .unlockTx false))
  held : s.uxSchedulerSuspended = some t

/-- A task finds a new queue empty and puts itself on the list. -/
theorem asleep_start (S : Storage uxLength uxItemSize) (uxPriority : τ → Nat) (mem : Nat → UInt8) (t : τ) :
    Asleep t 0 (Runs.run (QueueTasks.step S uxPriority) (.boot S mem)
      (.call t .xQueueReceive :: List.replicate 6 (.run t false))) := by
  constructor <;>
    simp [List.replicate, QueueTasks.step, QueueTasks.boot, QueueTasks.Ready, QueueCall.permitted, QueueTasks.runTask,
      QueueTasks.critical, xQueueGenericReset, QueueTasks.goOn, XQueue.lacks, QueueCall.side, vListInsert, prvLockQueue,
      queueUNLOCKED, queueLOCKED_UNMODIFIED]

/-- An interrupt sends. -/
theorem asleep_send {t : τ} {k : Nat} (h : Asleep t k s) (hk : k < 128) (hlen : k < uxLength) (x : Vector UInt8 uxItemSize) :
    Asleep t (k + 1) (s.step S uxPriority (.xQueueGenericSendFromISR x .queueSEND_TO_BACK)) := by
  have htakes : s.queue.takes uxLength .queueSEND_TO_BACK = true := by simp [XQueue.takes, h.count, hlen]
  have hperm : CopyPosition.permitted uxLength .queueSEND_TO_BACK = true := by simp [CopyPosition.permitted]
  have hlocked : s.lock .receive ≠ queueUNLOCKED := by
    rw [h.lock]
    intro he
    have := congrArg Int8.toInt he
    rw [Int8.toInt_ofNat_of_lt hk, toInt_queueUNLOCKED] at this
    omega
  have hcount : (prvCopyDataToQueue S s.queue x .queueSEND_TO_BACK).uxMessagesWaiting = s.queue.uxMessagesWaiting + 1 := by
    unfold prvCopyDataToQueue
    split <;> rfl
  simp only [QueueTasks.step, hperm, htakes, and_self, if_true, QueueTasks.notify, if_neg hlocked]
  refine ⟨h.waiting, ?_, ?_, h.task, h.held⟩
  · simp only [Function.update_self]
    rw [h.lock, Int8.ofNat_add]
    rfl
  · simp only [hcount, h.count]

/-- Interrupts send one item after another. -/
theorem asleep_sends {t : τ} {k : Nat} (h : Asleep t 0 s) (hk : k ≤ 128) (hlen : k ≤ uxLength) (x : Vector UInt8 uxItemSize) :
    Asleep t k (Runs.run (QueueTasks.step S uxPriority) s
      (List.replicate k (.xQueueGenericSendFromISR x .queueSEND_TO_BACK))) := by
  induction k with
  | zero => exact h
  | succ k ih =>
    rw [List.replicate_succ', Runs.run_snoc]
    exact asleep_send (ih (by omega) (by omega)) (by omega) (by omega) x

/-- The task goes on, and is not woken: the count has become negative. -/
theorem asleep_end {t : τ} (h : Asleep t 128 s) :
    let s' := Runs.run (QueueTasks.step S uxPriority) s (List.replicate 3 (.run t false))
    s'.uxSchedulerSuspended = none ∧ s'.waiting .receive = [t] ∧ s'.queue.uxMessagesWaiting = 128 ∧
      ∀ u, ¬s'.Heading .receive u := by
  obtain ⟨hwaiting, hlock, hcount, htask, hheld⟩ := h
  intro s'
  have hs' : s'.uxSchedulerSuspended = none ∧ s'.waiting .receive = [t] ∧ s'.queue.uxMessagesWaiting = 128 ∧
      s'.task = Function.update (fun _ => none) t (some (.xQueueReceive, .critical)) := by
    simp [s', List.replicate, QueueTasks.step, QueueTasks.Ready, QueueTasks.runTask, QueueTasks.unlock, QueueTasks.goOn,
      wakeCounted, hwaiting, hlock, hcount, htask, hheld]
  obtain ⟨hnone, hwaiting', hcount', htask'⟩ := hs'
  refine ⟨hnone, hwaiting', hcount', ?_⟩
  rintro u ⟨hu, hany⟩
  rw [hwaiting', List.mem_singleton] at hu
  rw [htask', Function.update_of_ne hu] at hany
  cases hany

end QueueTasksAux

open QueueTasksAux

/-- A queue of five addresses. -/
def Storage.sample : Storage 5 4 where
  pcHead := 0x10080100
  uxLength_pos := by decide
  uxItemSize_lt := by decide
  storage_end := by decide

/-- Two tasks and an interrupt: one waits, the interrupt sends while the queue is locked, the other looks and the first receives. -/
def schedSample : List (QueueLabel Bool 4) :=
  .call true .xQueueReceive :: List.replicate 6 (.run true false) ++
    [.xQueueGenericSendFromISR #v[1, 2, 3, 4] .queueSEND_TO_BACK, .run true false, .run true false, .run true false,
      .call false .xQueuePeek, .run false false, .run true false]

theorem schedSample_oneWay : ∀ l ∈ schedSample, (l.Overwrites → (4 : Nat) ≠ 0) ∧ l.OneWay .receive := by
  simp [schedSample, QueueLabel.OneWay]

/-- Over every interleaving of tasks and interrupts, what happens at a queue happens, in one order, to a list that never gets longer
than the queue: the bytes in the storage area are the items of the list, and no byte outside is written. Items without bytes are not
overwritten. -/
theorem queue_linearizes {τ : Type} [DecidableEq τ] {uxLength uxItemSize : Nat} (S : Storage uxLength uxItemSize)
    (uxPriority : τ → Nat) (mem : Nat → UInt8) (sched : List (QueueLabel τ uxItemSize))
    (hsize : ∀ l ∈ sched, l.Overwrites → uxItemSize ≠ 0) :
    (∃ items, replay uxLength [] (Runs.trace (QueueTasks.step S uxPriority) (QueueTasks.events S) (.boot S mem) sched) =
        some items ∧ Stores S (Runs.run (QueueTasks.step S uxPriority) (.boot S mem) sched).queue items) ∧
      ∀ a, ¬S.Covers a → (Runs.run (QueueTasks.step S uxPriority) (.boot S mem) sched).queue.mem a = mem a :=
  have h := faithful_run S uxPriority mem hsize
  ⟨h.stores, h.outside⟩

theorem queue_linearizes_sample :
    (∃ items, replay 5 [] (Runs.trace (QueueTasks.step .sample Bool.toNat) (QueueTasks.events .sample)
        (.boot .sample fun _ => 0) schedSample) = some items ∧
        Stores .sample (Runs.run (QueueTasks.step .sample Bool.toNat) (.boot .sample fun _ => 0) schedSample).queue items) ∧
      ∀ a, ¬Storage.sample.Covers a →
        (Runs.run (QueueTasks.step .sample Bool.toNat) (.boot .sample fun _ => 0) schedSample).queue.mem a = 0 :=
  queue_linearizes .sample _ _ schedSample fun l hl => (schedSample_oneWay l hl).1

/-- Where everything is sent to the back, every item is received at most once and in the order of sending, and those that were not
received are the ones in the storage area. -/
theorem received_in_order {τ : Type} [DecidableEq τ] {uxLength uxItemSize : Nat} (S : Storage uxLength uxItemSize)
    (uxPriority : τ → Nat) (mem : Nat → UInt8) (sched : List (QueueLabel τ uxItemSize)) (hback : ∀ l ∈ sched, l.SendsBack) :
    ∃ items, Stores S (Runs.run (QueueTasks.step S uxPriority) (.boot S mem) sched).queue items ∧
      sentItems (Runs.trace (QueueTasks.step S uxPriority) (QueueTasks.events S) (.boot S mem) sched) =
        receivedItems (Runs.trace (QueueTasks.step S uxPriority) (QueueTasks.events S) (.boot S mem) sched) ++ items := by
  have hsize : ∀ l ∈ sched, l.Overwrites → uxItemSize ≠ 0 := fun l hl ho => absurd ho (not_overwrites (hback l hl))
  obtain ⟨items, hreplay, hstores⟩ := (faithful_run S uxPriority mem hsize).stores
  refine ⟨items, hstores, ?_⟩
  rw [← items_of_replay (backOnly_run S uxPriority mem hback).2 hreplay, List.nil_append]

theorem received_in_order_sample :
    ∃ items, Stores .sample (Runs.run (QueueTasks.step .sample Bool.toNat) (.boot .sample fun _ => 0) schedSample).queue items ∧
      sentItems (Runs.trace (QueueTasks.step .sample Bool.toNat) (QueueTasks.events .sample)
          (.boot .sample fun _ => 0) schedSample) =
        receivedItems (Runs.trace (QueueTasks.step .sample Bool.toNat) (QueueTasks.events .sample)
          (.boot .sample fun _ => 0) schedSample) ++ items :=
  received_in_order .sample _ _ schedSample (by simp [schedSample, QueueLabel.SendsBack, QueueCall.SendsBack])

/-- No wake-up is lost: whenever the scheduler runs and tasks wait for items, or for room, there are no more items, or no more room,
than tasks that are awake and about to look. So if none is, the queue is empty, or full. The first to be woken has the highest
priority of those who wait, as long as their priorities do not change. -/
theorem no_lost_wakeup {τ : Type} [DecidableEq τ] [Fintype τ] {uxLength uxItemSize : Nat}
    (S : Storage uxLength uxItemSize) (uxPriority : τ → Nat) (mem : Nat → UInt8) (w : Side)
    (sched : List (QueueLabel τ uxItemSize)) (hlen : uxLength ≤ 127)
    (hl : ∀ l ∈ sched, (l.Overwrites → uxItemSize ≠ 0) ∧ l.OneWay w) (side : Side) :
    let s := Runs.run (QueueTasks.step S uxPriority) (.boot S mem) sched
    (s.uxSchedulerSuspended = none → s.waiting side ≠ [] →
        s.queue.amount uxLength side ≤ (Finset.univ.filter fun t => s.Heading side t).card) ∧
      ∀ t ∈ (s.waiting side).head?, ∀ u ∈ s.waiting side, uxPriority u ≤ uxPriority t := by
  intro s
  have h := (awake_run S uxPriority mem hlen hl).wakes
  refine ⟨fun hnone hwait => amount_le_heading h hnone hwait, ?_⟩
  intro t ht u hu
  obtain ⟨rest, hrest⟩ := List.head?_eq_some_iff.mp ht
  have hsorted := (h.line side).sorted
  rw [hrest] at hsorted hu
  rcases List.mem_cons.mp hu with rfl | hu
  · exact Nat.le_refl _
  · exact (List.pairwise_cons.mp hsorted).1 u hu

theorem no_lost_wakeup_sample :
    let s := Runs.run (QueueTasks.step .sample Bool.toNat) (.boot .sample fun _ => 0) schedSample
    (s.uxSchedulerSuspended = none → s.waiting .receive ≠ [] →
        s.queue.amount 5 .receive ≤ (Finset.univ.filter fun t => s.Heading .receive t).card) ∧
      ∀ t ∈ (s.waiting .receive).head?, ∀ u ∈ s.waiting .receive, u.toNat ≤ t.toNat :=
  no_lost_wakeup .sample Bool.toNat _ .receive schedSample (by decide) schedSample_oneWay .receive

/-- A wake-up is lost when interrupts send 128 items to a queue that is locked by a task which has found it empty: the count has run over,
and the task stays on the event list with 128 items in the queue and nobody on the way to wake it. -/
theorem wakeup_lost {τ : Type} [DecidableEq τ] {uxLength uxItemSize : Nat} (S : Storage uxLength uxItemSize)
    (uxPriority : τ → Nat) (mem : Nat → UInt8) (t : τ) (x : Vector UInt8 uxItemSize) (hlen : 128 ≤ uxLength) :
    ∃ sched : List (QueueLabel τ uxItemSize), (∀ l ∈ sched, l.SendsBack ∧ l.OneWay .receive) ∧
      let s := Runs.run (QueueTasks.step S uxPriority) (.boot S mem) sched
      s.uxSchedulerSuspended = none ∧ s.waiting .receive = [t] ∧ s.queue.uxMessagesWaiting = 128 ∧
        ∀ u, ¬s.Heading .receive u := by
  refine ⟨(.call t .xQueueReceive :: List.replicate 6 (.run t false)) ++
    List.replicate 128 (.xQueueGenericSendFromISR x .queueSEND_TO_BACK) ++ List.replicate 3 (.run t false), ?_, ?_⟩
  · intro l hl
    rcases List.mem_append.mp hl with hl | hl
    · rcases List.mem_append.mp hl with hl | hl
      · rcases List.mem_cons.mp hl with rfl | hl
        · exact ⟨trivial, trivial⟩
        · rw [List.eq_of_mem_replicate hl]
          exact ⟨trivial, trivial⟩
      · rw [List.eq_of_mem_replicate hl]
        exact ⟨rfl, rfl, by decide⟩
    · rw [List.eq_of_mem_replicate hl]
      exact ⟨trivial, trivial⟩
  · rw [Runs.run_append, Runs.run_append]
    exact asleep_end (asleep_sends (asleep_start S uxPriority mem t) (Nat.le_refl _) hlen x)

/-- A queue of as many items as an `int8_t` counts, and one more. -/
def Storage.long : Storage 128 4 where
  pcHead := 0x10080100
  uxLength_pos := by decide
  uxItemSize_lt := by decide
  storage_end := by decide

theorem wakeup_lost_sample :
    ∃ sched : List (QueueLabel Bool 4), (∀ l ∈ sched, l.SendsBack ∧ l.OneWay .receive) ∧
      let s := Runs.run (QueueTasks.step .long Bool.toNat) (.boot .long fun _ => 0) sched
      s.uxSchedulerSuspended = none ∧ s.waiting .receive = [true] ∧ s.queue.uxMessagesWaiting = 128 ∧
        ∀ u, ¬s.Heading .receive u :=
  wakeup_lost .long _ _ true #v[1, 2, 3, 4] (Nat.le_refl _)

end Rtu

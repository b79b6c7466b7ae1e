import Rtu.Lemmas.QueueTasks
import Mathlib.Algebra.BigOperators.Group.Finset.Piecewise
import Mathlib.Data.Fintype.Basic

/-!
# Helpers for tasks at a queue: who is woken

`returning` counts the tasks that are in a call and come to its critical section next, on an event list or not. `Line` is the
invariant of one event list: if tasks wait on it, there is no more for them than the returning tasks that do not wait will take and
interrupts have counted while the queue was locked. `Wakes` puts the two lists together with the scheduler and the lock.
-/

namespace Rtu

/-! ## What a task is about to do -/

/-- Whether a task at this stage has suspended the scheduler. -/
def Stage.suspends : Stage → Bool
  | .critical | .suspendAll | .probeLast => false
  | .lock | .check | .probe | .place | .unlockTx _ | .unlockRx _ | .resumeAll _ => true

/-- Whether it keeps interrupts from the event list of a side. -/
def Stage.locks : Side → Stage → Bool
  | _, .check | _, .probe | _, .place | _, .unlockTx _ => true
  | side, .unlockRx _ => side = .send
  | _, _ => false

/-- Whether it comes to the critical section of its call without another look at the queue or the clock. -/
def Stage.returning : Stage → Bool
  | .critical | .unlockTx false | .unlockRx false | .resumeAll false => true
  | _ => false

section Calls

variable {uxItemSize : Nat}

/-- What a task that is in a call, or in none, does next: has it suspended the scheduler. -/
def suspendsIn : Option (QueueCall uxItemSize × Stage) → Bool
  | some (_, stage) => stage.suspends
  | none => false

/-- Does it lock the list of a side. -/
def locksIn (side : Side) : Option (QueueCall uxItemSize × Stage) → Bool
  | some (_, stage) => stage.locks side
  | none => false

/-- Is it on its way to the critical section of a call that waits for a side. -/
def returnsIn (side : Side) : Option (QueueCall uxItemSize × Stage) → Bool
  | some (c, stage) => c.side = side ∧ stage.returning
  | none => false

end Calls

/-- How much there is for those who wait. -/
def XQueue.amount (q : XQueue) (uxLength : Nat) : Side → Nat
  | .send => uxLength - q.uxMessagesWaiting
  | .receive => q.uxMessagesWaiting

section Counting

variable {τ : Type} [DecidableEq τ] [Fintype τ] {uxItemSize : Nat} {task : τ → Option (QueueCall uxItemSize × Stage)}
  {t : τ} {side : Side}

/-- The number of tasks on their way to the critical section of a call that waits for a side, on the event list or not. -/
def returning (side : Side) (task : τ → Option (QueueCall uxItemSize × Stage)) : Nat :=
  (Finset.univ.filter fun t => returnsIn side (task t) = true).card

/-- The count after a task has gone on. -/
theorem returning_update (side : Side) (task : τ → Option (QueueCall uxItemSize × Stage)) (t : τ)
    (next : Option (QueueCall uxItemSize × Stage)) :
    returning side (Function.update task t next) + (returnsIn side (task t)).toNat =
      returning side task + (returnsIn side next).toNat := by
  have hsum : ∀ task : τ → Option (QueueCall uxItemSize × Stage),
      returning side task =
        (returnsIn side (task t)).toNat + ∑ u ∈ Finset.univ.erase t, (returnsIn side (task u)).toNat := by
    intro task
    rw [returning, Finset.card_filter, ← Finset.add_sum_erase _ _ (Finset.mem_univ t)]
    have hbit : ∀ b : Bool, (if b = true then 1 else 0) = b.toNat := by decide
    simp only [hbit]
  have hrest : ∑ u ∈ Finset.univ.erase t, (returnsIn side (Function.update task t next u)).toNat =
      ∑ u ∈ Finset.univ.erase t, (returnsIn side (task u)).toNat := by
    refine Finset.sum_congr rfl ?_
    intro u hu
    rw [Function.update_of_ne (Finset.ne_of_mem_erase hu)]
  rw [hsum, hsum task, hrest, Function.update_self]
  omega

/-- Tasks that are all on their way, each counted once, and another one. -/
theorem length_lt_returning {l : List τ} (hnodup : l.Nodup) (hl : ∀ u ∈ l, returnsIn side (task u) = true) (ht : t ∉ l)
    (hret : returnsIn side (task t) = true) : l.length < returning side task := by
  have hsub : insert t l.toFinset ⊆ Finset.univ.filter fun u => returnsIn side (task u) = true := by
    intro u hu
    rw [Finset.mem_insert, List.mem_toFinset] at hu
    rw [Finset.mem_filter]
    rcases hu with rfl | hu
    · exact ⟨Finset.mem_univ u, hret⟩
    · exact ⟨Finset.mem_univ u, hl u hu⟩
  have hcard := Finset.card_le_card hsub
  rw [Finset.card_insert_of_notMem (by rwa [List.mem_toFinset]), List.toFinset_card_of_nodup hnodup] at hcard
  exact hcard

end Counting

/-! ## The lists -/

section Lists

variable {τ : Type} (uxPriority : τ → Nat)

/-- A task that is put on an event list, and those who were there. -/
theorem perm_vListInsert (t : τ) (l : List τ) : (vListInsert uxPriority t l).Perm (t :: l) := by
  induction l with
  | nil => exact List.Perm.refl _
  | cons x l ih =>
    unfold vListInsert
    split
    · exact (ih.cons x).trans (List.Perm.swap t x l)
    · exact List.Perm.refl _

/-- An event list in order of priority stays so. -/
theorem pairwise_vListInsert (t : τ) {l : List τ} (h : l.Pairwise fun a b => uxPriority b ≤ uxPriority a) :
    (vListInsert uxPriority t l).Pairwise fun a b => uxPriority b ≤ uxPriority a := by
  induction l with
  | nil => exact List.pairwise_singleton _ t
  | cons x l ih =>
    obtain ⟨hx, hl⟩ := List.pairwise_cons.mp h
    unfold vListInsert
    split
    next hle =>
      refine List.pairwise_cons.mpr ⟨?_, ih hl⟩
      intro y hy
      rcases List.mem_cons.mp ((perm_vListInsert uxPriority t l).mem_iff.mp hy) with rfl | hy
      · exact hle
      · exact hx y hy
    next hlt =>
      refine List.pairwise_cons.mpr ⟨?_, h⟩
      intro y hy
      rcases List.mem_cons.mp hy with rfl | hy
      · omega
      · have := hx y hy
        omega

theorem toInt_queueUNLOCKED : queueUNLOCKED.toInt = -1 := by decide

/-- A count goes down by one. -/
theorem toInt_sub_one {c : Int8} (h : 0 < c.toInt) : (c - 1).toInt = c.toInt - 1 := by
  have hlt := c.toInt_lt
  rw [Int8.toInt_sub, show (1 : Int8).toInt = 1 from rfl]
  exact Int.bmod_eq_of_le (by omega) (by omega)

/-- It goes up by one unless it is the largest there is. -/
theorem toInt_add_one {c : Int8} (h : c.toInt < 127) : (c + 1).toInt = c.toInt + 1 := by
  have hle := c.le_toInt
  rw [Int8.toInt_add, show (1 : Int8).toInt = 1 from rfl]
  exact Int.bmod_eq_of_le (by omega) (by omega)

/-- The loop of `prvUnlockQueue` wakes as many as were counted, from the front. -/
theorem wakeCounted_eq (c : Int8) (l : List τ) : wakeCounted c l = l.drop c.toInt.toNat := by
  induction l generalizing c with
  | nil => simp [wakeCounted]
  | cons x l ih =>
    have hiff : c > queueLOCKED_UNMODIFIED ↔ 0 < c.toInt := Int8.lt_iff_toInt_lt
    unfold wakeCounted
    split
    next hc =>
      have hpos := hiff.mp hc
      have hsucc : c.toInt.toNat = (c.toInt - 1).toNat + 1 := by omega
      rw [ih, toInt_sub_one hpos, hsucc, List.drop_succ_cons]
    next hc =>
      have hzero : c.toInt.toNat = 0 := by
        have := mt hiff.mpr hc
        omega
      rw [hzero, List.drop_zero]

end Lists

/-! ## One event list -/

section Line

variable {τ : Type} [Fintype τ] {uxItemSize : Nat} {uxPriority : τ → Nat} {side : Side} {amount : Nat}
  {cLock : Int8} {waiting : List τ} {task : τ → Option (QueueCall uxItemSize × Stage)} {t : τ}

/-- An event list, beside what there is for those who wait on it and what was counted for them. -/
structure Line (uxPriority : τ → Nat) (side : Side) (amount : Nat) (cLock : Int8) (waiting : List τ)
    (task : τ → Option (QueueCall uxItemSize × Stage)) : Prop where
  counted : -1 ≤ cLock.toInt
  nodup : waiting.Nodup
  sorted : waiting.Pairwise fun a b => uxPriority b ≤ uxPriority a
  returns : ∀ t ∈ waiting, returnsIn side (task t) = true
  enough : waiting ≠ [] → amount + waiting.length ≤ returning side task + cLock.toInt.toNat

/-- Less for those who wait. -/
theorem Line.mono (h : Line uxPriority side amount cLock waiting task) {amount' : Nat} (hle : amount' ≤ amount) :
    Line uxPriority side amount' cLock waiting task :=
  ⟨h.counted, h.nodup, h.sorted, h.returns, fun hne => (Nat.add_le_add_right hle _).trans (h.enough hne)⟩

/-- One more, and the first who waits is woken. -/
theorem Line.wake (h : Line uxPriority side amount cLock waiting task) :
    Line uxPriority side (amount + 1) cLock waiting.tail task := by
  cases waiting with
  | nil => exact ⟨h.counted, h.nodup, h.sorted, h.returns, fun hne => absurd rfl hne⟩
  | cons x l =>
    refine ⟨h.counted, h.nodup.of_cons, h.sorted.of_cons, fun t ht => h.returns t (List.mem_cons_of_mem x ht), ?_⟩
    intro _
    have := h.enough (List.cons_ne_nil x l)
    rw [List.length_cons] at this
    rw [List.tail_cons]
    omega

/-- One more, counted by an interrupt. -/
theorem Line.count (h : Line uxPriority side amount cLock waiting task) (hlock : cLock ≠ queueUNLOCKED)
    (hlt : cLock.toInt < 127) : Line uxPriority side (amount + 1) (cLock + 1) waiting task := by
  have hadd := toInt_add_one hlt
  have hne : cLock.toInt ≠ -1 := fun he => hlock (Int8.toInt_inj.mp (he.trans toInt_queueUNLOCKED.symm))
  have hpos := h.counted
  refine ⟨by omega, h.nodup, h.sorted, h.returns, ?_⟩
  intro hw
  have := h.enough hw
  omega

/-- The list is locked. -/
theorem Line.lock (h : Line uxPriority side amount queueUNLOCKED waiting task) :
    Line uxPriority side amount queueLOCKED_UNMODIFIED waiting task :=
  ⟨by decide, h.nodup, h.sorted, h.returns, h.enough⟩

/-- It is unlocked, and those for whom was counted are woken. -/
theorem Line.unlock (h : Line uxPriority side amount cLock waiting task) :
    Line uxPriority side amount queueUNLOCKED (wakeCounted cLock waiting) task := by
  rw [wakeCounted_eq]
  refine ⟨by decide, h.nodup.sublist (List.drop_sublist _ _), h.sorted.sublist (List.drop_sublist _ _), ?_, ?_⟩
  · intro t ht
    exact h.returns t (List.mem_of_mem_drop ht)
  · intro hne
    have hlt : cLock.toInt.toNat < waiting.length := by
      rw [ne_eq, List.drop_eq_nil_iff] at hne
      omega
    have := h.enough (List.ne_nil_of_length_pos (Nat.zero_lt_of_lt hlt))
    rw [List.length_drop, toInt_queueUNLOCKED]
    omega

variable [DecidableEq τ]

/-- A task goes on that was not on its way, or still is. -/
theorem Line.goOn (h : Line uxPriority side amount cLock waiting task) {next : Option (QueueCall uxItemSize × Stage)}
    (hret : returnsIn side (task t) = true → returnsIn side next = true) :
    Line uxPriority side amount cLock waiting (Function.update task t next) := by
  have hcount := returning_update side task t next
  have hle : (returnsIn side (task t)).toNat ≤ (returnsIn side next).toNat := Bool.toNat_le_toNat hret
  refine ⟨h.counted, h.nodup, h.sorted, ?_, ?_⟩
  · intro u hu
    by_cases hut : u = t
    · subst hut
      rw [Function.update_self]
      exact hret (h.returns u hu)
    · rw [Function.update_of_ne hut]
      exact h.returns u hu
  · intro hne
    have := h.enough hne
    omega

/-- A task that was on its way, and on no list, leaves with one of what there is, or because there is nothing. -/
theorem Line.leave (h : Line uxPriority side amount cLock waiting task) (hret : returnsIn side (task t) = true) (ht : t ∉ waiting)
    (next : Option (QueueCall uxItemSize × Stage)) :
    Line uxPriority side (amount - 1) cLock waiting (Function.update task t next) := by
  have hcount := returning_update side task t next
  rw [hret, Bool.toNat_true] at hcount
  refine ⟨h.counted, h.nodup, h.sorted, ?_, ?_⟩
  · intro u hu
    rw [Function.update_of_ne (ne_of_mem_of_not_mem hu ht)]
    exact h.returns u hu
  · intro hne
    have := h.enough hne
    have := length_lt_returning h.nodup h.returns ht hret
    omega

/-- A task that is on its way puts itself on the list when there is no more than was counted. -/
theorem Line.insert (h : Line uxPriority side amount cLock waiting task) (ht : t ∉ waiting)
    (hret : returnsIn side (task t) = true) (hle : amount ≤ cLock.toInt.toNat) :
    Line uxPriority side amount cLock (vListInsert uxPriority t waiting) task := by
  have hperm := perm_vListInsert uxPriority t waiting
  refine ⟨h.counted, ?_, pairwise_vListInsert uxPriority t h.sorted, ?_, ?_⟩
  · exact hperm.nodup_iff.mpr (List.nodup_cons.mpr ⟨ht, h.nodup⟩)
  · intro u hu
    rcases List.mem_cons.mp (hperm.mem_iff.mp hu) with rfl | hu
    · exact hret
    · exact h.returns u hu
  · intro _
    have := length_lt_returning h.nodup h.returns ht hret
    rw [hperm.length_eq, List.length_cons]
    omega

/-- The wait of a task ends. -/
theorem Line.erase (h : Line uxPriority side amount cLock waiting task) (t : τ) :
    Line uxPriority side amount cLock (waiting.erase t) task := by
  refine ⟨h.counted, h.nodup.erase t, h.sorted.sublist List.erase_sublist, ?_, ?_⟩
  · intro u hu
    exact h.returns u (List.mem_of_mem_erase hu)
  · intro hne
    have hw : waiting ≠ [] := by
      rintro rfl
      exact hne rfl
    have := h.enough hw
    have := (List.erase_sublist (a := t) (l := waiting)).length_le
    omega

end Line

/-! ## The whole state -/

section Wakes

variable {τ : Type} [DecidableEq τ] [Fintype τ] {uxLength uxItemSize : Nat} {S : Storage uxLength uxItemSize}
  {uxPriority : τ → Nat} {s s' : QueueTasks τ uxItemSize} {q : XQueue} {t : τ} {side : Side} {c : QueueCall uxItemSize}
  {next : Option (QueueCall uxItemSize × Stage)}

/-- The two lists, the scheduler and the lock. -/
structure Wakes (uxLength : Nat) (uxPriority : τ → Nat) (s : QueueTasks τ uxItemSize) : Prop where
  /-- the task that has suspended the scheduler is the one that is past `vTaskSuspendAll` -/
  holder : ∀ t, s.uxSchedulerSuspended = some t ↔ suspendsIn (s.task t) = true
  locked : ∀ side, s.lock side ≠ queueUNLOCKED ↔ ∃ t, locksIn side (s.task t) = true
  /-- what is there for a task that is about to put itself on a list was counted -/
  placing : ∀ t c, s.task t = some (c, .place) → s.queue.amount uxLength c.side ≤ (s.lock c.side).toInt.toNat
  line : ∀ side, Line uxPriority side (s.queue.amount uxLength side) (s.lock side) (s.waiting side) s.task

omit [DecidableEq τ] [Fintype τ] in
/-- A task that locks a list has suspended the scheduler. -/
theorem suspendsIn_of_locksIn (h : locksIn side next = true) : suspendsIn next = true := by
  rcases next with _ | ⟨c, stage⟩
  · cases h
  · cases stage <;> first | rfl | cases h

omit [DecidableEq τ] in
/-- A task that can take a step is the one that has suspended the scheduler, or none has. -/
theorem Wakes.holder_of_ready (h : Wakes uxLength uxPriority s) (hready : s.Ready t) {u : τ}
    (hu : suspendsIn (s.task u) = true) : u = t := by
  have hsome := (h.holder u).mpr hu
  rcases hready with ht | ⟨hnone, -⟩
  · rw [hsome] at ht
    exact Option.some_inj.mp ht
  · rw [hsome] at hnone
    cases hnone

omit [DecidableEq τ] in
/-- Among those that can take a step, only the one that takes it can have locked a list. -/
theorem Wakes.locked_iff (h : Wakes uxLength uxPriority s) (hready : s.Ready t) (side : Side) :
    s.lock side ≠ queueUNLOCKED ↔ locksIn side (s.task t) = true := by
  rw [h.locked]
  constructor
  · rintro ⟨u, hu⟩
    obtain rfl := h.holder_of_ready hready (suspendsIn_of_locksIn hu)
    exact hu
  · intro ht
    exact ⟨t, ht⟩

/-- What a step of a task has to show. -/
theorem Wakes.move (h : Wakes uxLength uxPriority s) (hready : s.Ready t) (htask : s'.task = Function.update s.task t next)
    (hholder : s'.uxSchedulerSuspended = if suspendsIn next = true then some t else none)
    (hlocked : ∀ side, s'.lock side ≠ queueUNLOCKED ↔ locksIn side next = true)
    (hplacing : ∀ c, next = some (c, .place) → s'.queue.amount uxLength c.side ≤ (s'.lock c.side).toInt.toNat)
    (hline : ∀ side, Line uxPriority side (s'.queue.amount uxLength side) (s'.lock side) (s'.waiting side) s'.task) :
    Wakes uxLength uxPriority s' := by
  have hother : ∀ u, u ≠ t → suspendsIn (s'.task u) = false := by
    intro u hu
    rw [htask, Function.update_of_ne hu, ← Bool.not_eq_true]
    exact fun hs => hu (h.holder_of_ready hready hs)
  have hself : s'.task t = next := by rw [htask, Function.update_self]
  refine ⟨?_, ?_, ?_, hline⟩
  · intro u
    by_cases hu : u = t
    · subst hu
      rw [hholder, hself]
      split
      next hs => simp [hs]
      next hs => simp [hs]
    · rw [hother u hu, hholder]
      split
      · simp [Ne.symm hu]
      · simp
  · intro side
    rw [hlocked]
    constructor
    · intro hl
      exact ⟨t, by rwa [hself]⟩
    · rintro ⟨u, hl⟩
      by_cases hu : u = t
      · subst hu
        rwa [hself] at hl
      · have := hother u hu
        rw [suspendsIn_of_locksIn hl] at this
        cases this
  · intro u c hplace
    by_cases hu : u = t
    · subst hu
      rw [hself] at hplace
      exact hplacing c hplace
    · have := hother u hu
      rw [hplace] at this
      cases this

omit [DecidableEq τ] in
/-- A task that has not suspended the scheduler and can take a step is on no list, and nothing is locked. -/
theorem Wakes.free (h : Wakes uxLength uxPriority s) (hready : s.Ready t) (hsus : suspendsIn (s.task t) = false) :
    s.uxSchedulerSuspended = none ∧ ∀ side, t ∉ s.waiting side := by
  have hne : s.uxSchedulerSuspended ≠ some t := by
    rw [ne_eq, h.holder, hsus]
    decide
  obtain ⟨hnone, hsend, hreceive⟩ := hready.resolve_left hne
  refine ⟨hnone, ?_⟩
  intro side
  cases side with
  | send => exact hsend
  | receive => exact hreceive

/-- A task that goes on and does no more. -/
theorem Wakes.goOn (h : Wakes uxLength uxPriority s) (hready : s.Ready t) (hsus : suspendsIn next = suspendsIn (s.task t))
    (hlocks : ∀ side, locksIn side next = locksIn side (s.task t))
    (hret : ∀ side, returnsIn side (s.task t) = true →
      returnsIn side next = true ∨ suspendsIn next = false ∧ s.queue.amount uxLength side = 0)
    (hplacing : ∀ c, next = some (c, .place) → s.queue.amount uxLength c.side = 0) :
    Wakes uxLength uxPriority (s.goOn t next) := by
  refine h.move hready rfl ?_ ?_ ?_ ?_
  · rw [suspended_goOn, hsus]
    split
    next hs => exact (h.holder t).mpr hs
    next hs => exact (h.free hready (Bool.not_eq_true _ ▸ hs)).1
  · intro side
    rw [lock_goOn, h.locked_iff hready, hlocks]
  · intro c hc
    rw [queue_goOn, hplacing c hc]
    exact Nat.zero_le _
  · intro side
    by_cases hold : returnsIn side (s.task t) = true
    · rcases hret side hold with hnew | ⟨hs, hzero⟩
      · exact (h.line side).goOn fun _ => hnew
      · have hleave := (h.line side).leave (t := t) hold ((h.free hready (hsus ▸ hs)).2 side) next
        rw [hzero] at hleave
        rw [queue_goOn, hzero]
        exact hleave
    · exact (h.line side).goOn fun hr => absurd hr hold

/-- A task that finds what it came for: the queue has less for its own side, and more for the side that it wakes. -/
theorem Wakes.leave (h : Wakes uxLength uxPriority s) (hready : s.Ready t) (htask : s.task t = some (c, .critical)) (w : Side)
    (hamount : ∀ side, q.amount uxLength side ≤
      s.queue.amount uxLength side + (if side = w then 1 else 0) - (if side = c.side then 1 else 0)) :
    Wakes uxLength uxPriority { (s.wake w).goOn t none with queue := q } := by
  have hfree := h.free hready (by rw [htask]; rfl)
  refine h.move hready rfl hfree.1 ?_ (fun c hc => by cases hc) ?_
  · intro side
    have hlocked := h.locked_iff hready side
    rw [htask] at hlocked
    exact hlocked
  · intro side
    have hline : Line uxPriority side (s.queue.amount uxLength side + if side = w then 1 else 0) (s.lock side)
        ((s.wake w).waiting side) s.task := by
      by_cases hw : side = w
      · subst hw
        simpa [QueueTasks.wake] using (h.line side).wake
      · simpa [QueueTasks.wake, hw] using h.line side
    have hnot : t ∉ (s.wake w).waiting side := by
      by_cases hw : side = w
      · subst hw
        simpa [QueueTasks.wake] using fun ht => hfree.2 side (List.mem_of_mem_tail ht)
      · simpa [QueueTasks.wake, hw] using hfree.2 side
    have hle := hamount side
    by_cases hc : side = c.side
    · subst hc
      rw [if_pos rfl] at hle
      exact (hline.leave (by rw [htask]; simp [returnsIn, Stage.returning]) hnot none).mono hle
    · rw [if_neg hc] at hle
      refine (hline.goOn ?_).mono hle
      rw [htask]
      simp [returnsIn, Ne.symm hc]

/-! ### What is there after an operation -/

omit [DecidableEq τ] [Fintype τ] in
/-- A sent item is one more, unless it takes the place of the only one. -/
theorem count_sent {xCopyPosition : CopyPosition} (hsound : xCopyPosition.Sound uxLength uxItemSize)
    (x : Vector UInt8 uxItemSize) :
    (prvCopyDataToQueue S q x xCopyPosition).uxMessagesWaiting = q.uxMessagesWaiting + 1 ∨
      uxLength = 1 ∧ 0 < q.uxMessagesWaiting ∧
        (prvCopyDataToQueue S q x xCopyPosition).uxMessagesWaiting = q.uxMessagesWaiting := by
  unfold prvCopyDataToQueue
  by_cases hsize : uxItemSize = 0
  · exact Or.inl (by rw [if_pos hsize])
  · by_cases hback : xCopyPosition = .queueSEND_TO_BACK
    · exact Or.inl (by rw [if_neg hsize, if_pos hback])
    · by_cases hover : xCopyPosition = .queueOVERWRITE ∧ q.uxMessagesWaiting > 0
      · refine Or.inr ⟨(hsound hover.1).1, hover.2, ?_⟩
        simp only [if_neg hsize, if_neg hback, if_pos hover]
        exact Nat.succ_pred_eq_of_pos hover.2
      · refine Or.inl ?_
        simp only [if_neg hsize, if_neg hback, if_neg hover]

omit [DecidableEq τ] [Fintype τ] in
theorem amount_sent {xCopyPosition : CopyPosition} (hsound : xCopyPosition.Sound uxLength uxItemSize)
    (x : Vector UInt8 uxItemSize) (side : Side) :
    (prvCopyDataToQueue S q x xCopyPosition).amount uxLength side ≤
      q.amount uxLength side + (if side = .receive then 1 else 0) - (if side = .send then 1 else 0) := by
  have hcount := count_sent (S := S) (q := q) hsound x
  cases side <;> simp only [XQueue.amount, reduceCtorEq, if_false, if_true] <;> omega

omit [DecidableEq τ] [Fintype τ] in
theorem amount_taken (side : Side) :
    (q.taken S).amount uxLength side ≤
      q.amount uxLength side + (if side = .send then 1 else 0) - (if side = .receive then 1 else 0) := by
  cases side <;> simp only [XQueue.amount, XQueue.taken, reduceCtorEq, if_false, if_true]
  · omega
  · omega

omit [DecidableEq τ] [Fintype τ] in
theorem amount_peeked (side : Side) (pcReadFrom : Nat) :
    ({ (prvCopyDataFromQueue S q).2 with pcReadFrom } : XQueue).amount uxLength side = q.amount uxLength side := by
  unfold prvCopyDataFromQueue
  cases side <;> (split <;> rfl)

/-! ### One stage after another -/

/-- The critical section at the head of a call. -/
theorem Wakes.critical (h : Wakes uxLength uxPriority s) (hready : s.Ready t) (htask : s.task t = some (c, .critical))
    (hsound : c.Sound uxLength) (expired : Bool) : Wakes uxLength uxPriority (s.critical S t c expired) := by
  have hwait : s.queue.amount uxLength c.side = 0 →
      Wakes uxLength uxPriority (s.goOn t (if expired = true then none else some (c, .suspendAll))) := by
    intro hzero
    refine h.goOn hready ?_ ?_ ?_ ?_
    · rw [htask]
      cases expired <;> rfl
    · intro side
      rw [htask]
      cases expired <;> rfl
    · intro side hr
      have hside : c.side = side := by
        rw [htask] at hr
        simpa [returnsIn, Stage.returning] using hr
      refine Or.inr ⟨?_, hside ▸ hzero⟩
      cases expired <;> rfl
    · intro c' hc
      cases expired <;> cases hc
  cases c with
  | xQueueGenericSend x xCopyPosition =>
    simp only [QueueTasks.critical]
    split
    next => exact h.leave hready htask .receive (amount_sent hsound x)
    next htakes =>
      refine hwait ?_
      simp only [XQueue.takes, decide_eq_true_iff, not_or] at htakes
      simp only [QueueCall.side, XQueue.amount]
      omega
  | xQueueReceive =>
    simp only [QueueTasks.critical]
    split
    next => exact h.leave hready htask .send amount_taken
    next hpos => exact hwait (Nat.eq_zero_of_not_pos hpos)
  | xQueuePeek =>
    simp only [QueueTasks.critical]
    split
    next =>
      refine h.leave hready htask .receive ?_
      intro side
      rw [amount_peeked]
      exact Nat.le_of_eq (Nat.add_sub_cancel _ _).symm
    next hpos => exact hwait (Nat.eq_zero_of_not_pos hpos)

/-- A task locks the queue. -/
theorem Wakes.lock (h : Wakes uxLength uxPriority s) (hready : s.Ready t) (htask : s.task t = some (c, .lock)) :
    Wakes uxLength uxPriority ({ s with lock := prvLockQueue s.lock }.goOn t (some (c, .check))) := by
  have hunlocked : ∀ side, s.lock side = queueUNLOCKED := by
    intro side
    have hiff := h.locked_iff hready side
    rw [htask] at hiff
    exact not_not.mp (mt hiff.mp (by simp [locksIn, Stage.locks]))
  have hlock : prvLockQueue s.lock = fun _ => queueLOCKED_UNMODIFIED := funext fun side => if_pos (hunlocked side)
  rw [hlock]
  refine h.move hready rfl ((h.holder t).mpr (by rw [htask]; rfl)) ?_ (fun c hc => by cases hc) ?_
  · intro side
    have hne : queueLOCKED_UNMODIFIED ≠ queueUNLOCKED := by decide
    exact iff_of_true hne (by cases side <;> rfl)
  · intro side
    have hline := h.line side
    rw [hunlocked side] at hline
    refine hline.lock.goOn ?_
    rw [htask]
    simp [returnsIn, Stage.returning]

/-- It puts itself on the event list that it waits on. -/
theorem Wakes.place (h : Wakes uxLength uxPriority s) (hready : s.Ready t) (htask : s.task t = some (c, .place)) :
    Wakes uxLength uxPriority
      ({ s with waiting := Function.update s.waiting c.side (vListInsert uxPriority t (s.waiting c.side)) }.goOn t
        (some (c, .unlockTx false))) := by
  have hnot : t ∉ s.waiting c.side := by
    intro ht
    have := (h.line c.side).returns t ht
    rw [htask] at this
    simp [returnsIn, Stage.returning] at this
  refine h.move hready rfl ((h.holder t).mpr (by rw [htask]; rfl)) ?_ (fun c hc => by cases hc) ?_
  · intro side
    have hlocked := h.locked_iff hready side
    rw [htask] at hlocked
    cases side <;> exact hlocked
  · intro side
    have hline : Line uxPriority side (s.queue.amount uxLength side) (s.lock side) (s.waiting side)
        (Function.update s.task t (some (c, .unlockTx false))) := by
      refine (h.line side).goOn ?_
      rw [htask]
      simp [returnsIn, Stage.returning]
    by_cases hside : side = c.side
    · subst hside
      simp only [queue_goOn, lock_goOn, waiting_goOn, task_goOn, Function.update_self]
      exact hline.insert hnot (by simp [returnsIn, Stage.returning]) (h.placing t c htask)
    · simp only [queue_goOn, lock_goOn, waiting_goOn, task_goOn, Function.update_of_ne hside]
      exact hline

/-- Half of the queue is unlocked. -/
theorem Wakes.unlock (h : Wakes uxLength uxPriority s) (hready : s.Ready t) {stage stage' : Stage} (w : Side)
    (htask : s.task t = some (c, stage)) (hsus : stage.suspends = true) (hsus' : stage'.suspends = true)
    (hret : stage.returning = true → stage'.returning = true) (hplace : stage' ≠ .place)
    (hlocks : ∀ side, stage'.locks side = (stage.locks side && side != w)) :
    Wakes uxLength uxPriority ((s.unlock w).goOn t (some (c, stage'))) := by
  have hholder := (h.holder t).mpr (by rw [htask]; exact hsus)
  refine h.move hready rfl ?_ ?_ ?_ ?_
  · rw [suspendsIn, if_pos hsus']
    exact hholder
  · intro side
    have hlocked := h.locked_iff hready side
    rw [htask] at hlocked
    simp only [locksIn] at hlocked ⊢
    rw [hlocks side, lock_goOn, QueueTasks.unlock]
    by_cases hw : side = w
    · subst hw
      simp
    · simp only [Function.update_of_ne hw]
      rw [hlocked]
      simp [hw]
  · intro c' hc
    exact absurd (Prod.mk.inj (Option.some_inj.mp hc)).2 hplace
  · intro side
    have hline : Line uxPriority side (s.queue.amount uxLength side) (s.lock side) (s.waiting side)
        (Function.update s.task t (some (c, stage'))) := by
      refine (h.line side).goOn ?_
      rw [htask]
      simp only [returnsIn, decide_eq_true_iff]
      exact And.imp_right hret
    by_cases hw : side = w
    · subst hw
      simpa [QueueTasks.unlock] using hline.unlock
    · simpa [QueueTasks.unlock, hw] using hline

/-- A task in a call goes on. -/
theorem Wakes.runTask (h : Wakes uxLength uxPriority s) (hready : s.Ready t) {stage : Stage}
    (htask : s.task t = some (c, stage)) (hsound : c.Sound uxLength) (expired : Bool) :
    Wakes uxLength uxPriority (s.runTask S uxPriority t c expired stage) := by
  cases stage with
  | critical => exact h.critical hready htask hsound expired
  | suspendAll =>
    have hfree := h.free hready (by rw [htask]; rfl)
    refine h.move hready rfl rfl ?_ (fun c hc => by cases hc) ?_
    · intro side
      have hlocked := h.locked_iff hready side
      rw [htask] at hlocked
      exact hlocked
    · intro side
      exact (h.line side).goOn (by rw [htask]; simp [returnsIn, Stage.returning])
  | lock => exact h.lock hready htask
  | check =>
    refine h.goOn hready ?_ ?_ ?_ ?_
    · rw [htask]
      cases expired <;> rfl
    · intro side
      rw [htask]
      cases expired <;> cases side <;> rfl
    · intro side hr
      rw [htask] at hr
      simp [returnsIn, Stage.returning] at hr
    · intro c' hc
      cases expired <;> cases hc
  | probe =>
    refine h.goOn hready ?_ ?_ ?_ ?_
    · rw [htask]
      split <;> rfl
    · intro side
      rw [htask]
      split <;> cases side <;> rfl
    · intro side hr
      rw [htask] at hr
      simp [returnsIn, Stage.returning] at hr
    · intro c' hc
      split at hc
      next hlacks =>
        cases hc
        cases hside : c.side <;> simp_all [XQueue.lacks, XQueue.amount]
      next => cases hc
  | place => exact h.place hready htask
  | unlockTx e =>
    refine h.unlock hready .receive htask rfl rfl ?_ (by simp) ?_
    · cases e <;> decide
    · intro side
      cases side <;> rfl
  | unlockRx e =>
    refine h.unlock hready .send htask rfl rfl ?_ (by simp) ?_
    · cases e <;> decide
    · intro side
      cases side <;> rfl
  | resumeAll e =>
    have hlocked : ∀ side, ¬s.lock side ≠ queueUNLOCKED := by
      intro side
      rw [h.locked_iff hready side, htask]
      cases side <;> simp [locksIn, Stage.locks]
    refine h.move hready rfl ?_ ?_ ?_ ?_
    · cases e <;> cases hside : c.side <;> rfl
    · intro side
      refine iff_of_false (hlocked side) ?_
      cases e <;> cases hside : c.side <;> simp [locksIn, Stage.locks]
    · intro c' hc
      cases e <;> cases hside : c.side <;> simp [hside] at hc
    · intro side
      refine (h.line side).goOn ?_
      rw [htask]
      cases e <;> simp [returnsIn, Stage.returning]
  | probeLast =>
    refine h.goOn hready ?_ ?_ ?_ ?_
    · rw [htask]
      split <;> rfl
    · intro side
      rw [htask]
      split <;> rfl
    · intro side hr
      rw [htask] at hr
      simp [returnsIn, Stage.returning] at hr
    · intro c' hc
      split at hc <;> cases hc

omit [DecidableEq τ] in
/-- An interrupt adds something for those who wait for it. -/
theorem Wakes.notify (h : Wakes uxLength uxPriority s) (w : Side) (hlt : (s.lock w).toInt < 127)
    (hamount : ∀ side, q.amount uxLength side ≤ s.queue.amount uxLength side + (if side = w then 1 else 0)) :
    Wakes uxLength uxPriority { s.notify w with queue := q } := by
  unfold QueueTasks.notify
  split
  next hunlocked =>
    refine ⟨h.holder, h.locked, ?_, ?_⟩
    · intro t c hc
      have hlocks : locksIn c.side (s.task t) = true := by
        rw [show s.task t = some (c, .place) from hc]
        cases c.side <;> rfl
      have hne : c.side ≠ w := by
        rintro rfl
        exact (h.locked c.side).mpr ⟨t, hlocks⟩ hunlocked
      have hle := hamount c.side
      rw [if_neg hne] at hle
      exact hle.trans (h.placing t c hc)
    · intro side
      by_cases hw : side = w
      · subst hw
        have hle := hamount side
        rw [if_pos rfl] at hle
        simpa [QueueTasks.wake] using (h.line side).wake.mono hle
      · have hle := hamount side
        rw [if_neg hw] at hle
        simpa [QueueTasks.wake, hw] using (h.line side).mono hle
  next hlocked =>
    have hcount := (h.line w).count hlocked hlt
    have hadd := toInt_add_one hlt
    refine ⟨h.holder, ?_, ?_, ?_⟩
    · intro side
      rw [← h.locked side]
      by_cases hw : side = w
      · subst hw
        refine iff_of_true ?_ hlocked
        simp only [Function.update_self]
        intro he
        rw [he, toInt_queueUNLOCKED] at hadd
        have := (h.line side).counted
        omega
      · simp only [Function.update_of_ne hw]
    · intro t c hc
      have hle := hamount c.side
      have hplacing := h.placing t c hc
      have hpos := (h.line w).counted
      by_cases hw : c.side = w
      · subst hw
        rw [if_pos rfl] at hle
        have hne : (s.lock c.side).toInt ≠ -1 := fun he =>
          hlocked (Int8.toInt_inj.mp (he.trans toInt_queueUNLOCKED.symm))
        simp only [Function.update_self]
        omega
      · rw [if_neg hw] at hle
        simp only [Function.update_of_ne hw]
        exact hle.trans hplacing
    · intro side
      have hle := hamount side
      by_cases hw : side = w
      · subst hw
        rw [if_pos rfl] at hle
        simpa using hcount.mono hle
      · rw [if_neg hw] at hle
        simpa [hw] using (h.line side).mono hle

/-- Whether an interrupt that finds what it needs can still count. -/
def QueueTasks.CanCount (uxLength : Nat) (s : QueueTasks τ uxItemSize) : QueueLabel τ uxItemSize → Prop
  | .xQueueGenericSendFromISR _ xCopyPosition =>
    s.queue.takes uxLength xCopyPosition = true → (s.lock .receive).toInt < 127
  | .xQueueReceiveFromISR => s.queue.uxMessagesWaiting > 0 → (s.lock .send).toInt < 127
  | _ => True

/-- One step. -/
theorem wakes_step (h : Wakes uxLength uxPriority s) (hsound : s.Calls (·.Sound uxLength)) {l : QueueLabel τ uxItemSize}
    (hsize : l.Overwrites → uxItemSize ≠ 0) (hcount : s.CanCount uxLength l) : Wakes uxLength uxPriority (s.step S uxPriority l) := by
  cases l with
  | call t c =>
    simp only [QueueTasks.step]
    split
    next hif =>
      obtain ⟨hnone, hready, -⟩ := hif
      refine h.goOn hready ?_ ?_ ?_ (fun c hc => by cases hc)
      · rw [hnone]
        rfl
      · intro side
        rw [hnone]
        rfl
      · intro side hr
        rw [hnone] at hr
        cases hr
    next => exact h
  | run t expired =>
    simp only [QueueTasks.step]
    rcases htask : s.task t with _ | ⟨c, stage⟩
    · exact h
    · simp only []
      split
      next hready => exact h.runTask hready htask (hsound t c stage htask) expired
      next => exact h
  | tick t =>
    simp only [QueueTasks.step]
    split
    · exact ⟨h.holder, h.locked, h.placing, fun side => (h.line side).erase t⟩
    · exact h
  | xQueueGenericSendFromISR x xCopyPosition =>
    simp only [QueueTasks.step]
    split
    next hif =>
      refine h.notify .receive (hcount hif.2) ?_
      intro side
      exact (amount_sent (CopyPosition.sound_of_permitted hif.1 hsize) x side).trans (Nat.sub_le _ _)
    next => exact h
  | xQueueReceiveFromISR =>
    simp only [QueueTasks.step]
    split
    next hpos =>
      refine h.notify .send (hcount hpos) ?_
      intro side
      exact (amount_taken side).trans (Nat.sub_le _ _)
    next => exact h

omit [DecidableEq τ] in
/-- A new queue. -/
theorem wakes_boot (S : Storage uxLength uxItemSize) (uxPriority : τ → Nat) (mem : Nat → UInt8) :
    Wakes uxLength uxPriority (QueueTasks.boot S mem) := by
  refine ⟨?_, ?_, ?_, ?_⟩
  · intro t
    simp [QueueTasks.boot, suspendsIn]
  · intro side
    simp [QueueTasks.boot, locksIn]
  · intro t c hc
    cases hc
  · intro side
    refine ⟨?_, List.nodup_nil, List.Pairwise.nil, fun t ht => absurd ht List.not_mem_nil, fun hne => absurd rfl hne⟩
    simp [QueueTasks.boot, toInt_queueUNLOCKED]

/-! ### Interrupts that only send, or only receive -/

/-- Interrupts only add for those who wait on one side, and overwrite nothing. -/
def QueueLabel.OneWay (w : Side) : QueueLabel τ uxItemSize → Prop
  | .xQueueGenericSendFromISR _ xCopyPosition => w = .receive ∧ xCopyPosition ≠ .queueOVERWRITE
  | .xQueueReceiveFromISR => w = .send
  | _ => True

/-- All that was counted is still there. -/
def QueueTasks.Covered (uxLength : Nat) (w : Side) (s : QueueTasks τ uxItemSize) : Prop :=
  ∀ side, (s.lock side).toInt ≤ if side = w then (s.queue.amount uxLength side : Int) else 0

omit [DecidableEq τ] [Fintype τ] in
/-- A count of what is there does not get to the largest number in a queue of at most 127 items. -/
theorem canCount_of_covered {w : Side} (h : s.Covered uxLength w) (hlen : uxLength ≤ 127) {l : QueueLabel τ uxItemSize}
    (hl : l.OneWay w) : s.CanCount uxLength l := by
  cases l with
  | xQueueGenericSendFromISR x xCopyPosition =>
    obtain ⟨rfl, hne⟩ := hl
    intro htakes
    have hlt : s.queue.uxMessagesWaiting < uxLength := by simpa [XQueue.takes, hne] using htakes
    have hle := h .receive
    simp only [if_true, XQueue.amount] at hle
    omega
  | xQueueReceiveFromISR =>
    obtain rfl := hl
    intro hpos
    have hle := h .send
    simp only [if_true, XQueue.amount] at hle
    omega
  | call t c => trivial
  | run t expired => trivial
  | tick t => trivial

omit [DecidableEq τ] [Fintype τ] in
/-- An interrupt counts no more than one for what it adds. -/
theorem covered_notify {w : Side} (h : s.Covered uxLength w)
    (hamount : q.amount uxLength w = s.queue.amount uxLength w + 1) (hlt : (s.lock w).toInt < 127) :
    QueueTasks.Covered uxLength w { s.notify w with queue := q } := by
  have hle := h w
  rw [if_pos rfl] at hle
  intro side
  unfold QueueTasks.notify
  by_cases hw : side = w
  · subst hw
    rw [if_pos rfl, hamount]
    split
    next =>
      simp only [QueueTasks.wake]
      omega
    next =>
      simp only [Function.update_self]
      rw [toInt_add_one hlt]
      omega
  · have hother := h side
    rw [if_neg hw] at hother ⊢
    split
    next => exact hother
    next => simpa [hw] using hother

omit [Fintype τ] in
/-- The locks after a stage of a call. -/
theorem lock_runTask (s : QueueTasks τ uxItemSize) (t : τ) (c : QueueCall uxItemSize) (expired : Bool) (stage : Stage)
    (side : Side) : (s.runTask S uxPriority t c expired stage).lock side = s.lock side ∨
      stage ≠ .critical ∧ ((s.runTask S uxPriority t c expired stage).lock side).toInt ≤ 0 := by
  cases stage with
  | critical =>
    refine Or.inl ?_
    cases c <;> (simp only [QueueTasks.runTask, QueueTasks.critical]; split <;> rfl)
  | lock =>
    simp only [QueueTasks.runTask, lock_goOn, prvLockQueue]
    split
    · exact Or.inr ⟨by decide, by decide⟩
    · exact Or.inl rfl
  | unlockTx e =>
    simp only [QueueTasks.runTask, lock_goOn, QueueTasks.unlock]
    by_cases hside : side = .receive
    · subst hside
      exact Or.inr ⟨by simp, by rw [Function.update_self]; decide⟩
    · exact Or.inl (Function.update_of_ne hside _ _)
  | unlockRx e =>
    simp only [QueueTasks.runTask, lock_goOn, QueueTasks.unlock]
    by_cases hside : side = .send
    · subst hside
      exact Or.inr ⟨by simp, by rw [Function.update_self]; decide⟩
    · exact Or.inl (Function.update_of_ne hside _ _)
  | _ => exact Or.inl rfl

/-- A step counts no more than there is. -/
theorem covered_step {w : Side} (h : s.Covered uxLength w) (hwakes : Wakes uxLength uxPriority s)
    (hfits : s.queue.uxMessagesWaiting ≤ uxLength) {l : QueueLabel τ uxItemSize} (hl : l.OneWay w)
    (hcount : s.CanCount uxLength l) : (s.step S uxPriority l).Covered uxLength w := by
  cases l with
  | call t c =>
    simp only [QueueTasks.step]
    split <;> exact h
  | run t expired =>
    simp only [QueueTasks.step]
    rcases htask : s.task t with _ | ⟨c, stage⟩
    · exact h
    · simp only []
      split
      next hready =>
        intro side
        have hunlocked : stage = .critical → s.lock side = queueUNLOCKED := by
          rintro rfl
          have hiff := hwakes.locked_iff hready side
          rw [htask] at hiff
          exact not_not.mp (mt hiff.mp (by simp [locksIn, Stage.locks]))
        by_cases hstage : stage = .critical
        · rcases lock_runTask (S := S) s t c expired stage side with hsame | ⟨hne, -⟩
          · rw [hsame, hunlocked hstage, toInt_queueUNLOCKED]
            split <;> omega
          · exact absurd hstage hne
        · rw [queue_runTask hstage]
          rcases lock_runTask (S := S) s t c expired stage side with hsame | ⟨-, hle⟩
          · rw [hsame]
            exact h side
          · split <;> omega
      next => exact h
  | tick t =>
    simp only [QueueTasks.step]
    split <;> exact h
  | xQueueGenericSendFromISR x xCopyPosition =>
    obtain ⟨rfl, hne⟩ := hl
    simp only [QueueTasks.step]
    split
    next hif =>
      refine covered_notify h ?_ (hcount hif.2)
      simp only [XQueue.amount, prvCopyDataToQueue, hne, false_and, if_false]
      split
      · rfl
      · split <;> rfl
    next => exact h
  | xQueueReceiveFromISR =>
    obtain rfl := hl
    simp only [QueueTasks.step]
    split
    next hpos =>
      refine covered_notify h ?_ (hcount hpos)
      simp only [XQueue.amount, XQueue.taken]
      omega
    next => exact h

end Wakes

end Rtu

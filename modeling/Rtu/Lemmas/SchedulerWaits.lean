import Rtu.Lemmas.SchedulerRun

/-!
# Tasks that wait

What a step does to the tasks (`Moves`), and from it what it does to one that sleeps.
-/

namespace Rtu

open Rosters

variable {τ ε : Type}

namespace Scheduler

variable {S : TaskSet τ} {v : TaskItem τ → Nat} {k k' k'' : Scheduler τ ε} {t u : τ} [DecidableEq τ] [DecidableEq ε]

/-- The tasks that a step may unblock: a new one, those of the pending list, and the first of the list of an event. -/
def Unblocked (k : Scheduler τ ε) (e : KernelEvent τ ε) (t : τ) : Prop :=
  e = .xTaskCreate t ∧ k.state t = none ∨ k.event t = some .xPendingReadyList ∨
    ∃ l yield, e = .event l yield ∧ (k.lists.items (.eventList l)).head? = some (.xEventListItem t)

/-- What a step does to the tasks. -/
inductive Moves (S : TaskSet τ) (v : TaskItem τ → Nat) (k : Scheduler τ ε) (e : KernelEvent τ ε) :
    Scheduler τ ε → Prop
  /-- ticks are counted and tasks unblocked -/
  | ticked {k' : Scheduler τ ε} (n : Nat) (W : τ → Prop) (hticked : Ticked S n W k k')
      (hW : ∀ t, W t → Unblocked k e t) (hpended : k'.time + k'.uxPendedTicks =
        k.time + k.uxPendedTicks + if e = .sysTick then 1 else 0) : Moves S v k e k'
  /-- another task runs -/
  | switched (u : τ) (he : e = .pendSV) (hu : Chosen S k u) : Moves S v k e ({ k with pendSV := false }.switchTo S u)
  /-- an event comes while the scheduler is suspended -/
  | noted {k' : Scheduler τ ε} (t : τ) (l : ε) (yield y p : Bool) (he : e = .event l yield)
      (hhead : (k.lists.items (.eventList l)).head? = some (.xEventListItem t)) (hnoted : Noted S v t k k') :
      Moves S v k e { k' with xYieldPending := y, pendSV := p }
  /-- the running task goes to sleep -/
  | slept {k' : Scheduler τ ε} (n : Nat) (indefinite : Bool) (o : Option (TaskList ε)) (he : e = .proceed)
      (hcall : o = none ∧ indefinite = false ∧ k.running = .delaying n ∨
        ∃ l, o = some (.eventList l) ∧ indefinite = true ∧ k.running = .placing l n)
      (hready : Ready S k k.pxCurrentTCB) (hslept : Slept S n indefinite o k k') : Moves S v k e (k'.goTo .resuming)

/-- A step in which nobody moves and no tick is counted or missed. -/
theorem Moves.of_undisturbed (h : Steady S v k) {e : KernelEvent τ ε} (hsame : Undisturbed k k')
    (hpended : k'.uxPendedTicks = k.uxPendedTicks) (he : e ≠ .sysTick) : Moves S v k e k' := by
  refine .ticked 0 _ (hsame.ticked h.sound h.waiting) (fun _ => False.elim) ?_
  rw [if_neg he, hpended, Nat.add_zero, hsame.time]

/-- The new task is unblocked from the start. -/
theorem Made.ticked (hmade : Made S t k k') (h : Sound S v k) (hwaiting : k.Waiting) : Ticked S 0 (· = t) k k' := by
  have hdelayed : k'.pxDelayedTaskList = k.pxDelayedTaskList := by rw [hmade.frame]
  have hoverflow : k'.pxOverflowDelayedTaskList = k.pxOverflowDelayedTaskList := by rw [hmade.frame]
  have htick : k'.xTickCount = k.xTickCount := by rw [hmade.frame]
  have hnone : k.event t = none := by
    cases hevent : k.event t with
    | none => rfl
    | some l =>
      obtain ⟨-, m, hm, -⟩ := h.events t l hevent
      rw [hmade.absent] at hm
      cases hm
  refine ⟨?_, ?_, ?_, ?_, hmade.added.mono fun _ => Or.inl⟩
  · rw [Nat.add_zero, time, time, hmade.frame]
  · rintro u (rfl | ⟨-, hleft⟩)
    · rw [hmade.event]
      exact ⟨hmade.ready, hnone⟩
    · have := h.left_pos hwaiting u
      omega
  · intro u hu hasleep _
    unfold Asleep left at *
    rw [hmade.state u hu, hdelayed, hoverflow, hmade.wakeTime, htick, hmade.event]
    exact ⟨hasleep, Nat.add_zero _, rfl⟩
  · intro u hu hasleep
    unfold Asleep at *
    rw [hmade.state u hu, hdelayed, hoverflow, hmade.event]
    exact ⟨hasleep, rfl, rfl⟩

theorem step_moves (h : Steady S v k) (e : KernelEvent τ ε) : Moves S v k e (k.step S e) := by
  cases e with
  | sysTick =>
    rcases step_sysTick h.sound h.waiting with ⟨-, k₁, p, -, -, hticked, hkept, -, -, hstep⟩ | ⟨-, hstep⟩
    · rw [hstep]
      refine .ticked 1 _ (hticked.undisturbed rfl) (fun _ => False.elim) ?_
      show k₁.time + k₁.uxPendedTicks = _
      rw [hticked.time, hkept.pended, if_pos rfl]
      omega
    · rw [hstep]
      refine .ticked 0 _ (Undisturbed.ticked rfl h.sound h.waiting) (fun _ => False.elim) ?_
      show k.time + (k.uxPendedTicks + 1) = _
      rw [if_pos rfl, Nat.add_assoc]
  | pendSV =>
    rcases step_pendSV h with ⟨-, hstep⟩ | ⟨-, hstep⟩ | ⟨-, u, hu, hstep⟩
    · rw [hstep]
      exact .of_undisturbed h rfl rfl (by simp)
    · rw [hstep]
      exact .of_undisturbed h rfl rfl (by simp)
    · rw [hstep]
      exact .switched u rfl hu
  | event l yield =>
    rcases step_event h.sound l yield with ⟨-, hsame⟩ | ⟨t, k₁, y, p, hhead, -, hmoved, -, hstep⟩
    · rw [hsame]
      exact .of_undisturbed h rfl rfl (by simp)
    · rw [hstep]
      rcases hmoved with ⟨hsuspended, hwoke⟩ | ⟨hsuspended, hnoted⟩
      · obtain ⟨-, hticked⟩ := hwoke.ticked h.sound h.waiting
        refine .ticked 0 (· = t) (hticked.undisturbed rfl) ?_ ?_
        · rintro u rfl
          exact Or.inr (Or.inr ⟨l, yield, rfl, hhead⟩)
        · show k₁.time + k₁.uxPendedTicks = _
          rw [hticked.time, hwoke.frame.kept.pended, if_neg (by simp), Nat.add_zero, Nat.add_zero]
      · exact .noted t l yield _ _ rfl hhead hnoted
  | xTaskCreate t =>
    rcases step_xTaskCreate h.sound t with hsame | ⟨p, -, -, hmade, -, hstep⟩
    · rw [hsame]
      exact .of_undisturbed h rfl rfl (by simp)
    · rw [hstep]
      have hticked := hmade.ticked h.sound h.waiting
      refine .ticked 0 (· = t) (hticked.undisturbed rfl) ?_ ?_
      · rintro u rfl
        exact Or.inl ⟨rfl, hmade.absent⟩
      · show (k.make S t).time + (k.make S t).uxPendedTicks = _
        rw [hticked.time, show (k.make S t).uxPendedTicks = k.uxPendedTicks from rfl, if_neg (by simp), Nat.add_zero, Nat.add_zero]
  | vTaskSuspendAll =>
    simp only [step]
    split <;> exact .of_undisturbed h rfl rfl (by simp)
  | xTaskResumeAll =>
    by_cases hmay : k.Idle ∧ k.uxSchedulerSuspended ≠ 0
    · have hstep : k.step S .xTaskResumeAll = (k.xTaskResumeAll S).1 := by
        simp only [step, if_pos hmay]
      rw [hstep]
      by_cases hone : k.uxSchedulerSuspended = 1
      · obtain ⟨k', hresumed, hresult⟩ := resumeAll_spec h hone
        rw [hresult]
        have hticked := hresumed.ticked
        refine .ticked _ _ (hticked.undisturbed rfl) (fun t ht => Or.inr (Or.inl ht)) ?_
        show k'.time + k'.uxPendedTicks = _
        rw [hticked.time, hresumed.pended, if_neg (by simp), Nat.add_zero]
      · rw [xTaskResumeAll_nested S (by omega)]
        exact .of_undisturbed h rfl rfl (by simp)
    · simp only [step, if_neg hmay]
      exact .of_undisturbed h rfl rfl (by simp)
  | vTaskDelay n =>
    simp only [step]
    split
    · split <;> exact .of_undisturbed h rfl rfl (by simp)
    · exact .of_undisturbed h rfl rfl (by simp)
  | wait e n =>
    simp only [step]
    split <;> exact .of_undisturbed h rfl rfl (by simp)
  | proceed =>
    have hstep := step_proceed h
    generalize k.step S .proceed = k' at hstep
    cases hstep with
    | stays => exact .of_undisturbed h rfl rfl (by simp)
    | sleeps hcall hsuspended hready hsound hwaiting hslept => exact .slept _ _ _ rfl hcall hready hslept
    | resumes hcall hresumed hc =>
      rename_i k₁ c
      have hticked := hresumed.ticked
      refine .ticked _ _ (hticked.undisturbed rfl) (fun t ht => Or.inr (Or.inl ht)) ?_
      show k₁.time + k₁.uxPendedTicks = _
      rw [hticked.time, hresumed.pended, if_neg (by simp), Nat.add_zero]
    | yields hcall => exact .of_undisturbed h rfl rfl (by simp)

/-- Every tick is counted, or will be when the scheduler is resumed. -/
theorem step_ticks (h : Steady S v k) (e : KernelEvent τ ε) :
    (k.step S e).time + (k.step S e).uxPendedTicks = k.time + k.uxPendedTicks + if e = .sysTick then 1 else 0 := by
  have hmoves := step_moves h e
  generalize k.step S e = k' at hmoves
  cases hmoves with
  | ticked n W hticked hW hpended => exact hpended
  | switched u he hu =>
    show k.time + k.uxPendedTicks = _
    rw [he, if_neg (by simp), Nat.add_zero]
  | noted t l yield y p he hhead hnoted =>
    rename_i k₁
    show k₁.time + k₁.uxPendedTicks = _
    rw [hnoted.time, hnoted.pended, he, if_neg (by simp), Nat.add_zero]
  | slept n indefinite o he hcall hready hslept =>
    rename_i k₁
    show k₁.time + k₁.uxPendedTicks = _
    rw [hslept.time, hslept.kept.pended, he, if_neg (by simp), Nat.add_zero]

/-- A task comes to the pending list by an event of the list that it waits in. -/
theorem step_pending (h : Steady S v k) {e : KernelEvent τ ε} (hpending : (k.step S e).event t = some .xPendingReadyList) :
    k.event t = some .xPendingReadyList ∨ ∃ l yield, e = .event l yield ∧ k.event t = some (.eventList l) := by
  have hmoves := step_moves h e
  generalize k.step S e = k' at hmoves hpending
  cases hmoves with
  | ticked n W hticked hW _ =>
    left
    by_cases hwakes : W t ∨ k.Asleep t ∧ k.left t ≤ n
    · rw [(hticked.wakes t hwakes).2] at hpending
      cases hpending
    · obtain ⟨hWt, hlong⟩ := not_or.mp hwakes
      by_cases hasleep : k.Asleep t
      · have hlt : n < k.left t := Nat.lt_of_not_le fun hle => hlong ⟨hasleep, hle⟩
        exact (hticked.sleeps t hWt hasleep hlt).2.2.symm.trans hpending
      · exact (hticked.others t hWt hasleep).2.2.symm.trans hpending
  | switched u he hu => exact Or.inl hpending
  | noted u l yield y p he hhead hnoted =>
    by_cases hu : t = u
    · subst hu
      exact Or.inr ⟨l, yield, he, h.sound.event_of_head hhead⟩
    · exact Or.inl ((hnoted.event_others hu).symm.trans hpending)
  | slept n indefinite o he hcall hready hslept =>
    rename_i k₁
    left
    by_cases ht : t = k.pxCurrentTCB
    · subst ht
      have ho : o = some .xPendingReadyList := hslept.event_current.symm.trans hpending
      rcases hcall with ⟨hnone, -⟩ | ⟨l, hlist, -⟩
      · cases hnone.symm.trans ho
      · cases hlist.symm.trans ho
    · exact (hslept.event t ht).symm.trans hpending

/-! ## A task that sleeps -/

/-- The task sleeps until a time, or without an end. -/
def SleepsUntil (k : Scheduler τ ε) (t : τ) : Option Nat → Prop
  | some deadline => k.Asleep t ∧ k.time + k.left t = deadline
  | none => k.state t = some .xSuspendedTaskList

omit [DecidableEq τ] [DecidableEq ε] in
theorem state_ne_none_of_asleep (hasleep : k.Asleep t) : k.state t ≠ none := by
  intro hnone
  rcases hasleep with hl | hl
  · cases hnone.symm.trans hl
  · cases hnone.symm.trans hl

omit [DecidableEq τ] in
theorem SleepsUntil.state_ne_none {d : Option Nat} (hsleeps : k.SleepsUntil t d) : k.state t ≠ none := by
  cases d with
  | some deadline => exact state_ne_none_of_asleep hsleeps.1
  | none =>
    intro hnone
    cases hnone.symm.trans hsleeps

theorem SleepsUntil.not_ready {d : Option Nat} (hsleeps : k.SleepsUntil t d) (h : Sound S v k) : ¬Ready S k t := by
  intro hready
  cases d with
  | some deadline => exact h.not_asleep hready hsleeps.1
  | none => cases Option.some.inj ((show k.state t = _ from hready).symm.trans hsleeps)

/-- A task that sleeps wakes later. -/
theorem SleepsUntil.lt (h : Steady S v k) {deadline : Nat} (hsleeps : k.SleepsUntil t (some deadline)) : k.time < deadline := by
  have := h.sound.left_pos h.waiting t
  have := hsleeps.2
  omega

/-- What unblocks a task that was made. -/
def Signalled (k : Scheduler τ ε) (e : KernelEvent τ ε) (t : τ) : Prop :=
  k.event t = some .xPendingReadyList ∨
    ∃ l yield, e = .event l yield ∧ (k.lists.items (.eventList l)).head? = some (.xEventListItem t)

/-- A step leaves a task asleep, or its time or its event has come and it is ready. -/
theorem SleepsUntil.step (h : Steady S v k) {d : Option Nat} (hsleeps : k.SleepsUntil t d) (e : KernelEvent τ ε) :
    (k.step S e).SleepsUntil t d ∧
        ((k.step S e).event t = k.event t ∨ k.Signalled e t ∧ (k.step S e).event t = some .xPendingReadyList) ∨
      Ready S (k.step S e) t ∧ (k.step S e).event t = none ∧
        ((∃ deadline, d = some deadline ∧ deadline ≤ (k.step S e).time) ∨ k.Signalled e t) := by
  have hmoves := step_moves h e
  have h' := h.step e
  generalize k.step S e = k' at hmoves h'
  cases hmoves with
  | ticked n W hticked hW hpended =>
    by_cases hWt : W t
    · obtain ⟨hready, hnone⟩ := hticked.wakes t (Or.inl hWt)
      exact Or.inr ⟨hready, hnone, Or.inr ((hW t hWt).resolve_left fun h => hsleeps.state_ne_none h.2)⟩
    · cases d with
      | some deadline =>
        obtain ⟨hasleep, hleft⟩ := hsleeps
        by_cases hn : k.left t ≤ n
        · obtain ⟨hready, hnone⟩ := hticked.wakes t (Or.inr ⟨hasleep, hn⟩)
          refine Or.inr ⟨hready, hnone, Or.inl ⟨deadline, rfl, ?_⟩⟩
          rw [hticked.time]
          omega
        · obtain ⟨hasleep', hrest, hevent⟩ := hticked.sleeps t hWt hasleep (by omega)
          refine Or.inl ⟨⟨hasleep', ?_⟩, Or.inl hevent⟩
          rw [hticked.time]
          omega
      | none =>
        have hawake : ¬k.Asleep t := by
          obtain ⟨-, -, -, hdelayed, hoverflow, -⟩ := h.sound.delayed_ne
          rintro (hl | hl)
          · exact hdelayed (Option.some.inj (hl.symm.trans hsleeps))
          · exact hoverflow (Option.some.inj (hl.symm.trans hsleeps))
        obtain ⟨-, hstate, hevent⟩ := hticked.others t hWt hawake
        exact Or.inl ⟨hstate.trans hsleeps, Or.inl hevent⟩
  | switched u he hu =>
    refine Or.inl ⟨?_, Or.inl rfl⟩
    cases d with
    | some deadline => exact hsleeps
    | none => exact hsleeps
  | noted u l yield y p he hhead hnoted =>
    rename_i k₁
    left
    constructor
    · cases d with
      | some deadline =>
        obtain ⟨hasleep, hleft⟩ := hnoted.asleep t
        refine ⟨hasleep.mpr hsleeps.1, ?_⟩
        show k₁.time + k₁.left t = _
        rw [hnoted.time, hleft]
        exact hsleeps.2
      | none => exact (hnoted.state t).trans hsleeps
    · by_cases hu : t = u
      · subst hu
        exact Or.inr ⟨Or.inr ⟨l, yield, he, hhead⟩, hnoted.event_self⟩
      · exact Or.inl (hnoted.event_others hu)
  | slept n indefinite o he hcall hready hslept =>
    rename_i k₁
    have hne : t ≠ k.pxCurrentTCB := by
      rintro rfl
      exact hsleeps.not_ready h.sound hready
    left
    refine ⟨?_, Or.inl (hslept.event t hne)⟩
    cases d with
    | some deadline =>
      obtain ⟨hasleep, hleft⟩ := hslept.asleep_others t hne
      refine ⟨hasleep.mpr hsleeps.1, ?_⟩
      show k₁.time + k₁.left t = _
      rw [hslept.time, hleft]
      exact hsleeps.2
    | none => exact (hslept.state t hne).trans hsleeps

end Scheduler

/-- When a call that was made at a time lets its task go on. -/
def TaskCall.wakesAt (time : Nat) : TaskCall ε → Option Nat
  | .delaying xTicksToDelay => some (time + xTicksToDelay)
  | .placing _ xTicksToWait => if xTicksToWait = portMAX_DELAY then .none else some (time + xTicksToWait)
  | _ => .none

/-- The list that it puts its task into. -/
def TaskCall.waitsIn : TaskCall ε → Option (TaskList ε)
  | .placing e _ => some (.eventList e)
  | _ => .none

/-- The calls that put their task to sleep. -/
def TaskCall.Sleeps : TaskCall ε → Prop
  | .delaying _ => True
  | .placing _ _ => True
  | _ => False

namespace Scheduler

variable {S : TaskSet τ} {v : TaskItem τ → Nat} {k k' k'' : Scheduler τ ε} {t u : τ} [DecidableEq τ] [DecidableEq ε]

/-- A task in a call that was made at a time, until it is ready again: it is about to sleep, or it sleeps in its event list, or
its event has come while the scheduler is suspended. -/
def Waits (k : Scheduler τ ε) (t : τ) (c : TaskCall ε) (time : Nat) : Prop :=
  k.pxCurrentTCB = t ∧ k.running = c ∧ k.time = time ∨
    k.SleepsUntil t (c.wakesAt time) ∧ (k.event t = c.waitsIn ∨ c.waitsIn ≠ none ∧ k.event t = some .xPendingReadyList)

/-- A task goes to sleep with the scheduler suspended. -/
theorem Steady.suspended_in_call (h : Steady S v k) (hcall : k.running.Sleeps) : k.uxSchedulerSuspended ≠ 0 := by
  have hfits := h.fits
  cases hrunning : k.running with
  | delaying n =>
    rw [hrunning] at hfits
    rw [hfits.1]
    decide
  | placing e n =>
    rw [hrunning] at hfits
    rw [hfits.1]
    decide
  | _ =>
    rw [hrunning] at hcall
    cases hcall

/-- Until it sleeps, the task is ready. -/
theorem Steady.ready_in_call (h : Steady S v k) (hcall : k.running.Sleeps) : Ready S k k.pxCurrentTCB := by
  by_contra hready
  rcases h.leaves hready with hrunning | ⟨hzero, -⟩
  · rw [hrunning] at hcall
    exact hcall
  · exact h.suspended_in_call hcall hzero

/-- Nothing but the task itself goes on with its call. -/
theorem step_in_call (h : Steady S v k) (hcall : k.running.Sleeps) {e : KernelEvent τ ε} (he : e ≠ .proceed) :
    (k.step S e).pxCurrentTCB = k.pxCurrentTCB ∧ (k.step S e).running = k.running ∧ (k.step S e).time = k.time := by
  have hsuspended := h.suspended_in_call hcall
  have hbusy : ¬k.Idle := by
    intro hidle
    rw [hidle.1] at hcall
    exact hcall
  have hsame : ∀ k', k' = k → k'.pxCurrentTCB = k.pxCurrentTCB ∧ k'.running = k.running ∧ k'.time = k.time := by
    rintro k' rfl
    exact ⟨rfl, rfl, rfl⟩
  cases e with
  | sysTick =>
    rcases step_sysTick h.sound h.waiting with ⟨hzero, -⟩ | ⟨-, hstep⟩
    · exact absurd hzero hsuspended
    · rw [hstep]
      exact ⟨rfl, rfl, rfl⟩
  | pendSV =>
    rcases step_pendSV h with ⟨-, hstep⟩ | ⟨-, hstep⟩ | ⟨hzero, -⟩
    · exact hsame _ hstep
    · rw [hstep]
      exact ⟨rfl, rfl, rfl⟩
    · exact absurd hzero hsuspended
  | event l yield =>
    rcases step_event h.sound l yield with ⟨-, hnone⟩ | ⟨t, k₁, y, p, -, -, hmoved, -, hstep⟩
    · exact hsame _ hnone
    · rcases hmoved with ⟨hzero, -⟩ | ⟨-, hnoted⟩
      · exact absurd hzero hsuspended
      · have hframe := hnoted.frame
        have hcurrent : k₁.pxCurrentTCB = k.pxCurrentTCB := by rw [hframe]
        have hdoing : k₁.doing = k.doing := by rw [hframe]
        rw [hstep]
        refine ⟨hcurrent, ?_, hnoted.time⟩
        show k₁.doing k₁.pxCurrentTCB = _
        rw [hdoing, hcurrent]
        rfl
  | xTaskCreate t => exact hsame _ (by simp only [step, if_neg fun hmay : k.Idle ∧ t ∉ k.tasks => hbusy hmay.1])
  | vTaskSuspendAll => exact hsame _ (by simp only [step, if_neg hbusy])
  | xTaskResumeAll =>
    exact hsame _ (by simp only [step, if_neg fun hmay : k.Idle ∧ k.uxSchedulerSuspended ≠ 0 => hbusy hmay.1])
  | vTaskDelay n =>
    exact hsame _ (by simp only [step, if_neg fun hmay : k.MayBlock S ∧ n ≤ portMAX_DELAY => hbusy hmay.1.1])
  | wait e n =>
    exact hsame _ (by simp only [step, if_neg fun hmay : k.MayBlock S ∧ 0 < n ∧ n ≤ portMAX_DELAY => hbusy hmay.1.1])
  | proceed => exact absurd rfl he

/-- A task whose event comes waited for it. -/
theorem Signalled.event_ne_none (h : Sound S v k) {e : KernelEvent τ ε} (hsignal : k.Signalled e t) : k.event t ≠ none := by
  rcases hsignal with hpending | ⟨l, yield, -, hhead⟩
  · rw [hpending]
    simp
  · rw [h.event_of_head hhead]
    simp

/-- The running task has gone to sleep in its call. -/
theorem Slept.waits {c : TaskCall ε} {n : Nat} {indefinite : Bool} {o : Option (TaskList ε)} (hslept : Slept S n indefinite o k k')
    (hrunning : k.running = c) (hcall : o = none ∧ indefinite = false ∧ k.running = .delaying n ∨
      ∃ l, o = some (.eventList l) ∧ indefinite = true ∧ k.running = .placing l n) :
    (k'.goTo .resuming).Waits k.pxCurrentTCB c k.time := by
  right
  have htime : (k'.goTo .resuming).time = k.time := hslept.time
  rcases hcall with ⟨rfl, rfl, hdelaying⟩ | ⟨l, rfl, rfl, hplacing⟩
  · obtain rfl : .delaying n = c := hdelaying.symm.trans hrunning
    obtain ⟨hasleep, hleft⟩ := hslept.asleep (by simp)
    refine ⟨⟨hasleep, ?_⟩, Or.inl hslept.event_current⟩
    rw [htime, ← hleft]
    rfl
  · obtain rfl : .placing l n = c := hplacing.symm.trans hrunning
    refine ⟨?_, Or.inl hslept.event_current⟩
    show SleepsUntil _ _ (if n = portMAX_DELAY then none else some (k.time + n))
    by_cases hforever : n = portMAX_DELAY
    · rw [if_pos hforever]
      exact hslept.suspended ⟨hforever, rfl⟩
    · rw [if_neg hforever]
      obtain ⟨hasleep, hleft⟩ := hslept.asleep fun h => hforever h.1
      refine ⟨hasleep, ?_⟩
      rw [htime, ← hleft]
      rfl

/-- A step leaves a task in its wait, or the wait is over and the task ready, out of every event list. -/
theorem Waits.step (h : Steady S v k) {c : TaskCall ε} {T : Nat} (hc : c.Sleeps) (hwaits : k.Waits t c T)
    (e : KernelEvent τ ε) :
    (k.step S e).Waits t c T ∨
      Ready S (k.step S e) t ∧ (k.step S e).event t = none ∧
        ((∃ deadline, c.wakesAt T = some deadline ∧ deadline ≤ (k.step S e).time) ∨
          c.waitsIn ≠ none ∧ k.Signalled e t) := by
  rcases hwaits with ⟨rfl, hrunning, htime⟩ | ⟨hsleeps, hevent⟩
  · left
    by_cases he : e = .proceed
    · subst he
      have hstep := step_proceed h
      generalize k.step S .proceed = k' at hstep
      cases hstep with
      | stays => exact Or.inl ⟨rfl, hrunning, htime⟩
      | sleeps hcall hsuspended hready hsound hwaiting hslept =>
        have hwaits := hslept.waits hrunning hcall
        rwa [htime] at hwaits
      | resumes hcall hresumed hc' =>
        rw [hrunning] at hcall
        rw [hcall] at hc
        exact hc.elim
      | yields hcall =>
        rw [hrunning] at hcall
        rw [hcall] at hc
        exact hc.elim
    · obtain ⟨hcurrent, hrunning', htime'⟩ := step_in_call h (by rw [hrunning]; exact hc) he
      exact Or.inl ⟨hcurrent, hrunning'.trans hrunning, htime'.trans htime⟩
  · have hlisted : k.event t ≠ none → c.waitsIn ≠ none := by
      intro hsome hnone
      rcases hevent with hsame | ⟨hin, -⟩
      · exact hsome (hsame.trans hnone)
      · exact hin hnone
    rcases hsleeps.step h e with ⟨hsleeps', hevent'⟩ | ⟨hready, hnone, hcause⟩
    · left
      right
      refine ⟨hsleeps', ?_⟩
      rcases hevent' with hsame | ⟨hsignal, hpending⟩
      · rw [hsame]
        exact hevent
      · exact Or.inr ⟨hlisted (hsignal.event_ne_none h.sound), hpending⟩
    · right
      refine ⟨hready, hnone, hcause.imp id fun hsignal => ?_⟩
      exact ⟨hlisted (hsignal.event_ne_none h.sound), hsignal⟩

/-- In its wait a task is in no event list but its own. -/
theorem Waits.own_list (h : Steady S v k) {c : TaskCall ε} {T : Nat} (hc : c.Sleeps) (hwaits : k.Waits t c T) {l : ε}
    (hevent : k.event t = some (.eventList l)) : c.waitsIn = some (.eventList l) := by
  rcases hwaits with ⟨rfl, hrunning, -⟩ | ⟨-, hsame | ⟨-, hpending⟩⟩
  · have hready : Ready S k k.pxCurrentTCB := h.ready_in_call (by rwa [hrunning])
    rw [h.sound.event_of_ready hready] at hevent
    cases hevent
  · exact hsame.symm.trans hevent
  · cases hpending.symm.trans hevent

/-- While it waits for a time, the time has not come. -/
theorem Waits.lt (h : Steady S v k) {c : TaskCall ε} {T deadline : Nat} (hwaits : k.Waits t c T)
    (hdeadline : c.wakesAt T = some deadline) : k.time < deadline := by
  rcases hwaits with ⟨-, hrunning, htime⟩ | ⟨hsleeps, -⟩
  · have hfits := h.fits
    rw [hrunning] at hfits
    cases c with
    | delaying n =>
      have hpos : 0 < n := hfits.2.1
      obtain rfl : T + n = deadline := Option.some.inj hdeadline
      omega
    | placing l n =>
      have hpos : 0 < n := hfits.2.1
      have hsome : (if n = portMAX_DELAY then none else some (T + n)) = some deadline := hdeadline
      split at hsome
      · cases hsome
      · obtain rfl : T + n = deadline := Option.some.inj hsome
        omega
    | _ => cases hdeadline
  · rw [hdeadline] at hsleeps
    exact hsleeps.lt h

/-- The time does not go back. -/
theorem step_time_le (h : Steady S v k) (e : KernelEvent τ ε) : k.time ≤ (k.step S e).time := by
  have hmoves := step_moves h e
  generalize k.step S e = k' at hmoves
  cases hmoves with
  | ticked n W hticked hW hpended =>
    rw [hticked.time]
    exact Nat.le_add_right _ _
  | switched u he hu => exact Nat.le_refl _
  | noted t l yield y p he hhead hnoted => exact Nat.le_of_eq hnoted.time.symm
  | slept n indefinite o he hcall hready hslept => exact Nat.le_of_eq hslept.time.symm

/-! ## Runs -/

/-- Every tick of a run is counted or will be. -/
theorem run_ticks (h : Steady S v k) (es : List (KernelEvent τ ε)) :
    (Runs.run (step S) k es).time + (Runs.run (step S) k es).uxPendedTicks =
      k.time + k.uxPendedTicks + es.count .sysTick := by
  induction es generalizing k with
  | nil => rw [Runs.run_nil, List.count_nil, Nat.add_zero]
  | cons e es ih =>
    rw [Runs.run_cons, ih (h.step e), step_ticks h, List.count_cons]
    simp only [beq_iff_eq]
    omega

theorem run_time_le (h : Steady S v k) (es : List (KernelEvent τ ε)) : k.time ≤ (Runs.run (step S) k es).time := by
  induction es generalizing k with
  | nil => exact Nat.le_refl _
  | cons e es ih => exact Nat.le_trans (step_time_le h e) (ih (h.step e))

/-- A task waits through a run, or its wait ends in one of the steps. -/
theorem Waits.run (h : Steady S v k) {c : TaskCall ε} {T : Nat} (hc : c.Sleeps) (hwaits : k.Waits t c T)
    (es : List (KernelEvent τ ε)) :
    Runs.Always (Scheduler.step S) (fun k => k.Waits t c T) k es ∨
      ∃ pre e, pre ++ [e] <+: es ∧ Runs.Always (Scheduler.step S) (fun k => k.Waits t c T) k pre ∧
        Ready S (Runs.run (Scheduler.step S) k (pre ++ [e])) t ∧
        (Runs.run (Scheduler.step S) k (pre ++ [e])).event t = none ∧
        ((∃ deadline, c.wakesAt T = some deadline ∧ deadline ≤ (Runs.run (Scheduler.step S) k (pre ++ [e])).time) ∨
          c.waitsIn ≠ none ∧ (Runs.run (Scheduler.step S) k pre).Signalled e t) := by
  induction es generalizing k with
  | nil => exact Or.inl (Runs.always_nil.mpr hwaits)
  | cons e es ih =>
    rcases hwaits.step h hc e with hwaits' | hends
    · rcases ih (h.step e) hwaits' with halways | ⟨pre, e', hprefix, halways, hends⟩
      · exact Or.inl (Runs.always_cons.mpr ⟨hwaits, halways⟩)
      · exact Or.inr ⟨e :: pre, e', List.cons_prefix_cons.mpr ⟨rfl, hprefix⟩, Runs.always_cons.mpr ⟨hwaits, halways⟩, hends⟩
    · exact Or.inr ⟨[], e, List.cons_prefix_cons.mpr ⟨rfl, List.nil_prefix⟩, Runs.always_nil.mpr hwaits, hends⟩

/-- A task that waits comes to the pending list by an event of its list. -/
theorem Waits.event_came (h : Steady S v k) {c : TaskCall ε} {T : Nat} (hc : c.Sleeps) {es : List (KernelEvent τ ε)}
    (halways : Runs.Always (Scheduler.step S) (fun k => k.Waits t c T) k es)
    (hpending : (Runs.run (Scheduler.step S) k es).event t = some .xPendingReadyList) :
    k.event t = some .xPendingReadyList ∨ ∃ l yield, c.waitsIn = some (.eventList l) ∧ .event l yield ∈ es := by
  induction es generalizing k with
  | nil => exact Or.inl hpending
  | cons e es ih =>
    obtain ⟨hwaits, halways'⟩ := Runs.always_cons.mp halways
    rw [Runs.run_cons] at hpending
    rcases ih (h.step e) halways' hpending with hfirst | ⟨l, yield, hin, hmem⟩
    · rcases step_pending h hfirst with hbefore | ⟨l, yield, he, hevent⟩
      · exact Or.inl hbefore
      · exact Or.inr ⟨l, yield, hwaits.own_list h hc hevent, List.mem_cons.mpr (Or.inl he.symm)⟩
    · exact Or.inr ⟨l, yield, hin, List.mem_cons_of_mem e hmem⟩

/-- What signals a task in its wait is an event of its list, since the call. -/
theorem Waits.signalled (h : Steady S v k) {c : TaskCall ε} {T : Nat} (hc : c.Sleeps) {pre : List (KernelEvent τ ε)}
    {e : KernelEvent τ ε} (halways : Runs.Always (Scheduler.step S) (fun k => k.Waits t c T) k pre)
    (hfirst : k.event t ≠ some .xPendingReadyList) (hsignal : (Runs.run (Scheduler.step S) k pre).Signalled e t) :
    ∃ l yield, c.waitsIn = some (.eventList l) ∧ .event l yield ∈ pre ++ [e] := by
  rcases hsignal with hpending | ⟨l, yield, rfl, hhead⟩
  · obtain ⟨l, yield, hin, hmem⟩ := (Waits.event_came h hc halways hpending).resolve_left hfirst
    exact ⟨l, yield, hin, List.mem_append_left _ hmem⟩
  · have hsteady := Runs.run_inv (Steady S v) (fun _ e h => h.step e) h pre
    exact ⟨l, yield, halways.last.own_list hsteady hc (hsteady.sound.event_of_head hhead), by simp⟩

/-- Until its time comes, a task that delays itself waits. -/
theorem Waits.run_of_lt (h : Steady S v k) {n T : Nat} (hwaits : k.Waits t (.delaying n) T) (es : List (KernelEvent τ ε))
    (hlt : (Runs.run (Scheduler.step S) k es).time < T + n) : (Runs.run (Scheduler.step S) k es).Waits t (.delaying n) T := by
  rcases hwaits.run h (show TaskCall.Sleeps (.delaying n) from trivial) es with
    halways | ⟨pre, e, ⟨rest, rfl⟩, -, -, -, hcause⟩
  · exact halways.last
  · rcases hcause with ⟨deadline, hdeadline, hle⟩ | ⟨hin, -⟩
    · obtain rfl : T + n = deadline := Option.some.inj hdeadline
      have hsteady := Runs.run_inv (Steady S v) (fun _ e h => h.step e) h (pre ++ [e])
      rw [Runs.run_append] at hlt
      exact absurd (Nat.le_trans hle (run_time_le hsteady rest)) (Nat.not_le_of_lt hlt)
    · exact absurd rfl hin

end Scheduler

end Rtu

import Rtu.Lemmas.SchedulerWaits

/-!
# Turns

How long a ready task waits for its turn in its ready list, by the calls of the lists that a step makes (`step_touches`), and when a
tick asks for a turn.
-/

namespace Rtu

open Rosters

variable {τ ε : Type}

namespace Scheduler

variable {S : TaskSet τ} {v : TaskItem τ → Nat} {k k' : Scheduler τ ε} {t u : τ} [DecidableEq τ] [DecidableEq ε]

/-! ## The calls of the lists -/

/-- What a call makes of a ready list. -/
theorem roster_call (a : KernelLists (TaskItem τ) (TaskList ε)) {c : ListCall (TaskItem τ) (TaskList ε)} (hproper : Proper S c)
    {i : TaskItem τ} (hitem : c.item = some i) (p : Fin configMAX_PRIORITIES) :
    (a.call c).roster (.pxReadyTasksLists p) = a.roster (.pxReadyTasksLists p) ∨
      (a.call c).roster (.pxReadyTasksLists p) = (a.roster (.pxReadyTasksLists p)).push i ∨
      (a.call c).roster (.pxReadyTasksLists p) = (a.roster (.pxReadyTasksLists p)).remove i := by
  cases c with
  | setValue j xValue => exact Or.inl rfl
  | insertEnd l j =>
    obtain rfl : j = i := Option.some.inj hitem
    by_cases hl : TaskList.pxReadyTasksLists p = l
    · subst hl
      exact Or.inr (Or.inl (Function.update_self _ _ _))
    · exact Or.inl (Function.update_of_ne hl _ _)
  | insert l j => exact Or.inl (Function.update_of_ne (fun hl => hproper p hl.symm) _ _)
  | remove j =>
    obtain rfl : j = i := Option.some.inj hitem
    cases hcontainer : a.container j with
    | none =>
      left
      rw [KernelLists.call, KernelLists.remove, hcontainer]
    | some l =>
      rw [KernelLists.call, KernelLists.remove, hcontainer]
      by_cases hl : TaskList.pxReadyTasksLists p = l
      · subst hl
        exact Or.inr (Or.inr (Function.update_self _ _ _))
      · exact Or.inl (Function.update_of_ne hl _ _)
  | next l => exact hproper.elim

/-- The lists after the calls that were made. -/
theorem Logged.calls (h : Logged v k) (h' : Logged v k') {cs : List (ListCall (TaskItem τ) (TaskList ε))}
    (hcs : k'.listCalls = k.listCalls ++ cs) : k'.lists = k.lists.calls cs ∧ k.lists.EachCall KernelLists.Tidy cs := by
  have htidy := h'.tidy
  rw [hcs] at htidy
  refine ⟨?_, ?_⟩
  · rw [h'.lists, hcs, h.lists]
    exact KernelLists.calls_append _ _ _
  · rw [h.lists]
    exact (KernelLists.eachCall_append.mp htidy).2

/-- Calls about other items leave a ready task in its list, and its turn comes no later. -/
theorem wait_calls (n : Nat) {x : TaskItem τ} {p : Fin configMAX_PRIORITIES} {cs : List (ListCall (TaskItem τ) (TaskList ε))}
    (hothers : ∀ c ∈ cs, Proper S c ∧ ∃ i, c.item = some i ∧ i ≠ x) (a : KernelLists (TaskItem τ) (TaskList ε))
    (hx : x ∈ (a.roster (.pxReadyTasksLists p)).items) :
    ((a.calls cs).roster (.pxReadyTasksLists p)).wait n x ≤ (a.roster (.pxReadyTasksLists p)).wait n x := by
  induction cs generalizing a with
  | nil => exact Nat.le_refl _
  | cons c cs ih =>
    obtain ⟨hproper, i, hitem, hi⟩ := hothers c List.mem_cons_self
    obtain ⟨hx', hle⟩ : x ∈ ((a.call c).roster (.pxReadyTasksLists p)).items ∧
        ((a.call c).roster (.pxReadyTasksLists p)).wait n x ≤ (a.roster (.pxReadyTasksLists p)).wait n x := by
      rcases roster_call a hproper hitem p with hcall | hcall | hcall
      · rw [hcall]
        exact ⟨hx, Nat.le_refl _⟩
      · rw [hcall]
        exact ⟨Roster.mem_push hx i, Nat.le_of_eq (Roster.wait_push hx i)⟩
      · rw [hcall]
        exact ⟨Roster.mem_remove hi hx, Roster.wait_remove hi⟩
    exact Nat.le_trans (ih (fun c hc => hothers c (List.mem_cons_of_mem _ hc)) _ hx') hle

/-! ## A step -/

/-- What becomes of a task whose items a step touches: it wakes, or its event comes while the scheduler is suspended, or it goes to
sleep. -/
inductive Touched (S : TaskSet τ) (k k' : Scheduler τ ε) (t : τ) : Prop
  | woken (hblocked : ¬Ready S k t) (hready : Ready S k' t) (hevent : k'.event t = none)
  | noted (hpending : k'.event t = some .xPendingReadyList)
  | slept (hready : Ready S k t) (hblocked : ¬Ready S k' t)

/-- The calls of the lists that a step makes, unless it is a switch. -/
theorem step_touches (h : Steady S v k) {e : KernelEvent τ ε} (he : e ≠ .pendSV) :
    Added S (Touched S k (k.step S e)) k (k.step S e) := by
  have hmoves := step_moves h e
  have h' := h.step e
  generalize k.step S e = k' at hmoves h'
  cases hmoves with
  | ticked n W hticked hW hpended =>
    refine hticked.added.mono fun t ht => ?_
    obtain ⟨hready', hevent⟩ := hticked.wakes t ht
    refine .woken (fun hready => ?_) hready' hevent
    rcases ht with hWt | ⟨hasleep, -⟩
    · rcases hW t hWt with ⟨-, hnone⟩ | hpending | ⟨l, yield, -, hhead⟩
      · cases hnone.symm.trans hready
      · cases hpending.symm.trans (h.sound.event_of_ready hready)
      · cases (h.sound.event_of_head hhead).symm.trans (h.sound.event_of_ready hready)
    · exact h.sound.not_asleep hready hasleep
  | switched u hswitch hu => exact absurd hswitch he
  | noted u l yield y p hevent hhead hnoted =>
    rename_i k₁
    have hadded : Added S (· = u) k { k₁ with xYieldPending := y, pendSV := p } := hnoted.added.trans (.of_eq rfl)
    refine hadded.mono fun t ht => .noted ?_
    rw [ht]
    exact hnoted.event_self
  | slept n indefinite o hproceed hcall hready hslept =>
    rename_i k₁
    have hadded : Added S (· = k.pxCurrentTCB) k (k₁.goTo .resuming) := hslept.added.trans (.of_eq rfl)
    refine hadded.mono fun t ht => ?_
    rw [ht]
    refine .slept hready fun hready' => ?_
    by_cases hforever : n = portMAX_DELAY ∧ indefinite
    · cases (hslept.suspended hforever).symm.trans hready'
    · exact h'.sound.not_asleep hready' (hslept.asleep hforever).1

/-- How long a ready task waits for its turn among at most `n` others. -/
def wait (S : TaskSet τ) (n : Nat) (k : Scheduler τ ε) (t : τ) : Nat := (k.lists.roster (readyList S t)).wait n (.xStateListItem t)

/-- The task that a step chooses to run. -/
def chooses (S : TaskSet τ) (k : Scheduler τ ε) (e : KernelEvent τ ε) : List τ :=
  if e = .pendSV ∧ k.pendSV = true ∧ k.uxSchedulerSuspended = 0 then [(k.step S e).pxCurrentTCB] else []

theorem mem_readyList (h : Sound S v k) (ht : Ready S k t) : .xStateListItem t ∈ (k.lists.roster (readyList S t)).items :=
  (h.coherent.member _ _).mp ht

/-- A step that chooses nobody keeps a ready task waiting no longer. -/
theorem wait_step (h : Steady S v k) {e : KernelEvent τ ε} (he : e ≠ .pendSV) (ht : Ready S k t) (ht' : Ready S (k.step S e) t)
    (n : Nat) : wait S n (k.step S e) t ≤ wait S n k t := by
  obtain ⟨cs, hcs, hform⟩ := step_touches h he
  obtain ⟨hlists, -⟩ := h.sound.logged.calls (h.step e).sound.logged hcs
  have hothers : ∀ c ∈ cs, Proper S c ∧ ∃ i, c.item = some i ∧ i ≠ .xStateListItem t := by
    intro c hc
    obtain ⟨hproper, i, hitem, howner⟩ := hform c hc
    refine ⟨hproper, i, hitem, ?_⟩
    rintro rfl
    cases howner with
    | woken hblocked hready hevent => exact hblocked ht
    | noted hpending => cases hpending.symm.trans ((h.step e).sound.event_of_ready ht')
    | slept hready hblocked => exact hblocked ht'
  rw [wait, hlists]
  exact wait_calls n hothers k.lists (mem_readyList h.sound ht)

/-- What a switch chooses, and what it makes of the lists. -/
theorem chooses_pendSV (h : Steady S v k) :
    chooses S k .pendSV = [] ∧ (k.step S .pendSV).lists = k.lists ∨
      ∃ u, Chosen S k u ∧ chooses S k .pendSV = [u] ∧ (k.step S .pendSV).lists = k.lists.next (readyList S u) := by
  rcases step_pendSV h with ⟨hpendSV, hstep⟩ | ⟨hsuspended, hstep⟩ | ⟨hsuspended, u, hu, hstep⟩
  · refine Or.inl ⟨if_neg ?_, by rw [hstep]⟩
    rw [hpendSV]
    simp
  · exact Or.inl ⟨if_neg fun hmay => hsuspended hmay.2.2, by rw [hstep]⟩
  · by_cases hpendSV : k.pendSV = true
    · refine Or.inr ⟨u, hu, ?_, by rw [hstep]; rfl⟩
      rw [chooses, if_pos ⟨rfl, hpendSV, hsuspended⟩, hstep]
      rfl
    · have hstep' : k.step S .pendSV = k := if_neg hpendSV
      exact Or.inl ⟨if_neg fun hmay => hpendSV hmay.2.1, by rw [hstep']⟩

/-- A step chooses no task of a lower priority than one that is ready, and each choice of another task of its priority brings that
one nearer to its turn. -/
theorem wait_turn (h : Steady S v k) (e : KernelEvent τ ε) (ht : Ready S k t) (ht' : Ready S (k.step S e) t) {n : Nat}
    (hlength : (k.lists.items (readyList S t)).length ≤ n + 1) :
    (∀ u ∈ chooses S k e, S.uxPriority t ≤ S.uxPriority u) ∧
      (t ∉ chooses S k e → wait S n (k.step S e) t +
        ((chooses S k e).filter fun u => S.uxPriority u = S.uxPriority t).length ≤ wait S n k t) := by
  by_cases he : e = .pendSV
  · subst he
    rcases chooses_pendSV h with ⟨hnone, hlists⟩ | ⟨u, hu, hone, hlists⟩
    · rw [hnone, wait, hlists]
      exact ⟨by simp, fun _ => Nat.le_refl _⟩
    · rw [hone, wait, hlists]
      refine ⟨by simpa using hu.highest t ht, fun hne => ?_⟩
      have hut : u ≠ t := fun h => hne (by simp [h])
      by_cases hprio : S.uxPriority u = S.uxPriority t
      · have hlist : readyList S u = (readyList S t : TaskList ε) := congrArg TaskList.pxReadyTasksLists hprio
        have hturn := hu.turn
        rw [hlist] at hturn ⊢
        have hnext : (k.lists.next (readyList S t)).roster (readyList S t) = (k.lists.roster (readyList S t)).next :=
          Function.update_self _ _ _
        have hlt := Roster.wait_next (mem_readyList h.sound ht) hlength (by rw [hturn]; simpa using hut)
        rw [hnext]
        simpa [hprio, wait, Nat.succ_le_iff] using hlt
      · have hlist : (readyList S t : TaskList ε) ≠ readyList S u := by
          intro hsame
          exact hprio (TaskList.pxReadyTasksLists.inj hsame).symm
        have hsame : (k.lists.next (readyList S u)).roster (readyList S t) = k.lists.roster (readyList S t) :=
          Function.update_of_ne hlist _ _
        rw [hsame]
        simp [hprio, wait]
  · have hnone : chooses S k e = [] := if_neg fun hmay => he hmay.1
    rw [hnone]
    exact ⟨by simp, fun _ => wait_step h he ht ht' n⟩

/-! ## A run -/

/-- While a task is ready, every choice of another task of its priority brings it nearer to its turn. -/
theorem wait_run (h : Steady S v k) {n : Nat} {es : List (KernelEvent τ ε)}
    (hready : Runs.Always (step S) (fun k => Ready S k t ∧ (k.lists.items (readyList S t)).length ≤ n + 1) k es) :
    (∀ u ∈ Runs.trace (step S) (chooses S) k es, S.uxPriority t ≤ S.uxPriority u) ∧
      (t ∉ Runs.trace (step S) (chooses S) k es →
        ((Runs.trace (step S) (chooses S) k es).filter fun u => S.uxPriority u = S.uxPriority t).length ≤ wait S n k t) := by
  induction es generalizing k with
  | nil => exact ⟨by simp [Runs.trace], fun _ => Nat.zero_le _⟩
  | cons e es ih =>
    obtain ⟨⟨ht, hlength⟩, hrest⟩ := Runs.always_cons.mp hready
    have ht' : Ready S (k.step S e) t := (hrest [] List.nil_prefix).1
    obtain ⟨hprio, hturn⟩ := wait_turn h e ht ht' hlength
    obtain ⟨hprios, hturns⟩ := ih (h.step e) hrest
    rw [Runs.trace]
    constructor
    · intro u hu
      exact (List.mem_append.mp hu).elim (hprio u) (hprios u)
    · intro hnot
      rw [List.mem_append, not_or] at hnot
      have hfirst := hturn hnot.1
      have hlater := hturns hnot.2
      rw [List.filter_append, List.length_append]
      omega

/-! ## The time slice -/

/-- Without a switch the running task is alone in its list. -/
theorem alone_of_countTick (hstays : (k.countTick S).2 = false) :
    ((k.countTick S).1.lists.items (readyList S (k.countTick S).1.pxCurrentTCB)).length ≤ 1 := by
  unfold countTick at *
  generalize (if k.nextTick.xTickCount ≥ k.nextTick.xNextTaskUnblockTime then _ else _ : Scheduler τ ε × Bool) = r at *
  exact Nat.le_of_not_lt (of_decide_eq_false (Bool.or_eq_false_iff.mp hstays).2)

/-- A tick that asks for no switch leaves the running task alone in its list. -/
theorem alone_of_sysTick (hsuspended : k.uxSchedulerSuspended = 0) (hpendSV : (k.step S .sysTick).pendSV = false) :
    ((k.step S .sysTick).lists.items (readyList S (k.step S .sysTick).pxCurrentTCB)).length ≤ 1 := by
  have hstep : k.step S .sysTick = if ((k.countTick S).2 || (k.countTick S).1.xYieldPending) = true then
      { (k.countTick S).1 with pendSV := true } else (k.countTick S).1 := by
    simp only [step, xTaskIncrementTick, if_pos hsuspended]
  rw [hstep] at hpendSV ⊢
  split at hpendSV
  · cases hpendSV
  · rename_i hstays
    rw [if_neg hstays]
    rw [Bool.not_eq_true, Bool.or_eq_false_iff] at hstays
    exact alone_of_countTick hstays.1

/-- Where another task of the running task's priority is ready, a tick asks for a switch. -/
theorem pendSV_of_sysTick (h : Steady S v k) (hsuspended : k.uxSchedulerSuspended = 0) (ht : Ready S (k.step S .sysTick) t)
    (hcurrent : Ready S (k.step S .sysTick) (k.step S .sysTick).pxCurrentTCB) (hne : t ≠ (k.step S .sysTick).pxCurrentTCB)
    (hprio : S.uxPriority t = S.uxPriority (k.step S .sysTick).pxCurrentTCB) : (k.step S .sysTick).pendSV = true := by
  by_contra hpendSV
  have halone := alone_of_sysTick hsuspended (Bool.not_eq_true _ ▸ hpendSV)
  have h' := h.step .sysTick
  generalize k.step S .sysTick = k' at *
  have hlist : (readyList S t : TaskList ε) = readyList S k'.pxCurrentTCB := congrArg TaskList.pxReadyTasksLists hprio
  have ht' := mem_readyList h'.sound ht
  rw [hlist] at ht'
  have hcurrent' := mem_readyList h'.sound hcurrent
  have hsame : TaskItem.xStateListItem t = .xStateListItem k'.pxCurrentTCB := by
    rw [KernelLists.items] at halone
    generalize (k'.lists.roster (readyList S k'.pxCurrentTCB)).items = items at *
    cases items with
    | nil => cases ht'
    | cons i rest =>
      obtain rfl : rest = [] := List.length_eq_zero_iff.mp (Nat.le_zero.mp (Nat.le_of_succ_le_succ halone))
      rw [List.mem_singleton.mp ht', List.mem_singleton.mp hcurrent']
  exact hne (TaskItem.xStateListItem.inj hsame)

end Scheduler

end Rtu

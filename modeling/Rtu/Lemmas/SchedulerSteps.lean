import Rtu.Lemmas.Ticks
import Rtu.Lemmas.Sleep

/-!
# The calls of the scheduler

What an event, `xTaskResumeAll`, a switch and a new task do to the tasks.
-/

namespace Rtu

open Rosters

variable {τ ε : Type}

namespace Scheduler

variable {S : TaskSet τ} {v : TaskItem τ → Nat} {k k' k'' : Scheduler τ ε} {t u : τ}

/-- The same with another word on a pending switch. -/
def withYield (k : Scheduler τ ε) (y : Bool) : Scheduler τ ε := { k with xYieldPending := y }

theorem Woke.withYield {W : τ → Prop} (h : Woke S W k k') (y : Bool) : Woke S W (k.withYield y) (k'.withYield y) := by
  refine ⟨?_, h.value, h.ready, h.state, h.noEvent, h.event, h.sublist, h.added⟩
  have hframe := h.frame
  unfold Frame at hframe ⊢
  generalize k'.lists = lists, k'.listCalls = listCalls, k'.uxTopReadyPriority = top, k'.xNextTaskUnblockTime = next at hframe
  rw [hframe]
  rfl

theorem Kept.of_withYield {y : Bool} (h : Kept (k.withYield y) k') : Kept k k' :=
  ⟨h.current, h.pended, h.suspended, h.pendSV, h.asserted, h.doing, h.tasks⟩

variable [DecidableEq τ] [DecidableEq ε]

/-! ## Events -/

/-- What is in an event list is the event item of a task. -/
theorem Sound.event_item (h : Sound S v k) {i : TaskItem τ} {e : ε} (hi : i ∈ k.lists.items (.eventList e)) :
    ∃ t, i = .xEventListItem t ∧ k.event t = some (.eventList e) := by
  have hcontainer := (h.coherent.member i _).mpr hi
  cases i with
  | xEventListItem t => exact ⟨t, rfl, hcontainer⟩
  | xStateListItem t =>
    obtain ⟨-, -, -, -, -, -, -, hdelayed, hoverflow⟩ := h.delayed_ne
    rcases h.places t _ hcontainer with hl | hl | hl | hl
    · cases hl
    · exact absurd hl.symm (hdelayed e)
    · exact absurd hl.symm (hoverflow e)
    · cases hl

/-- What is in the pending list is the event item of a task. -/
theorem Sound.pending_item (h : Sound S v k) {i : TaskItem τ} (hi : i ∈ k.lists.items .xPendingReadyList) :
    ∃ t, i = .xEventListItem t ∧ k.event t = some .xPendingReadyList := by
  have hcontainer := (h.coherent.member i _).mpr hi
  cases i with
  | xEventListItem t => exact ⟨t, rfl, hcontainer⟩
  | xStateListItem t =>
    obtain ⟨-, -, -, -, -, hdelayed, hoverflow, -⟩ := h.delayed_ne
    rcases h.places t _ hcontainer with hl | hl | hl | hl
    · cases hl
    · exact absurd hl.symm hdelayed
    · exact absurd hl.symm hoverflow
    · cases hl

/-- A task whose event came while the scheduler is suspended is put into the pending list. -/
structure Noted (S : TaskSet τ) (v : TaskItem τ → Nat) (t : τ) (k k' : Scheduler τ ε) : Prop where
  frame : k' = { k with lists := k'.lists, listCalls := k'.listCalls }
  logged : Logged v k'
  value : k'.lists.value = k.lists.value
  container : k'.lists.container = Function.update k.lists.container (.xEventListItem t) (some .xPendingReadyList)
  items : ∀ l, (∀ e, l ≠ .eventList e) → l ≠ .xPendingReadyList → k'.lists.items l = k.lists.items l
  added : Added S (· = t) k k'

namespace Noted

theorem state (hnoted : Noted S v t k k') (u : τ) : k'.state u = k.state u := by
  show k'.lists.container _ = _
  rw [hnoted.container, Function.update_of_ne (by simp)]
  rfl

theorem event_self (hnoted : Noted S v t k k') : k'.event t = some .xPendingReadyList := by
  show k'.lists.container _ = _
  rw [hnoted.container, Function.update_self]

theorem event_others (hnoted : Noted S v t k k') (hu : u ≠ t) : k'.event u = k.event u := by
  show k'.lists.container _ = _
  rw [hnoted.container, Function.update_of_ne (by simpa using hu)]
  rfl

theorem wakeTime (hnoted : Noted S v t k k') (u : τ) : k'.wakeTime u = k.wakeTime u := by
  show k'.lists.value _ = k.lists.value _
  rw [hnoted.value]

theorem time (hnoted : Noted S v t k k') : k'.time = k.time := by
  rw [Scheduler.time, Scheduler.time, hnoted.frame]

theorem pended (hnoted : Noted S v t k k') : k'.uxPendedTicks = k.uxPendedTicks := by rw [hnoted.frame]

theorem asleep (hnoted : Noted S v t k k') (u : τ) : (k'.Asleep u ↔ k.Asleep u) ∧ k'.left u = k.left u := by
  unfold Asleep left
  rw [hnoted.state, hnoted.wakeTime, hnoted.frame]
  exact ⟨Iff.rfl, rfl⟩

theorem waiting (hnoted : Noted S v t k k') (hwaiting : k.Waiting) : k'.Waiting := by
  intro u hu
  rw [hnoted.state, show k'.pxDelayedTaskList = k.pxDelayedTaskList by rw [hnoted.frame]] at hu
  rw [hnoted.wakeTime, hnoted.frame]
  exact hwaiting u hu

theorem sound (hnoted : Noted S v t k k') (h : Sound S v k) (ht : Blocked S k t) : Sound S v k' := by
  obtain ⟨-, -, -, -, -, hpending, hpending', hevent, hevent'⟩ := h.delayed_ne
  have hdelayed : k'.pxDelayedTaskList = k.pxDelayedTaskList := by rw [hnoted.frame]
  have hoverflow : k'.pxOverflowDelayedTaskList = k.pxOverflowDelayedTaskList := by rw [hnoted.frame]
  have htick : k'.xTickCount = k.xTickCount := by rw [hnoted.frame]
  have hbits : k'.uxTopReadyPriority = k.uxTopReadyPriority := by rw [hnoted.frame]
  refine ⟨hnoted.logged, ?_, ?_, ?_, ?_, ?_, ?_, ?_, ?_, ?_, ?_, ?_, ?_⟩
  · rw [hdelayed, hoverflow]
    exact h.pointers
  · intro u
    rw [show k'.tasks = k.tasks by rw [hnoted.frame], h.made, hnoted.state]
  · intro u l hl
    rw [hnoted.state] at hl
    rw [hdelayed, hoverflow]
    exact h.places u l hl
  · intro u l hl
    have hblocked : Blocked S k u → Blocked S k' u := by
      rintro ⟨m, hm, hne⟩
      exact ⟨m, by rw [hnoted.state, hm], hne⟩
    by_cases hu : u = t
    · subst hu
      rw [hnoted.event_self] at hl
      exact ⟨Or.inl (Option.some.inj hl).symm, hblocked ht⟩
    · rw [hnoted.event_others hu] at hl
      exact (h.events u l hl).imp id hblocked
  · intro p
    rw [hbits, h.top]
    exact exists_congr fun u => by rw [hnoted.state]
  · rw [hbits]
    exact h.top_high
  · rw [htick]
    exact h.tick
  · intro u hu
    rw [hnoted.state, hdelayed] at hu
    rw [htick, hnoted.wakeTime]
    exact h.due u hu
  · intro u hu
    rw [hnoted.state, hoverflow] at hu
    rw [htick, hnoted.wakeTime]
    exact h.later u hu
  · rw [hdelayed, hnoted.items _ hevent hpending, hnoted.value]
    exact h.ordered
  · rw [hoverflow, hnoted.items _ hevent' hpending', hnoted.value]
    exact h.ordered_later
  · intro u hu
    rw [hnoted.state, hdelayed] at hu
    rw [hnoted.wakeTime, show k'.xNextTaskUnblockTime = k.xNextTaskUnblockTime by rw [hnoted.frame]]
    exact h.next u hu

end Noted

/-- The event of a list comes: the first task in it is ready, or will be when the scheduler is resumed. -/
theorem xTaskRemoveFromEventList_spec (h : Sound S v k) (e : ε) :
    (∀ t, k.event t ≠ some (.eventList e)) ∧ k.xTaskRemoveFromEventList S e = (k, false) ∨
      ∃ t k₁, (k.lists.items (.eventList e)).head? = some (.xEventListItem t) ∧ Sound S v k₁ ∧
        (k.uxSchedulerSuspended = 0 ∧ Woke S (· = t) k k₁ ∨ k.uxSchedulerSuspended ≠ 0 ∧ Noted S v t k k₁) ∧
        k.xTaskRemoveFromEventList S e =
          if S.uxPriority k.pxCurrentTCB < S.uxPriority t then (k₁.withYield true, true) else (k₁, false) := by
  unfold xTaskRemoveFromEventList
  split
  · rename_i hempty
    refine Or.inl ⟨fun t ht => ?_, rfl⟩
    have hmem := (h.coherent.member _ _).mp ht
    rw [List.head?_eq_none_iff.mp hempty] at hmem
    cases hmem
  · rename_i i hi
    obtain ⟨t, rfl, ht⟩ := h.event_item (List.mem_of_mem_head? hi)
    obtain ⟨-, hblocked⟩ := h.events t _ ht
    have hremovable : k.event t ≠ none := by
      rw [ht]
      simp
    right
    dsimp only [TaskItem.pvOwner]
    by_cases hsuspended : k.uxSchedulerSuspended = 0
    · have hstate : k.state t ≠ none := by
        obtain ⟨l, hl, -⟩ := hblocked
        rw [hl]
        simp
      obtain ⟨hsound, hwoke⟩ := (loose_of_event S h.logged hremovable hstate).ready h hblocked
      refine ⟨t, _, hi, hsound, Or.inl ⟨hsuspended, hwoke⟩, ?_⟩
      simp only [list, hsuspended, if_true]
      rfl
    · have hremoved := h.logged.remove (i := .xEventListItem t) hremovable
      have hnoted : Noted S v t k
          ((k.list (.remove (.xEventListItem t))).list (.insertEnd .xPendingReadyList (.xEventListItem t))) := by
        have hadded : Added S (· = t) k (k.list (.remove (.xEventListItem t))) := (Added.refl k).list trivial rfl rfl
        refine ⟨rfl, hremoved.list ?_, ?_, ?_, ?_, hadded.list (fun e => by simp) rfl rfl⟩
        · show (k.lists.remove _).container _ = none
          rw [KernelLists.container_remove, Function.update_self]
        · simp [list, KernelLists.call]
        · simp [list, KernelLists.call]
        · intro l hl hl'
          show ((k.lists.remove _).insertEnd _ _).items l = _
          rw [KernelLists.items_insertEnd_of_ne _ hl', KernelLists.items_remove h.coherent ht, if_neg (hl e)]
      refine ⟨t, _, hi, hnoted.sound h hblocked, Or.inr ⟨hsuspended, hnoted⟩, ?_⟩
      simp only [list, hsuspended, if_false]
      rfl

/-- The first task of an event list waits for the event. -/
theorem Sound.event_of_head (h : Sound S v k) {e : ε}
    (hhead : (k.lists.items (.eventList e)).head? = some (.xEventListItem t)) : k.event t = some (.eventList e) :=
  (h.coherent.member _ _).mpr (List.mem_of_mem_head? hhead)

/-! ## The scheduler is resumed -/

/-- What the tasks of the pending list come to. -/
structure Readied (S : TaskSet τ) (v : TaskItem τ → Nat) (k k' : Scheduler τ ε) : Prop where
  sound : Sound S v k'
  woke : Woke S (fun t => k.event t = some .xPendingReadyList) (k.withYield k'.xYieldPending) k'
  yields : k.xYieldPending = true → k'.xYieldPending = true
  lower : k'.xYieldPending = false → ∀ t, k.event t = some .xPendingReadyList → S.uxPriority t < S.uxPriority k.pxCurrentTCB

theorem readied_of_empty (h : Sound S v k) (hempty : k.lists.items .xPendingReadyList = []) : Readied S v k k := by
  have hnone : ∀ t, k.event t ≠ some .xPendingReadyList := by
    intro t ht
    have hmem := (h.coherent.member _ _).mp ht
    rw [hempty] at hmem
    cases hmem
  exact ⟨h, (Woke.refl k).congr fun t => ⟨False.elim, hnone t⟩, id, fun _ t ht => absurd ht (hnone t)⟩

/-- The tasks of the pending list become ready. -/
theorem readyPending_spec (h : Sound S v k) {fuel : Nat} (hfuel : (k.lists.items .xPendingReadyList).length ≤ fuel) :
    Readied S v k (k.readyPending S fuel) := by
  induction fuel generalizing k with
  | zero => exact readied_of_empty h (List.length_eq_zero_iff.mp (by omega))
  | succ fuel ih =>
    rw [readyPending]
    split
    · rename_i hnone
      exact readied_of_empty h (List.head?_eq_none_iff.mp hnone)
    · rename_i i hi
      obtain ⟨t, rfl, ht⟩ := h.pending_item (List.mem_of_mem_head? hi)
      obtain ⟨-, hblocked⟩ := h.events t _ ht
      have hevent : k.event t ≠ none := by
        rw [ht]
        simp
      have hstate : k.state t ≠ none := by
        obtain ⟨l, hl, -⟩ := hblocked
        rw [hl]
        simp
      obtain ⟨h₁, hwoke₁⟩ := (loose_of_event S h.logged hevent hstate).ready h hblocked
      dsimp only [TaskItem.pvOwner]
      generalize ((k.list (.remove (.xEventListItem t))).list (.remove (.xStateListItem t))).prvAddTaskToReadyList S t = k₁
        at *
      -- the switch that the task may ask for changes no list
      obtain ⟨y, hy, hhigher⟩ : ∃ y, (if S.uxPriority k₁.pxCurrentTCB ≤ S.uxPriority t then
          { k₁ with xYieldPending := true } else k₁) = k₁.withYield (k.xYieldPending || y) ∧
          (y = false → S.uxPriority t < S.uxPriority k.pxCurrentTCB) := by
        have hyield : k₁.xYieldPending = k.xYieldPending := by rw [hwoke₁.frame]
        split
        · exact ⟨true, by rw [Bool.or_true]; rfl, fun h => by cases h⟩
        · rename_i hlower
          rw [hwoke₁.current] at hlower
          refine ⟨false, ?_, fun _ => Fin.not_le.mp hlower⟩
          rw [Bool.or_false, ← hyield]
          rfl
      rw [hy]
      have h₂ : Sound S v (k₁.withYield (k.xYieldPending || y)) := h₁.undisturbed rfl
      have hgone : TaskItem.xEventListItem t ∉ k₁.lists.items .xPendingReadyList := by
        intro hmem
        have hpending := (h₁.coherent.member _ _).mpr hmem
        rw [show k₁.lists.container _ = none from hwoke₁.noEvent t rfl] at hpending
        cases hpending
      have hshorter := length_lt_of_sublist (hwoke₁.sublist _ (by simp)) ((h.coherent.member _ _).mp ht) hgone
      obtain ⟨h₃, hwoke₃, hyields, hlower⟩ := ih h₂ (show (k₁.lists.items .xPendingReadyList).length ≤ fuel by omega)
      generalize readyPending S fuel (k₁.withYield (k.xYieldPending || y)) = k₃ at *
      refine ⟨h₃, ?_, ?_, ?_⟩
      · refine ((hwoke₁.withYield _).trans hwoke₃).congr fun u => ?_
        by_cases hu : u = t
        · subst hu
          exact iff_of_true (Or.inl rfl) ht
        · show u = t ∨ k₁.event u = _ ↔ _
          rw [hwoke₁.event u hu]
          simp [hu]
      · intro hyield
        exact hyields (by simp [withYield, hyield])
      · intro hfalse u hu
        have hbefore : (k.xYieldPending || y) = false := by
          by_contra htrue
          have := hyields ((Bool.not_eq_false _).mp htrue)
          rw [hfalse] at this
          cases this
        by_cases hut : u = t
        · subst hut
          exact hhigher (Bool.or_eq_false_iff.mp hbefore).2
        · have hprio : S.uxPriority u < S.uxPriority k₁.pxCurrentTCB :=
            hlower hfalse u (by rw [← hu]; exact hwoke₁.event u hut)
          rwa [hwoke₁.current] at hprio

/-- The ticks that were missed are counted. -/
theorem countPended_spec (h : Sound S v k) (hwaiting : k.Waiting) (hsuspended : k.uxSchedulerSuspended = 0) (n : Nat) :
    Sound S v (k.countPended S n) ∧ (k.countPended S n).Waiting ∧ Ticked S n (fun _ => False) k (k.countPended S n) ∧
      Kept k (k.countPended S n) ∧ (k.xYieldPending = true → (k.countPended S n).xYieldPending = true) ∧
      ((k.countPended S n).xYieldPending = false → ∀ t, k.Asleep t → k.left t ≤ n →
        S.uxPriority t < S.uxPriority k.pxCurrentTCB) := by
  induction n generalizing k with
  | zero =>
    refine ⟨h, hwaiting, Undisturbed.ticked rfl h hwaiting, .refl k, id, fun _ t _ hleft => ?_⟩
    have := h.left_pos hwaiting t
    omega
  | succ n ih =>
    obtain ⟨h₁, hwaiting₁, hticked₁, hkept₁, hyield₁, hswitch₁⟩ := countTick_spec h hwaiting
    rw [countPended, xTaskIncrementTick, if_pos hsuspended]
    dsimp only
    generalize hsw : (k.countTick S).2 = sw at *
    generalize (k.countTick S).1 = k₁ at *
    obtain ⟨y, hy, hyfalse⟩ : ∃ y, (if (sw || k₁.xYieldPending) = true then { k₁ with xYieldPending := true } else k₁) =
        k₁.withYield y ∧ (y = false → sw = false ∧ k.xYieldPending = false) := by
      split
      · exact ⟨true, rfl, fun h => by cases h⟩
      · rename_i hno
        rw [Bool.not_eq_true, Bool.or_eq_false_iff, hyield₁] at hno
        exact ⟨k₁.xYieldPending, rfl, fun _ => hno⟩
    rw [hy]
    obtain ⟨h₂, hwaiting₂, hticked₂, hkept₂, hyields₂, hlower₂⟩ :=
      ih (k := k₁.withYield y) (h₁.undisturbed rfl) hwaiting₁ (hkept₁.suspended.trans hsuspended)
    generalize countPended S n (k₁.withYield y) = k₂ at *
    refine ⟨h₂, hwaiting₂, ?_, ?_, ?_, ?_⟩
    · rw [Nat.add_comm]
      exact hticked₁.trans h₁ (hticked₂.of_undisturbed (show Undisturbed k₁ (k₁.withYield y) from rfl))
    · exact hkept₁.trans hkept₂.of_withYield
    · intro hyield
      refine hyields₂ ?_
      by_contra hfalse
      have := (hyfalse ((Bool.not_eq_true _).mp hfalse)).2
      rw [hyield] at this
      cases this
    · intro hfalse t ht hleft
      have hbefore : y = false := by
        by_contra htrue
        have := hyields₂ ((Bool.not_eq_false _).mp htrue)
        rw [hfalse] at this
        cases this
      by_cases hone : k.left t = 1
      · exact hswitch₁ (hyfalse hbefore).1 t ht hone
      · have := h.left_pos hwaiting t
        obtain ⟨hasleep, hrest, -⟩ := hticked₁.sleeps t not_false ht (by omega)
        have hprio : S.uxPriority t < S.uxPriority k₁.pxCurrentTCB :=
          hlower₂ hfalse t hasleep (show k₁.left t ≤ n by omega)
        rwa [hkept₁.current] at hprio

/-- The scheduler has been resumed: the tasks of the pending list are ready and the ticks that were missed are counted. -/
structure Resumed (S : TaskSet τ) (v : TaskItem τ → Nat) (k k' : Scheduler τ ε) : Prop where
  sound : Sound S v k'
  waiting : k'.Waiting
  ticked : Ticked S k.uxPendedTicks (fun t => k.event t = some .xPendingReadyList) k k'
  nobody : ∀ t, k'.event t ≠ some .xPendingReadyList
  suspended : k'.uxSchedulerSuspended = 0
  pended : k'.uxPendedTicks = 0
  current : k'.pxCurrentTCB = k.pxCurrentTCB
  asserted : k'.vAssertCalled = k.vAssertCalled
  pendSV : k'.pendSV = k.pendSV
  doing : k'.doing = k.doing
  yields : k.xYieldPending = true → k'.xYieldPending = true
  lower : k'.xYieldPending = false → ∀ t, (k.event t = some .xPendingReadyList ∨ k.Asleep t ∧ k.left t ≤ k.uxPendedTicks) →
    S.uxPriority t < S.uxPriority k.pxCurrentTCB

theorem xTaskResumeAll_spec (h : Sound S v k) (hwaiting : k.Waiting) (hsuspended : k.uxSchedulerSuspended = 1) :
    ∃ k', Resumed S v k k' ∧
      k.xTaskResumeAll S = if k'.xYieldPending then ({ k' with pendSV := true }, true) else (k', false) := by
  obtain ⟨k₀, hk₀⟩ : ∃ k₀, k₀ = { k with uxSchedulerSuspended := 0 } := ⟨_, rfl⟩
  have h₀ : Sound S v k₀ := hk₀ ▸ h.undisturbed rfl
  have hwaiting₀ : k₀.Waiting := hk₀ ▸ hwaiting
  obtain ⟨h₁, hwoke₁, hyields₁, hlower₁⟩ := readyPending_spec h₀ (Nat.le_refl _)
  obtain ⟨k₁, hk₁⟩ : ∃ k₁, k₁ = k₀.readyPending S (k₀.lists.items .xPendingReadyList).length := ⟨_, rfl⟩
  rw [← hk₁] at h₁ hwoke₁ hyields₁ hlower₁
  obtain ⟨hwaiting₁, hticked₁⟩ := hwoke₁.ticked (h₀.undisturbed rfl) hwaiting₀
  -- the next time may be set anew
  obtain ⟨x, hreset, h₂⟩ : ∃ x, (if (k₀.lists.items .xPendingReadyList).isEmpty = true then k₁
      else k₁.prvResetNextTaskUnblockTime) = { k₁ with xNextTaskUnblockTime := x } ∧
      Sound S v { k₁ with xNextTaskUnblockTime := x } := by
    split
    · exact ⟨k₁.xNextTaskUnblockTime, rfl, h₁⟩
    · exact prvResetNextTaskUnblockTime_spec h₁
  obtain ⟨k₂, hk₂⟩ : ∃ k₂, k₂ = { k₁ with xNextTaskUnblockTime := x } := ⟨_, rfl⟩
  rw [← hk₂] at hreset h₂
  have hkept₁ : Kept k₀ k₁ := hwoke₁.frame.kept.of_withYield
  have hpended : k₁.uxPendedTicks = k.uxPendedTicks := hkept₁.pended.trans (by rw [hk₀])
  have hpended₂ : k₂.uxPendedTicks = k.uxPendedTicks := by rw [hk₂, ← hpended]
  have hresult : k.xTaskResumeAll S =
      if (k₂.countPended S k.uxPendedTicks).xYieldPending = true then
        ({ k₂.countPended S k.uxPendedTicks with uxPendedTicks := 0, pendSV := true }, true)
      else
        ({ k₂.countPended S k.uxPendedTicks with uxPendedTicks := 0 }, false) := by
    have hlists : k₀.lists = k.lists := by rw [hk₀]
    rw [hlists] at hk₁ hreset
    unfold xTaskResumeAll
    simp only [configASSERT, hsuspended, ne_eq, Nat.one_ne_zero, not_false_eq_true, decide_true, if_true, Nat.sub_self,
      ← hk₀, ← hk₁, hreset, hpended₂]
  have hwaiting₂ : k₂.Waiting := by
    rw [hk₂]
    exact hwaiting₁
  have hticked₂ : Ticked S 0 (fun t => k.event t = some .xPendingReadyList) k k₂ := by
    subst hk₂ hk₀
    exact ⟨hticked₁.time, hticked₁.wakes, hticked₁.sleeps, hticked₁.others, hticked₁.added⟩
  have hkept₂ : Kept k₀ k₂ := by
    rw [hk₂]
    exact ⟨hkept₁.current, hkept₁.pended, hkept₁.suspended, hkept₁.pendSV, hkept₁.asserted, hkept₁.doing, hkept₁.tasks⟩
  obtain ⟨h₃, hwaiting₃, hticked₃, hkept₃, hyields₃, hlower₃⟩ :=
    countPended_spec h₂ hwaiting₂ (hkept₂.suspended.trans (by rw [hk₀])) k.uxPendedTicks
  have hticked : Ticked S k.uxPendedTicks (fun t => k.event t = some .xPendingReadyList) k (k₂.countPended S k.uxPendedTicks) := by
    have := hticked₂.trans h₂ hticked₃
    rwa [Nat.zero_add] at this
  refine ⟨{ k₂.countPended S k.uxPendedTicks with uxPendedTicks := 0 }, ?_, hresult⟩
  generalize k₂.countPended S k.uxPendedTicks = k₃ at *
  have hkept := hkept₂.trans hkept₃
  subst hk₀
  refine ⟨h₃.undisturbed rfl, hwaiting₃, hticked.undisturbed rfl, ?_, hkept.suspended, rfl,
    hkept.current, hkept.asserted, hkept.pendSV, hkept.doing, ?_, ?_⟩
  · intro t ht
    have ht₃ : k₃.event t = some .xPendingReadyList := ht
    by_cases hW : k.event t = some .xPendingReadyList
    · rw [(hticked.wakes t (Or.inl hW)).2] at ht₃
      cases ht₃
    · rcases hticked.event_cases t with hnone | hsame
      · rw [hnone] at ht₃
        cases ht₃
      · exact hW (hsame.symm.trans ht₃)
  · intro hyield
    refine hyields₃ ?_
    rw [hk₂]
    exact hyields₁ hyield
  · intro hfalse t ht
    have hfalse₁ : k₁.xYieldPending = false := by
      by_contra htrue
      have := hyields₃ (show k₂.xYieldPending = true by rw [hk₂]; exact (Bool.not_eq_false _).mp htrue)
      rw [show k₃.xYieldPending = false from hfalse] at this
      cases this
    by_cases hW : k.event t = some .xPendingReadyList
    · exact hlower₁ hfalse₁ t hW
    · obtain ⟨hasleep, hleft⟩ := ht.resolve_left hW
      have hpos := h.left_pos hwaiting t
      obtain ⟨hasleep₂, hleft₂, -⟩ := hticked₂.sleeps t hW hasleep hpos
      have hprio := hlower₃ hfalse t hasleep₂ (by omega)
      rwa [show k₂.pxCurrentTCB = k.pxCurrentTCB from hkept₂.current] at hprio

/-- A nested suspension ends: the scheduler stays suspended. -/
theorem xTaskResumeAll_nested (S : TaskSet τ) (hsuspended : 1 < k.uxSchedulerSuspended) :
    k.xTaskResumeAll S = ({ k with uxSchedulerSuspended := k.uxSchedulerSuspended - 1 }, false) := by
  have hnonzero : k.uxSchedulerSuspended ≠ 0 := by omega
  have hrest : k.uxSchedulerSuspended - 1 ≠ 0 := by omega
  simp [xTaskResumeAll, configASSERT, hnonzero, hrest]

/-! ## The switch -/

/-- What is in a ready list is the state item of a task. -/
theorem Sound.ready_item (h : Sound S v k) {i : TaskItem τ} {p : Fin configMAX_PRIORITIES}
    (hi : i ∈ k.lists.items (.pxReadyTasksLists p)) : ∃ t, i = .xStateListItem t ∧ k.state t = some (.pxReadyTasksLists p) := by
  have hcontainer := (h.coherent.member i _).mpr hi
  cases i with
  | xStateListItem t => exact ⟨t, rfl, hcontainer⟩
  | xEventListItem t => rcases (h.events t _ hcontainer).1 with hl | ⟨e, hl⟩ <;> cases hl

/-- The index of a list moves and no task does. -/
theorem Sound.next_list (h : Sound S v k) {l : TaskList ε} (hl : k.lists.items l ≠ []) : Sound S v (k.list (.next l)) := by
  refine ⟨h.logged.list hl, h.pointers, h.made, h.places, h.events, h.top, h.top_high, h.tick, h.due, h.later, ?_, ?_, h.next⟩
  · show ((k.lists.next l).items k.pxDelayedTaskList).Pairwise _
    rw [KernelLists.items_next]
    exact h.ordered
  · show ((k.lists.next l).items k.pxOverflowDelayedTaskList).Pairwise _
    rw [KernelLists.items_next]
    exact h.ordered_later

/-- The task that a switch chooses: of the highest priority of the ready tasks, and the next in turn there. -/
structure Chosen (S : TaskSet τ) (k : Scheduler τ ε) (u : τ) : Prop where
  ready : Ready S k u
  highest : ∀ t, Ready S k t → S.uxPriority t ≤ S.uxPriority u
  turn : (k.lists.roster (readyList S u)).turn.head? = some (.xStateListItem u)

/-- What a switch makes of the scheduler. -/
def switchTo (S : TaskSet τ) (k : Scheduler τ ε) (u : τ) : Scheduler τ ε :=
  { k.list (.next (readyList S u)) with xYieldPending := false, pxCurrentTCB := u }

theorem vTaskSwitchContext_spec (h : Sound S v k) (hidle : Ready S k S.xIdleTask) (hsuspended : k.uxSchedulerSuspended = 0) :
    ∃ u, Chosen S k u ∧ k.vTaskSwitchContext = k.switchTo S u := by
  have hbit : k.uxTopReadyPriority.getLsbD (S.uxPriority S.xIdleTask) = true := (h.top _).mpr ⟨_, hidle⟩
  obtain ⟨hset, -⟩ := highest_spec hbit
  have hbound : portGET_HIGHEST_PRIORITY k.uxTopReadyPriority < configMAX_PRIORITIES := by
    by_contra hbeyond
    rw [h.top_high _ (Nat.le_of_not_lt hbeyond)] at hset
    cases hset
  obtain ⟨p, hp⟩ : ∃ p : Fin configMAX_PRIORITIES, p.val = portGET_HIGHEST_PRIORITY k.uxTopReadyPriority :=
    ⟨⟨_, hbound⟩, rfl⟩
  rw [← hp] at hset
  obtain ⟨t, ht⟩ := (h.top p).mp hset
  have hmem := (h.coherent.member _ _).mp ht
  obtain ⟨i, hi⟩ : ∃ i, (k.lists.roster (.pxReadyTasksLists p)).turn.head? = some i := by
    cases hturn : (k.lists.roster (.pxReadyTasksLists p)).turn with
    | nil =>
      have := Roster.mem_turn.mpr hmem
      rw [hturn] at this
      cases this
    | cons i rest => exact ⟨i, rfl⟩
  obtain ⟨u, rfl, hu⟩ := h.ready_item (Roster.mem_turn.mp (List.mem_of_mem_head? hi))
  obtain rfl : S.uxPriority u = p := h.priority_of_ready hu
  refine ⟨u, ⟨hu, ?_, hi⟩, ?_⟩
  · intro t ht
    have hle := (highest_spec ((h.top _).mpr ⟨t, ht⟩)).2
    rw [← hp] at hle
    exact hle
  · have hlength : 0 < (k.lists.items (.pxReadyTasksLists (S.uxPriority u))).length := List.length_pos_of_mem hmem
    have hsame : (⟨portGET_HIGHEST_PRIORITY k.uxTopReadyPriority, hbound⟩ : Fin configMAX_PRIORITIES) = S.uxPriority u :=
      Fin.ext hp.symm
    unfold vTaskSwitchContext
    rw [if_neg (not_not.mpr hsuspended), dif_pos hbound, hsame]
    simp only [configASSERT, gt_iff_lt, hlength, decide_true, if_true, KernelLists.reply, hi]
    rfl

/-! ## A new task -/

/-- What both ways to make a task do. -/
def make (S : TaskSet τ) (k : Scheduler τ ε) (t : τ) : Scheduler τ ε :=
  let k := k.list (.setValue (.xEventListItem t) (configMAX_PRIORITIES - S.uxPriority t))
  { k with tasks := k.tasks ++ [t] }.prvAddTaskToReadyList S t

/-- A new task is ready, and no other has moved. -/
structure Made (S : TaskSet τ) (t : τ) (k k' : Scheduler τ ε) : Prop where
  frame : k' =
    { k with
      lists := k'.lists
      listCalls := k'.listCalls
      uxTopReadyPriority := k'.uxTopReadyPriority
      tasks := k.tasks ++ [t] }
  ready : Ready S k' t
  absent : k.state t = none
  event : k'.event = k.event
  state : ∀ u, u ≠ t → k'.state u = k.state u
  wakeTime : k'.wakeTime = k.wakeTime
  added : Added S (· = t) k k'

theorem make_spec (h : Sound S v k) (ht : t ∉ k.tasks) : Sound S v (k.make S t) ∧ Made S t k (k.make S t) := by
  have hstate : k.state t = none := by
    by_contra hsome
    exact ht ((h.made t).mpr hsome)
  have hevent : k.event t = none := by
    cases hevent : k.event t with
    | none => rfl
    | some l =>
      obtain ⟨-, m, hm, -⟩ := h.events t l hevent
      rw [hstate] at hm
      cases hm
  obtain ⟨-, hdelayed, hoverflow, -⟩ := h.delayed_ne
  have hbound : configMAX_PRIORITIES - (S.uxPriority t : Nat) ≤ portMAX_DELAY :=
    Nat.le_trans (Nat.sub_le _ _) (by decide)
  have hset := h.logged.list (c := .setValue (.xEventListItem t) (configMAX_PRIORITIES - S.uxPriority t)) ⟨hevent, hbound⟩
  have hlogged : Logged v (k.make S t) := (hset.list (c := .insertEnd (readyList S t) (.xStateListItem t)) hstate).of_eq rfl rfl
  have hadded : Added S (· = t) k (k.make S t) := by
    refine ⟨[.setValue (.xEventListItem t) (configMAX_PRIORITIES - S.uxPriority t),
      .insertEnd (readyList S t) (.xStateListItem t)], List.append_assoc _ _ _, ?_⟩
    intro c hc
    rcases List.mem_pair.mp hc with rfl | rfl
    · exact ⟨rfl, _, rfl, rfl⟩
    · exact ⟨fun e => by simp [readyList], _, rfl, rfl⟩
  have hcontainer : (k.make S t).lists.container =
      Function.update k.lists.container (.xStateListItem t) (some (readyList S t)) := rfl
  have hvalue : (k.make S t).lists.value =
      Function.update k.lists.value (.xEventListItem t) (configMAX_PRIORITIES - S.uxPriority t) := rfl
  have hready : Ready S (k.make S t) t := by
    show (k.make S t).lists.container _ = _
    rw [hcontainer, Function.update_self]
  have hothers : ∀ u, u ≠ t → (k.make S t).state u = k.state u := by
    intro u hu
    show (k.make S t).lists.container _ = k.lists.container _
    rw [hcontainer, Function.update_of_ne (by simpa using hu)]
  have hevents : (k.make S t).event = k.event := by
    funext u
    show (k.make S t).lists.container _ = k.lists.container _
    rw [hcontainer, Function.update_of_ne (by simp)]
  have hwake : (k.make S t).wakeTime = k.wakeTime := by
    funext u
    show (k.make S t).lists.value _ = k.lists.value _
    rw [hvalue, Function.update_of_ne (by simp)]
  have hplace : ∀ u l, (k.make S t).state u = some l → u = t ∧ l = readyList S t ∨ u ≠ t ∧ k.state u = some l := by
    intro u l hl
    by_cases hu : u = t
    · rw [hu, show (k.make S t).state t = _ from hready] at hl
      exact Or.inl ⟨hu, (Option.some.inj hl).symm⟩
    · rw [hothers u hu] at hl
      exact Or.inr ⟨hu, hl⟩
  refine ⟨⟨hlogged, h.pointers, ?_, ?_, ?_, ?_, ?_, h.tick, ?_, ?_, ?_, ?_, ?_⟩, ⟨rfl, hready, hstate, hevents, hothers, hwake, hadded⟩⟩
  · intro u
    show u ∈ k.tasks ++ [t] ↔ _
    rw [List.mem_append, List.mem_singleton, h.made]
    by_cases hu : u = t
    · rw [hu, show (k.make S t).state t = _ from hready]
      simp
    · rw [hothers u hu]
      simp [hu]
  · intro u l hl
    rcases hplace u l hl with ⟨rfl, rfl⟩ | ⟨-, hl⟩
    · exact Or.inl rfl
    · exact h.places u l hl
  · intro u l hl
    rw [hevents] at hl
    obtain ⟨hlist, m, hm, hne⟩ := h.events u l hl
    refine ⟨hlist, m, ?_, hne⟩
    rw [hothers u ?_, hm]
    rintro rfl
    rw [hevent] at hl
    cases hl
  · intro p
    show (portRECORD_READY_PRIORITY (S.uxPriority t) k.uxTopReadyPriority).getLsbD p = true ↔ _
    rw [getLsbD_record _ (Nat.lt_trans p.isLt (by decide)), h.top]
    constructor
    · rintro (⟨u, hu⟩ | hp)
      · refine ⟨u, ?_⟩
        rw [hothers u ?_, hu]
        rintro rfl
        rw [hstate] at hu
        cases hu
      · refine ⟨t, ?_⟩
        rw [show (k.make S t).state t = _ from hready, readyList, Fin.ext hp]
    · rintro ⟨u, hu⟩
      rcases hplace u _ hu with ⟨-, hp⟩ | ⟨-, hu⟩
      · unfold readyList at hp
        injection hp with hp
        exact Or.inr (congrArg Fin.val hp)
      · exact Or.inl ⟨u, hu⟩
  · intro i hi
    exact getLsbD_record_high h.top_high (S.uxPriority t) hi
  · intro u hu
    rw [hwake]
    rcases hplace u _ hu with ⟨-, hready⟩ | ⟨-, hu⟩
    · exact absurd hready (hdelayed _)
    · exact h.due u hu
  · intro u hu
    rw [hwake]
    rcases hplace u _ hu with ⟨-, hready⟩ | ⟨-, hu⟩
    · exact absurd hready (hoverflow _)
    · exact h.later u hu
  · show (((k.lists.setValue _ _).insertEnd _ _).items k.pxDelayedTaskList).Pairwise _
    rw [KernelLists.items_insertEnd_of_ne _ (hdelayed _)]
    exact h.coherent.sorted_setValue hevent _ h.ordered
  · show (((k.lists.setValue _ _).insertEnd _ _).items k.pxOverflowDelayedTaskList).Pairwise _
    rw [KernelLists.items_insertEnd_of_ne _ (hoverflow _)]
    exact h.coherent.sorted_setValue hevent _ h.ordered_later
  · intro u hu
    rw [hwake]
    rcases hplace u _ hu with ⟨-, hready⟩ | ⟨-, hu⟩
    · exact absurd hready (hdelayed _)
    · exact h.next u hu

end Scheduler

end Rtu

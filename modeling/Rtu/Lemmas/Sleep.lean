import Rtu.Lemmas.Scheduler

/-!
# The running task goes to sleep

It leaves its ready list, and is put into a delayed list by the time to wake, or into the list of the tasks that wait without an end.
-/

namespace Rtu

open Rosters

variable {τ ε : Type}

namespace Scheduler

variable {S : TaskSet τ} {v : TaskItem τ → Nat} {k k' k'' : Scheduler τ ε} {t u : τ} [DecidableEq τ] [DecidableEq ε]

/-- The event item of the running task may have been put into an event list. -/
structure Posted (S : TaskSet τ) (v : TaskItem τ → Nat) (o : Option (TaskList ε)) (k k' : Scheduler τ ε) : Prop where
  frame : k' = { k with lists := k'.lists, listCalls := k'.listCalls }
  logged : Logged v k'
  value : k'.lists.value = k.lists.value
  container : k'.lists.container = Function.update k.lists.container (.xEventListItem k.pxCurrentTCB) o
  items : ∀ l, (∀ e, l ≠ .eventList e) → k'.lists.items l = k.lists.items l
  added : Added S (· = k.pxCurrentTCB) k k'

/-- The running task sleeps for a number of ticks, or until an event comes. -/
structure Slept (S : TaskSet τ) (n : Nat) (indefinite : Bool) (o : Option (TaskList ε)) (k k' : Scheduler τ ε) : Prop where
  kept : Kept k k'
  yieldPending : k'.xYieldPending = k.xYieldPending
  time : k'.time = k.time
  state : ∀ t, t ≠ k.pxCurrentTCB → k'.state t = k.state t
  event : ∀ t, t ≠ k.pxCurrentTCB → k'.event t = k.event t
  event_current : k'.event k.pxCurrentTCB = o
  asleep : ¬(n = portMAX_DELAY ∧ indefinite) → k'.Asleep k.pxCurrentTCB ∧ k'.left k.pxCurrentTCB = n
  suspended : n = portMAX_DELAY ∧ indefinite → k'.state k.pxCurrentTCB = some .xSuspendedTaskList
  asleep_others : ∀ t, t ≠ k.pxCurrentTCB → (k'.Asleep t ↔ k.Asleep t) ∧ k'.left t = k.left t
  added : Added S (· = k.pxCurrentTCB) k k'

/-- The running task has left its ready list. -/
structure Gone (S : TaskSet τ) (v : TaskItem τ → Nat) (o : Option (TaskList ε)) (k k' : Scheduler τ ε) : Prop where
  frame : Frame k k'
  next : k'.xNextTaskUnblockTime = k.xNextTaskUnblockTime
  logged : Logged v k'
  value : k'.lists.value = k.lists.value
  container : k'.lists.container = Function.update (Function.update k.lists.container (.xEventListItem k.pxCurrentTCB) o)
    (.xStateListItem k.pxCurrentTCB) none
  items : ∀ l, (∀ p, l ≠ .pxReadyTasksLists p) → (∀ e, l ≠ .eventList e) → k'.lists.items l = k.lists.items l
  top : ∀ p : Fin configMAX_PRIORITIES, k'.uxTopReadyPriority.getLsbD p = true ↔
    ∃ t, t ≠ k.pxCurrentTCB ∧ k.state t = some (.pxReadyTasksLists p)
  top_high : ∀ i, configMAX_PRIORITIES ≤ i → k'.uxTopReadyPriority.getLsbD i = false
  added : Added S (· = k.pxCurrentTCB) k k'

theorem Frame.list (h : Frame k k') (c : ListCall (TaskItem τ) (TaskList ε)) :
    Frame k (k'.list c) :=
  h.trans rfl

/-- The list that the running task leaves is empty when no other task of its priority is ready. -/
theorem leaveReadyList_spec {o : Option (TaskList ε)} (h : Sound S v k) (hready : Ready S k k.pxCurrentTCB)
    (ho : o ≠ some (readyList S k.pxCurrentTCB)) (hposted : Posted S v o k k') : Gone S v o k (k'.leaveReadyList S) := by
  obtain ⟨hframe, hlogged, hvalue, hcontainer, hitems, hadded⟩ := hposted
  obtain ⟨lists, listCalls, rfl⟩ : ∃ lists listCalls, k' = { k with lists := lists, listCalls := listCalls } :=
    ⟨_, _, hframe⟩
  simp only at hvalue hcontainer hitems
  have hcoherent : lists.Coherent := hlogged.coherent
  have hstate : ∀ t, lists.container (.xStateListItem t) = k.state t := by
    intro t
    rw [hcontainer, Function.update_of_ne (by simp)]
    rfl
  have hin : lists.container (.xStateListItem k.pxCurrentTCB) = some (readyList S k.pxCurrentTCB) :=
    (hstate _).trans hready
  have hempty : (lists.remove (.xStateListItem k.pxCurrentTCB)).items (readyList S k.pxCurrentTCB) = [] ↔
      ∀ t, t ≠ k.pxCurrentTCB → k.state t ≠ some (readyList S k.pxCurrentTCB) := by
    rw [KernelLists.items_remove_eq_nil _ hcoherent]
    constructor
    · intro hnone t ht
      rw [← hstate]
      exact hnone _ (by simpa using ht)
    · intro hnone i hi
      cases i with
      | xStateListItem t =>
        rw [hstate]
        exact hnone t (by simpa using hi)
      | xEventListItem t =>
        by_cases ht : t = k.pxCurrentTCB
        · rw [ht, hcontainer, Function.update_self]
          exact ho
        · rw [hcontainer, Function.update_of_ne (by simpa using ht)]
          intro hl
          rcases (h.events t _ hl).1 with hl | ⟨e, hl⟩ <;> cases hl
  have hlogged' := hlogged.remove (i := .xStateListItem k.pxCurrentTCB) (by rw [hin]; simp)
  have hcontainer' : (lists.remove (.xStateListItem k.pxCurrentTCB)).container =
      Function.update (Function.update k.lists.container (.xEventListItem k.pxCurrentTCB) o)
        (.xStateListItem k.pxCurrentTCB) none := by
    rw [KernelLists.container_remove, hcontainer]
  have hvalue' : (lists.remove (.xStateListItem k.pxCurrentTCB)).value = k.lists.value := by
    rw [KernelLists.value_remove, hvalue]
  have hitems' : ∀ l, (∀ p, l ≠ .pxReadyTasksLists p) → (∀ e, l ≠ .eventList e) →
      (lists.remove (.xStateListItem k.pxCurrentTCB)).items l = k.lists.items l := by
    intro l hl hl'
    rw [KernelLists.items_remove hcoherent hin, if_neg (show l ≠ readyList S _ from hl _), hitems l hl']
  have hother : ∀ t p, k.state t = some (.pxReadyTasksLists p) → p ≠ S.uxPriority k.pxCurrentTCB → t ≠ k.pxCurrentTCB := by
    rintro t p ht hp rfl
    exact hp (h.priority_of_ready ht).symm
  have hadded' := hadded.list (c := .remove (.xStateListItem k.pxCurrentTCB)) trivial rfl rfl
  unfold leaveReadyList
  simp only [uxListRemove, KernelLists.reply, hin, List.length_eq_zero_iff]
  split
  · rename_i hzero
    have hnobody := hempty.mp hzero
    refine ⟨rfl, rfl, hlogged'.of_eq rfl rfl, hvalue', hcontainer', hitems', ?_, ?_, hadded'.trans (.of_eq rfl)⟩
    · intro p
      show (portRESET_READY_PRIORITY (S.uxPriority k.pxCurrentTCB) k.uxTopReadyPriority).getLsbD p = true ↔ _
      rw [getLsbD_reset _ (Nat.lt_trans p.isLt (by decide)), h.top]
      constructor
      · rintro ⟨⟨t, ht⟩, hp⟩
        exact ⟨t, hother t p ht fun heq => hp (congrArg Fin.val heq), ht⟩
      · rintro ⟨t, hne, ht⟩
        refine ⟨⟨t, ht⟩, fun heq => hnobody t hne ?_⟩
        rw [ht, readyList, Fin.ext heq]
    · intro i hi
      show (portRESET_READY_PRIORITY (S.uxPriority k.pxCurrentTCB) k.uxTopReadyPriority).getLsbD i = false
      by_cases hi' : i < 32
      · rw [← Bool.not_eq_true, getLsbD_reset _ hi']
        rintro ⟨hbit, -⟩
        rw [h.top_high i hi] at hbit
        cases hbit
      · exact getLsbD_of_le (by omega)
  · rename_i hnonzero
    obtain ⟨u, hu, hready'⟩ : ∃ t, t ≠ k.pxCurrentTCB ∧ k.state t = some (readyList S k.pxCurrentTCB) := by
      by_contra hnone
      refine hnonzero (hempty.mpr ?_)
      intro t hne ht
      exact hnone ⟨t, hne, ht⟩
    refine ⟨rfl, rfl, hlogged', hvalue', hcontainer', hitems', ?_, h.top_high, hadded'⟩
    intro p
    show k.uxTopReadyPriority.getLsbD p = true ↔ _
    rw [h.top]
    constructor
    · rintro ⟨t, ht⟩
      by_cases hp : p = S.uxPriority k.pxCurrentTCB
      · exact ⟨u, hu, by rw [hready', readyList, hp]⟩
      · exact ⟨t, hother t p ht hp, ht⟩
    · rintro ⟨t, -, ht⟩
      exact ⟨t, ht⟩

/-- The running task is in a list of tasks that are not ready, with a time to wake. -/
structure Settled (S : TaskSet τ) (v : TaskItem τ → Nat) (o : Option (TaskList ε)) (L : TaskList ε) (x : Nat) (k k' : Scheduler τ ε) :
    Prop where
  frame : Frame k k'
  logged : Logged v k'
  current : k'.wakeTime k.pxCurrentTCB = x
  others : ∀ t, t ≠ k.pxCurrentTCB → k'.wakeTime t = k.wakeTime t
  container : k'.lists.container = Function.update (Function.update k.lists.container (.xEventListItem k.pxCurrentTCB) o)
    (.xStateListItem k.pxCurrentTCB) (some L)
  top : ∀ p : Fin configMAX_PRIORITIES, k'.uxTopReadyPriority.getLsbD p = true ↔
    ∃ t, t ≠ k.pxCurrentTCB ∧ k.state t = some (.pxReadyTasksLists p)
  top_high : ∀ i, configMAX_PRIORITIES ≤ i → k'.uxTopReadyPriority.getLsbD i = false
  added : Added S (· = k.pxCurrentTCB) k k'
  ordered : (k'.lists.items k.pxDelayedTaskList).Pairwise fun i j => k'.lists.value i ≤ k'.lists.value j
  ordered_later : (k'.lists.items k.pxOverflowDelayedTaskList).Pairwise fun i j => k'.lists.value i ≤ k'.lists.value j
  next : k'.xNextTaskUnblockTime ≤ k.xNextTaskUnblockTime
  next_current : L = k.pxDelayedTaskList → k'.xNextTaskUnblockTime ≤ x

namespace Settled

variable {o : Option (TaskList ε)} {L : TaskList ε} {x : Nat}

theorem state_current (hset : Settled S v o L x k k') : k'.state k.pxCurrentTCB = some L := by
  show k'.lists.container _ = _
  rw [hset.container, Function.update_self]

theorem state_others (hset : Settled S v o L x k k') (ht : t ≠ k.pxCurrentTCB) : k'.state t = k.state t := by
  show k'.lists.container _ = _
  rw [hset.container, Function.update_of_ne (by simpa using ht), Function.update_of_ne (by simp)]
  rfl

theorem event_current (hset : Settled S v o L x k k') : k'.event k.pxCurrentTCB = o := by
  show k'.lists.container _ = _
  rw [hset.container, Function.update_of_ne (by simp), Function.update_self]

theorem event_others (hset : Settled S v o L x k k') (ht : t ≠ k.pxCurrentTCB) : k'.event t = k.event t := by
  show k'.lists.container _ = _
  rw [hset.container, Function.update_of_ne (by simp), Function.update_of_ne (by simpa using ht)]
  rfl

theorem delayed (hset : Settled S v o L x k k') : k'.pxDelayedTaskList = k.pxDelayedTaskList := by rw [hset.frame]

theorem overflow (hset : Settled S v o L x k k') : k'.pxOverflowDelayedTaskList = k.pxOverflowDelayedTaskList := by
  rw [hset.frame]

theorem tick (hset : Settled S v o L x k k') : k'.xTickCount = k.xTickCount := by rw [hset.frame]

/-- The lists are sound when the running task waits for a time ahead. -/
theorem sound (hset : Settled S v o L x k k') (h : Sound S v k) (hready : Ready S k k.pxCurrentTCB)
    (hL : L = k.pxDelayedTaskList ∨ L = k.pxOverflowDelayedTaskList ∨ L = .xSuspendedTaskList)
    (hdue : L = k.pxDelayedTaskList → k.xTickCount ≤ x) (hlater : L = k.pxOverflowDelayedTaskList → x < k.xTickCount)
    (ho : ∀ l, o = some l → ∃ e, l = .eventList e) : Sound S v k' := by
  obtain ⟨-, hdelayed, hoverflow, -⟩ := h.delayed_ne
  have hnot : ∀ p, L ≠ .pxReadyTasksLists p := by
    rintro p rfl
    rcases hL with hl | hl | hl
    · exact hdelayed p hl.symm
    · exact hoverflow p hl.symm
    · cases hl
  have hplace : ∀ t l, k'.state t = some l → t = k.pxCurrentTCB ∧ l = L ∨ t ≠ k.pxCurrentTCB ∧ k.state t = some l := by
    intro t l hl
    by_cases ht : t = k.pxCurrentTCB
    · rw [ht, hset.state_current] at hl
      exact Or.inl ⟨ht, (Option.some.inj hl).symm⟩
    · rw [hset.state_others ht] at hl
      exact Or.inr ⟨ht, hl⟩
  refine ⟨hset.logged, ?_, ?_, ?_, ?_, ?_, hset.top_high, ?_, ?_, ?_, ?_, ?_, ?_⟩
  · rw [hset.delayed, hset.overflow]
    exact h.pointers
  · intro t
    rw [show k'.tasks = k.tasks by rw [hset.frame], h.made]
    by_cases ht : t = k.pxCurrentTCB
    · rw [ht, hset.state_current, show k.state k.pxCurrentTCB = _ from hready]
      simp
    · rw [hset.state_others ht]
  · intro t l hl
    rw [hset.delayed, hset.overflow]
    rcases hplace t l hl with ⟨-, rfl⟩ | ⟨-, hl⟩
    · exact Or.inr hL
    · exact h.places t l hl
  · intro t l hl
    by_cases ht : t = k.pxCurrentTCB
    · rw [ht, hset.event_current] at hl
      refine ⟨Or.inr (ho l hl), L, ?_, hnot _⟩
      rw [ht, hset.state_current]
    · rw [hset.event_others ht] at hl
      obtain ⟨hlist, m, hm, hne⟩ := h.events t l hl
      exact ⟨hlist, m, by rw [hset.state_others ht, hm], hne⟩
  · intro p
    rw [hset.top]
    constructor
    · rintro ⟨t, ht, hl⟩
      exact ⟨t, by rw [hset.state_others ht, hl]⟩
    · rintro ⟨t, hl⟩
      rcases hplace t _ hl with ⟨-, hp⟩ | ⟨ht, hl⟩
      · exact absurd hp.symm (hnot p)
      · exact ⟨t, ht, hl⟩
  · rw [hset.tick]
    exact h.tick
  · intro t hl
    rw [hset.delayed] at hl
    rw [hset.tick]
    rcases hplace t _ hl with ⟨rfl, hlist⟩ | ⟨ht, hl⟩
    · rw [hset.current]
      exact hdue hlist.symm
    · rw [hset.others t ht]
      exact h.due t hl
  · intro t hl
    rw [hset.overflow] at hl
    rw [hset.tick]
    rcases hplace t _ hl with ⟨rfl, hlist⟩ | ⟨ht, hl⟩
    · rw [hset.current]
      exact hlater hlist.symm
    · rw [hset.others t ht]
      exact h.later t hl
  · rw [hset.delayed]
    exact hset.ordered
  · rw [hset.overflow]
    exact hset.ordered_later
  · intro t hl
    rw [hset.delayed] at hl
    rcases hplace t _ hl with ⟨rfl, hlist⟩ | ⟨ht, hl⟩
    · rw [hset.current]
      exact hset.next_current hlist.symm
    · rw [hset.others t ht]
      exact Nat.le_trans hset.next (h.next t hl)

end Settled

/-- A task that has left its ready list is put into a list. -/
theorem sleep_settled {o : Option (TaskList ε)} (h : Sound S v k) (hgone : Gone S v o k k') (n : Nat) (indefinite : Bool) :
    ∃ L x, Settled S v o L x k (k'.sleep n indefinite) ∧
      (n = portMAX_DELAY ∧ indefinite = true ∧ L = .xSuspendedTaskList ∨
        ¬(n = portMAX_DELAY ∧ indefinite = true) ∧ x = tickAdd k.xTickCount n ∧
          L = if x < k.xTickCount then k.pxOverflowDelayedTaskList else k.pxDelayedTaskList) := by
  have hframe := hgone.frame
  have hvalue := hgone.value
  obtain ⟨hne, hdelayed, hoverflow, hdelayed', hoverflow', -, -, hdelayed'', hoverflow''⟩ := h.delayed_ne
  have hcoherent := hgone.logged.coherent
  have hfree : k'.lists.container (.xStateListItem k.pxCurrentTCB) = none := by
    rw [hgone.container, Function.update_self]
  have hsorted : (k'.lists.items k.pxDelayedTaskList).Pairwise fun i j => k'.lists.value i ≤ k'.lists.value j := by
    rw [hgone.items _ hdelayed hdelayed'', hvalue]
    exact h.ordered
  have hsorted' : (k'.lists.items k.pxOverflowDelayedTaskList).Pairwise fun i j =>
      k'.lists.value i ≤ k'.lists.value j := by
    rw [hgone.items _ hoverflow hoverflow'', hvalue]
    exact h.ordered_later
  have hput : ∀ L : TaskList ε, Function.update k'.lists.container (.xStateListItem k.pxCurrentTCB) (some L) =
      Function.update (Function.update k.lists.container (.xEventListItem k.pxCurrentTCB) o)
        (.xStateListItem k.pxCurrentTCB) (some L) := by
    intro L
    rw [hgone.container, Function.update_idem]
  have hcurrent : k'.pxCurrentTCB = k.pxCurrentTCB := by rw [hframe]
  have hnext := hgone.next
  by_cases hforever : n = portMAX_DELAY ∧ indefinite = true
  · unfold sleep
    refine ⟨.xSuspendedTaskList, k.wakeTime k.pxCurrentTCB, ?_, Or.inl ⟨hforever.1, hforever.2, rfl⟩⟩
    simp only [if_pos hforever, hcurrent]
    refine ⟨hgone.frame.list _, hgone.logged.list hfree, ?_, ?_, hput _, hgone.top, hgone.top_high,
      hgone.added.list (fun e => by simp) rfl rfl, ?_, ?_, ?_, ?_⟩
    · exact congrFun hvalue _
    · exact fun t _ => congrFun hvalue _
    · simp only [list, KernelLists.call, KernelLists.items_insertEnd_of_ne _ hdelayed', KernelLists.value_insertEnd]
      exact hsorted
    · simp only [list, KernelLists.call, KernelLists.items_insertEnd_of_ne _ hoverflow', KernelLists.value_insertEnd]
      exact hsorted'
    · exact Nat.le_of_eq hnext
    · exact fun hlist => absurd hlist.symm hdelayed'
  · have hbound : tickAdd k.xTickCount n ≤ portMAX_DELAY := Nat.le_of_lt_succ (Nat.mod_lt _ (Nat.succ_pos _))
    have htick : k'.xTickCount = k.xTickCount := by rw [hframe]
    have hlist : k'.pxDelayedTaskList = k.pxDelayedTaskList := by rw [hframe]
    have hlist' : k'.pxOverflowDelayedTaskList = k.pxOverflowDelayedTaskList := by rw [hframe]
    refine ⟨_, tickAdd k.xTickCount n, ?_, Or.inr ⟨hforever, rfl, rfl⟩⟩
    obtain ⟨k₁, hk₁⟩ : ∃ k₁, k₁ = k'.list (.setValue (.xStateListItem k.pxCurrentTCB) (tickAdd k.xTickCount n)) := ⟨_, rfl⟩
    have hrest : k'.sleep n indefinite =
        if tickAdd k.xTickCount n < k.xTickCount then
          k₁.list (.insert k.pxOverflowDelayedTaskList (.xStateListItem k.pxCurrentTCB))
        else if tickAdd k.xTickCount n < k.xNextTaskUnblockTime then
          { k₁.list (.insert k.pxDelayedTaskList (.xStateListItem k.pxCurrentTCB)) with
            xNextTaskUnblockTime := tickAdd k.xTickCount n }
        else
          k₁.list (.insert k.pxDelayedTaskList (.xStateListItem k.pxCurrentTCB)) := by
      rw [hk₁, ← hcurrent, ← htick, ← hlist, ← hlist', ← hnext]
      unfold sleep
      rw [if_neg hforever]
      rfl
    rw [hrest]
    have hframe₁ : Frame k k₁ := hk₁ ▸ hframe.list _
    have hnext₁ : k₁.xNextTaskUnblockTime = k.xNextTaskUnblockTime := by rw [hk₁, ← hnext, Scheduler.list]
    have hlogged₁ : Logged v k₁ := hk₁ ▸ hgone.logged.list ⟨hfree, hbound⟩
    have hlists₁ : k₁.lists = k'.lists.setValue (.xStateListItem k.pxCurrentTCB) (tickAdd k.xTickCount n) := by
      rw [hk₁]
      rfl
    have hcontainer₁ : k₁.lists.container = k'.lists.container := by rw [hlists₁, KernelLists.container_setValue]
    have hfree₁ : k₁.lists.container (.xStateListItem k.pxCurrentTCB) = none := by rw [hcontainer₁, hfree]
    have hsorted₁ : (k₁.lists.items k.pxDelayedTaskList).Pairwise fun i j => k₁.lists.value i ≤ k₁.lists.value j := by
      rw [hlists₁]
      exact hcoherent.sorted_setValue hfree _ hsorted
    have hsorted₁' : (k₁.lists.items k.pxOverflowDelayedTaskList).Pairwise fun i j =>
        k₁.lists.value i ≤ k₁.lists.value j := by
      rw [hlists₁]
      exact hcoherent.sorted_setValue hfree _ hsorted'
    have hwake : k₁.lists.value (.xStateListItem k.pxCurrentTCB) = tickAdd k.xTickCount n := by
      rw [hlists₁, KernelLists.value_setValue, Function.update_self]
    have hothers : ∀ t, t ≠ k.pxCurrentTCB → k₁.lists.value (.xStateListItem t) = k.wakeTime t := by
      intro t ht
      rw [hlists₁, KernelLists.value_setValue, Function.update_of_ne (by simpa using ht), hvalue]
      rfl
    have hplace : ∀ L, (k₁.lists.insert L (.xStateListItem k.pxCurrentTCB)).container =
        Function.update (Function.update k.lists.container (.xEventListItem k.pxCurrentTCB) o)
          (.xStateListItem k.pxCurrentTCB) (some L) := by
      intro L
      rw [KernelLists.container_insert, hcontainer₁, hput]
    have hadded₁ : Added S (· = k.pxCurrentTCB) k k₁ := hk₁ ▸ hgone.added.list trivial rfl rfl
    have htop₁ : k₁.uxTopReadyPriority = k'.uxTopReadyPriority := by rw [hk₁, Scheduler.list]
    by_cases hwrap : tickAdd k.xTickCount n < k.xTickCount
    · rw [if_pos hwrap, if_pos hwrap]
      refine ⟨hframe₁.list _, hlogged₁.list hfree₁, hwake, hothers, hplace _, ?_, ?_, hadded₁.list hoverflow rfl rfl, ?_, ?_, ?_, ?_⟩
      · exact htop₁ ▸ hgone.top
      · exact htop₁ ▸ hgone.top_high
      · simp only [list, KernelLists.call, KernelLists.items_insert_of_ne _ hne]
        exact hsorted₁
      · exact KernelLists.sorted_insert hsorted₁' _
      · exact Nat.le_of_eq hnext₁
      · exact fun hlist => absurd hlist.symm hne
    · rw [if_neg hwrap, if_neg hwrap]
      have hset : ∀ y, y ≤ k.xNextTaskUnblockTime → y ≤ tickAdd k.xTickCount n →
          Settled S v o k.pxDelayedTaskList (tickAdd k.xTickCount n) k
            { k₁.list (.insert k.pxDelayedTaskList (.xStateListItem k.pxCurrentTCB)) with xNextTaskUnblockTime := y } := by
        intro y hy hy'
        have hadded := hadded₁.list (c := .insert k.pxDelayedTaskList (.xStateListItem k.pxCurrentTCB)) hdelayed rfl rfl
        refine ⟨(hframe₁.list _).trans rfl, (hlogged₁.list (c := .insert _ _) hfree₁).of_eq rfl rfl, hwake, hothers, hplace _,
          ?_, ?_, hadded.trans (.of_eq rfl), ?_, ?_, hy, fun _ => hy'⟩
        · exact htop₁ ▸ hgone.top
        · exact htop₁ ▸ hgone.top_high
        · exact KernelLists.sorted_insert hsorted₁ _
        · simp only [list, KernelLists.call, KernelLists.items_insert_of_ne _ hne.symm]
          exact hsorted₁'
      split
      · rename_i hsoon
        exact hset _ (Nat.le_of_lt hsoon) (Nat.le_refl _)
      · rename_i hlate
        have := hset k₁.xNextTaskUnblockTime (Nat.le_of_eq hnext₁) (by omega)
        exact this

omit [DecidableEq τ] [DecidableEq ε] in
/-- A time ahead is behind the wrap or before it. -/
theorem tickAdd_cases {a n : Nat} (ha : a ≤ portMAX_DELAY) (hn : 0 < n) (hn' : n ≤ portMAX_DELAY) :
    tickAdd a n < a ∧ tickAdd a n + (portMAX_DELAY + 1) - a = n ∨ a < tickAdd a n ∧ tickAdd a n - a = n := by
  unfold tickAdd
  by_cases hwrap : a + n ≤ portMAX_DELAY
  · rw [Nat.mod_eq_of_lt (by omega)]
    omega
  · rw [Nat.mod_eq_sub_mod (by omega), Nat.mod_eq_of_lt (by omega)]
    omega

/-- The running task leaves its ready list and sleeps. -/
theorem sleep_spec {o : Option (TaskList ε)} (h : Sound S v k) (hwaiting : k.Waiting) (hready : Ready S k k.pxCurrentTCB)
    (hgone : Gone S v o k k') (ho : ∀ l, o = some l → ∃ e, l = .eventList e) {n : Nat} (hn : 0 < n) (hn' : n ≤ portMAX_DELAY)
    (indefinite : Bool) :
    Sound S v (k'.sleep n indefinite) ∧ (k'.sleep n indefinite).Waiting ∧ Slept S n indefinite o k (k'.sleep n indefinite) := by
  obtain ⟨L, x, hset, hcase⟩ := sleep_settled h hgone n indefinite
  generalize k'.sleep n indefinite = k'' at *
  obtain ⟨hne, -, -, hdelayed, hoverflow, -⟩ := h.delayed_ne
  have hplace : L = k.pxDelayedTaskList ∧ k.xTickCount < x ∨ L = k.pxOverflowDelayedTaskList ∧ x < k.xTickCount ∨
      L = .xSuspendedTaskList := by
    rcases hcase with ⟨-, -, hL⟩ | ⟨-, rfl, hL⟩
    · exact Or.inr (Or.inr hL)
    · rcases tickAdd_cases h.tick hn hn' with ⟨hwrap, -⟩ | ⟨hahead, -⟩
      · rw [if_pos hwrap] at hL
        exact Or.inr (Or.inl ⟨hL, hwrap⟩)
      · rw [if_neg (Nat.not_lt_of_lt hahead)] at hL
        exact Or.inl ⟨hL, hahead⟩
  have hdue : L = k.pxDelayedTaskList → k.xTickCount < x := by
    intro hL
    rcases hplace with ⟨-, hlt⟩ | ⟨hL', -⟩ | hL'
    · exact hlt
    · exact absurd (hL.symm.trans hL') hne
    · exact absurd (hL.symm.trans hL') hdelayed
  have hlater : L = k.pxOverflowDelayedTaskList → x < k.xTickCount := by
    intro hL
    rcases hplace with ⟨hL', -⟩ | ⟨-, hlt⟩ | hL'
    · exact absurd (hL'.symm.trans hL) hne
    · exact hlt
    · exact absurd (hL.symm.trans hL') hoverflow
  refine ⟨hset.sound h hready ?_ (fun hL => Nat.le_of_lt (hdue hL)) hlater ho, ?_, ?_⟩
  · exact hplace.imp And.left (Or.imp And.left id)
  · intro t ht
    rw [hset.delayed] at ht
    rw [hset.tick]
    by_cases hcurrent : t = k.pxCurrentTCB
    · rw [hcurrent, hset.state_current] at ht
      rw [hcurrent, hset.current]
      exact hdue (Option.some.inj ht)
    · rw [hset.state_others hcurrent] at ht
      rw [hset.others t hcurrent]
      exact hwaiting t ht
  · refine ⟨hset.frame.kept, by rw [hset.frame], ?_, fun t => hset.state_others, fun t => hset.event_others, hset.event_current, ?_, ?_, ?_,
      hset.added⟩
    · rw [time, time, hset.frame]
    · intro hfinite
      obtain ⟨hx, hL⟩ := (hcase.resolve_left fun hforever => hfinite ⟨hforever.1, hforever.2.1⟩).2
      unfold Asleep left
      rw [hset.state_current, hset.delayed, hset.overflow, hset.tick, hset.current, hL, hx]
      rcases tickAdd_cases h.tick hn hn' with ⟨hwrap, hleft⟩ | ⟨hahead, hleft⟩
      · rw [if_pos hwrap, if_neg (by simpa using hne.symm)]
        exact ⟨Or.inr rfl, hleft⟩
      · rw [if_neg (Nat.not_lt_of_lt hahead), if_pos rfl]
        exact ⟨Or.inl rfl, hleft⟩
    · intro hforever
      rw [hset.state_current]
      rcases hcase with ⟨-, -, hL⟩ | ⟨hfinite, -⟩
      · rw [hL]
      · exact absurd hforever hfinite
    · intro t ht
      unfold Asleep left
      rw [hset.state_others ht, hset.delayed, hset.overflow, hset.tick, hset.others t ht]
      exact ⟨Iff.rfl, rfl⟩

/-- A task puts itself to sleep. -/
theorem prvAddCurrentTaskToDelayedList_spec (h : Sound S v k) (hwaiting : k.Waiting) (hready : Ready S k k.pxCurrentTCB)
    {n : Nat} (hn : 0 < n) (hn' : n ≤ portMAX_DELAY) (indefinite : Bool) :
    Sound S v (k.prvAddCurrentTaskToDelayedList S n indefinite) ∧
      (k.prvAddCurrentTaskToDelayedList S n indefinite).Waiting ∧
      Slept S n indefinite none k (k.prvAddCurrentTaskToDelayedList S n indefinite) := by
  have hposted : Posted S v none k k := by
    refine ⟨rfl, h.logged, rfl, ?_, fun _ _ => rfl, .refl k⟩
    exact (Function.update_eq_self_iff.mpr (h.event_of_ready hready).symm).symm
  exact sleep_spec h hwaiting hready (leaveReadyList_spec h hready (by simp) hposted) (by simp) hn hn' indefinite

/-- A task puts itself into an event list and to sleep. -/
theorem vTaskPlaceOnEventList_spec (h : Sound S v k) (hwaiting : k.Waiting) (hready : Ready S k k.pxCurrentTCB) (e : ε)
    {n : Nat} (hn : 0 < n) (hn' : n ≤ portMAX_DELAY) :
    Sound S v (k.vTaskPlaceOnEventList S e n) ∧ (k.vTaskPlaceOnEventList S e n).Waiting ∧
      Slept S n true (some (.eventList e)) k (k.vTaskPlaceOnEventList S e n) := by
  have hposted : Posted S v (some (.eventList e)) k
      (k.list (.insert (.eventList e) (.xEventListItem k.pxCurrentTCB))) := by
    refine ⟨rfl, h.logged.list (h.event_of_ready hready), rfl, rfl, ?_, (Added.refl k).list (fun p => by simp) rfl rfl⟩
    intro l hl
    exact KernelLists.items_insert_of_ne _ (hl e)
  refine sleep_spec h hwaiting hready (leaveReadyList_spec h hready ?_ hposted) ?_ hn hn' true
  · simp [readyList]
  · intro l hl
    exact ⟨e, (Option.some.inj hl).symm⟩

end Scheduler

end Rtu

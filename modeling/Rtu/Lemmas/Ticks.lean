import Rtu.Lemmas.Scheduler

/-!
# The tick

The tick count goes on, the delayed lists change places when it wraps, and the tasks whose time has come become ready.
-/

namespace Rtu

open Rosters

variable {τ ε : Type}

namespace Scheduler

variable {S : TaskSet τ} {v : TaskItem τ → Nat} {k k' k'' : Scheduler τ ε} {t u : τ} [DecidableEq τ] [DecidableEq ε]

/-- The next time may be set to any time that no delayed task wakes before. -/
theorem Sound.setNext (h : Sound S v k) {x : Nat} (hx : ∀ t, k.state t = some k.pxDelayedTaskList → x ≤ k.wakeTime t) :
    Sound S v { k with xNextTaskUnblockTime := x } :=
  ⟨h.logged.of_eq rfl rfl, h.pointers, h.made, h.places, h.events, h.top, h.top_high, h.tick, h.due, h.later, h.ordered,
    h.ordered_later, hx⟩

omit [DecidableEq τ] [DecidableEq ε] in
theorem woke_setNext (k : Scheduler τ ε) (x : Nat) : Woke S (fun _ => False) k { k with xNextTaskUnblockTime := x } :=
  ⟨rfl, rfl, fun _ => False.elim, fun _ _ => rfl, fun _ => False.elim, fun _ _ => rfl, fun _ _ => List.Sublist.refl _, .of_eq rfl⟩

/-- The first task of the delayed list wakes first. -/
theorem Sound.head_le (h : Sound S v k) {i : TaskItem τ} (hi : (k.lists.items k.pxDelayedTaskList).head? = some i) {t : τ}
    (ht : k.state t = some k.pxDelayedTaskList) : k.lists.value i ≤ k.wakeTime t := by
  have hmem := (h.coherent.member _ _).mp ht
  have hordered := h.ordered
  cases hitems : k.lists.items k.pxDelayedTaskList with
  | nil =>
    rw [hitems] at hi
    cases hi
  | cons j rest =>
    rw [hitems] at hi hmem hordered
    obtain rfl : j = i := by simpa using hi
    rcases List.mem_cons.mp hmem with heq | hmem
    · rw [← heq]
      exact Nat.le_refl _
    · exact (List.pairwise_cons.mp hordered).1 _ hmem

/-- The head of the delayed list is the state item of a task. -/
theorem Sound.head_task (h : Sound S v k) {i : TaskItem τ} (hi : (k.lists.items k.pxDelayedTaskList).head? = some i) :
    ∃ t, i = .xStateListItem t ∧ k.state t = some k.pxDelayedTaskList :=
  h.delayed_item (List.mem_of_mem_head? hi)

theorem Sound.no_delayed (h : Sound S v k) (hnone : (k.lists.items k.pxDelayedTaskList).head? = none) (t : τ) :
    k.state t ≠ some k.pxDelayedTaskList := by
  intro ht
  have hmem := (h.coherent.member _ _).mp ht
  rw [List.head?_eq_none_iff.mp hnone] at hmem
  cases hmem

/-- A list that has lost an item is shorter. -/
theorem length_lt_of_sublist {α : Type} {l l' : List α} {x : α} (h : l'.Sublist l) (hx : x ∈ l) (hx' : x ∉ l') :
    l'.length < l.length := by
  refine Nat.lt_of_le_of_ne h.length_le ?_
  intro heq
  rw [h.eq_of_length heq] at hx'
  exact hx' hx

/-- The delayed task whose time has come. -/
def Expired (k : Scheduler τ ε) (t : τ) : Prop := k.state t = some k.pxDelayedTaskList ∧ k.wakeTime t ≤ k.xTickCount

/-- The loop of the tick wakes the tasks whose time has come, and leaves those that wake later. -/
theorem unblockDelayed_spec (h : Sound S v k) {fuel : Nat} (hfuel : (k.lists.items k.pxDelayedTaskList).length < fuel) :
    Sound S v (k.unblockDelayed S k.xTickCount fuel).1 ∧ Woke S k.Expired k (k.unblockDelayed S k.xTickCount fuel).1 ∧
      (∀ t, (k.unblockDelayed S k.xTickCount fuel).1.state t = some k.pxDelayedTaskList → k.xTickCount < k.wakeTime t) ∧
      ((k.unblockDelayed S k.xTickCount fuel).2 = false → ∀ t, k.Expired t → S.uxPriority t < S.uxPriority k.pxCurrentTCB) := by
  induction fuel generalizing k with
  | zero => omega
  | succ fuel ih =>
    rw [unblockDelayed]
    split
    · rename_i hnone
      have hempty := h.no_delayed hnone
      refine ⟨h.setNext fun t ht => absurd ht (hempty t), ?_, fun t ht => absurd ht (hempty t),
        fun _ t ht => absurd ht.1 (hempty t)⟩
      exact (woke_setNext k _).congr fun t => ⟨False.elim, fun ht => hempty t ht.1⟩
    · rename_i i hi
      obtain ⟨t, rfl, ht⟩ := h.head_task hi
      have hfirst : ∀ u, k.state u = some k.pxDelayedTaskList → k.wakeTime t ≤ k.wakeTime u := fun u hu => h.head_le hi hu
      dsimp only [TaskItem.pvOwner]
      by_cases hlater : k.xTickCount < k.wakeTime t
      · rw [if_pos hlater]
        have hnobody : ∀ u, ¬k.Expired u := fun u hu => Nat.not_lt_of_le (Nat.le_trans (hfirst u hu.1) hu.2) hlater
        refine ⟨h.setNext hfirst, ?_, fun u hu => Nat.lt_of_lt_of_le hlater (hfirst u hu), fun _ u hu => absurd hu (hnobody u)⟩
        exact (woke_setNext k _).congr fun u => ⟨False.elim, hnobody u⟩
      · rw [if_neg hlater]
        have hnow : k.wakeTime t ≤ k.xTickCount := Nat.le_of_not_lt hlater
        obtain ⟨h₁, hwoke₁⟩ := unblock_woke h (h.blocked_of_delayed ht)
        have hgone : TaskItem.xStateListItem t ∉ (k.unblock S t).lists.items k.pxDelayedTaskList := by
          intro hmem
          have hstate := (h₁.coherent.member _ _).mpr hmem
          have hready : (k.unblock S t).state t = some (readyList S t) := hwoke₁.ready t rfl
          rw [show (k.unblock S t).state t = some k.pxDelayedTaskList from hstate] at hready
          exact h.delayed_ne.2.1 _ (Option.some.inj hready)
        have hshorter := length_lt_of_sublist (hwoke₁.sublist _ h.delayed_ne.2.1) ((h.coherent.member _ _).mp ht) hgone
        have hrest := ih h₁ (by rw [hwoke₁.delayed]; omega)
        rw [hwoke₁.delayed, hwoke₁.tick, hwoke₁.current] at hrest
        obtain ⟨h₂, hwoke₂, hlater, hswitch⟩ := hrest
        have hexpired : ∀ u, u = t ∨ (k.unblock S t).Expired u ↔ k.Expired u := by
          intro u
          by_cases hu : u = t
          · subst hu
            exact iff_of_true (Or.inl rfl) ⟨ht, hnow⟩
          · simp only [Expired, hwoke₁.state u hu, hwoke₁.wakeTime, hwoke₁.tick, hwoke₁.delayed, hu, false_or]
        refine ⟨h₂, (hwoke₁.trans hwoke₂).congr hexpired, ?_, ?_⟩
        · intro u hu
          have := hlater u hu
          rwa [hwoke₁.wakeTime] at this
        · intro hfalse u hu
          simp only [Bool.or_eq_false_iff, decide_eq_false_iff_not] at hfalse
          rw [hwoke₂.current, hwoke₁.current] at hfalse
          rcases (hexpired u).mpr hu with rfl | hu
          · exact Fin.not_le.mp hfalse.2
          · exact hswitch hfalse.1 u hu

/-- The next time is set to that of the first delayed task. -/
theorem prvResetNextTaskUnblockTime_spec {y : Nat} (h : Sound S v { k with xNextTaskUnblockTime := y }) :
    ∃ x, k.prvResetNextTaskUnblockTime = { k with xNextTaskUnblockTime := x } ∧
      Sound S v { k with xNextTaskUnblockTime := x } := by
  unfold prvResetNextTaskUnblockTime
  split
  · rename_i hnone
    exact ⟨portMAX_DELAY, rfl, h.setNext fun t ht => absurd ht (h.no_delayed hnone t)⟩
  · rename_i i hi
    obtain ⟨t, rfl, -⟩ := h.head_task hi
    exact ⟨k.wakeTime t, rfl, h.setNext fun u hu => h.head_le hi hu⟩

theorem Sound.wakeTime_le (h : Sound S v k) (t : τ) : k.wakeTime t ≤ portMAX_DELAY := h.coherent.bounded _

theorem Sound.left_pos (h : Sound S v k) (hwaiting : k.Waiting) (t : τ) : 0 < k.left t := by
  unfold left
  split
  · rename_i hdelayed
    have := hwaiting t hdelayed
    omega
  · have := h.tick
    omega

/-- The tick count goes on: the tasks that had one tick left are those whose time has come. -/
theorem nextTick_spec (h : Sound S v k) (hwaiting : k.Waiting) :
    Sound S v k.nextTick ∧ (∀ t, k.nextTick.Expired t ↔ k.Asleep t ∧ k.left t = 1) ∧
      (∀ t, k.nextTick.Asleep t ↔ k.Asleep t) ∧ (∀ t, k.Asleep t → ¬k.nextTick.Expired t → k.nextTick.left t + 1 = k.left t) ∧
      k.nextTick.time = k.time + 1 ∧ k.nextTick.lists = k.lists ∧ k.nextTick.listCalls = k.listCalls ∧
      Kept k k.nextTick ∧
      k.nextTick.xYieldPending = k.xYieldPending := by
  have htick := h.tick
  have hwake := h.wakeTime_le
  obtain ⟨hne, -⟩ := h.delayed_ne
  by_cases hwrap : k.xTickCount = portMAX_DELAY
  · -- every task that wakes before the wrap has woken
    have hnone : ∀ t, k.state t ≠ some k.pxDelayedTaskList := by
      intro t ht
      have := hwaiting t ht
      have := hwake t
      omega
    have hempty : k.lists.items k.pxDelayedTaskList = [] := by
      rw [List.eq_nil_iff_forall_not_mem]
      intro i hi
      obtain ⟨t, -, ht⟩ := h.delayed_item hi
      exact hnone t ht
    have hnext : tickAdd k.xTickCount 1 = 0 := by
      rw [tickAdd, hwrap, Nat.mod_self]
    have hswitched : Sound S v
        { k with
          xTickCount := 0
          xNumOfOverflows := k.xNumOfOverflows + 1
          pxDelayedTaskList := k.pxOverflowDelayedTaskList
          pxOverflowDelayedTaskList := k.pxDelayedTaskList
          xNextTaskUnblockTime := 0 } := by
      refine ⟨h.logged.of_eq rfl rfl, ?_, h.made, ?_, h.events, h.top, h.top_high, Nat.zero_le _, fun t _ => Nat.zero_le _,
        ?_, h.ordered_later, h.ordered, fun t _ => Nat.zero_le _⟩
      · exact h.pointers.symm.imp And.symm And.symm
      · intro t l hl
        rcases h.places t l hl with hlist | hlist | hlist | hlist
        · exact Or.inl hlist
        · exact Or.inr (Or.inr (Or.inl hlist))
        · exact Or.inr (Or.inl hlist)
        · exact Or.inr (Or.inr (Or.inr hlist))
      · intro t ht
        exact absurd ht (hnone t)
    obtain ⟨x, hreset, hsound⟩ := prvResetNextTaskUnblockTime_spec
      (k := { k with
        xTickCount := 0
        xNumOfOverflows := k.xNumOfOverflows + 1
        pxDelayedTaskList := k.pxOverflowDelayedTaskList
        pxOverflowDelayedTaskList := k.pxDelayedTaskList }) hswitched
    have hstep : k.nextTick =
        { k with
          xTickCount := 0
          xNumOfOverflows := k.xNumOfOverflows + 1
          pxDelayedTaskList := k.pxOverflowDelayedTaskList
          pxOverflowDelayedTaskList := k.pxDelayedTaskList
          xNextTaskUnblockTime := x } := by
      rw [← hreset]
      simp only [nextTick, hnext, if_true, taskSWITCH_DELAYED_LISTS, configASSERT, hempty, List.isEmpty_nil]
    rw [hstep]
    refine ⟨hsound, ?_, fun t => or_comm, ?_, ?_, rfl, rfl, ⟨rfl, rfl, rfl, rfl, rfl, rfl, rfl⟩, rfl⟩
    · intro t
      simp only [Expired, Asleep, left, hnone t, false_or, if_false, hwrap]
      refine and_congr_right fun _ => ?_
      show k.wakeTime t ≤ 0 ↔ _
      omega
    · intro t ht hlater
      have hoverflow := ht.resolve_left (hnone t)
      show (if k.state t = some k.pxOverflowDelayedTaskList then k.wakeTime t - 0 else _) + 1 = k.left t
      rw [if_pos hoverflow, left, if_neg (hnone t), hwrap]
      omega
    · simp only [time, hwrap, Nat.succ_mul]
      omega
  · have hnext : tickAdd k.xTickCount 1 = k.xTickCount + 1 := Nat.mod_eq_of_lt (by omega)
    have hstep : k.nextTick = { k with xTickCount := k.xTickCount + 1 } := by
      simp [nextTick, hnext]
    rw [hstep]
    refine ⟨⟨h.logged.of_eq rfl rfl, h.pointers, h.made, h.places, h.events, h.top, h.top_high, ?_, hwaiting, ?_, h.ordered,
      h.ordered_later, h.next⟩, ?_, fun t => Iff.rfl, ?_, ?_, rfl, rfl, ⟨rfl, rfl, rfl, rfl, rfl, rfl, rfl⟩, rfl⟩
    · show k.xTickCount + 1 ≤ _
      omega
    · intro t ht
      exact Nat.lt_succ_of_lt (h.later t ht)
    · intro t
      have hlt := hwaiting t
      show k.state t = _ ∧ k.wakeTime t ≤ k.xTickCount + 1 ↔ _
      simp only [Asleep, left]
      by_cases ht : k.state t = some k.pxDelayedTaskList
      · have := hlt ht
        simp only [ht, true_and, true_or, if_true]
        omega
      · simp only [ht, false_and, false_or, if_false, false_iff, not_and]
        omega
    · intro t _ hlater
      have hlt := hwaiting t
      have hnot : ¬(k.state t = some k.pxDelayedTaskList ∧ k.wakeTime t ≤ k.xTickCount + 1) := hlater
      show (if k.state t = some k.pxDelayedTaskList then k.wakeTime t - (k.xTickCount + 1)
        else k.wakeTime t + (portMAX_DELAY + 1) - (k.xTickCount + 1)) + 1 = k.left t
      rw [left]
      split
      · rename_i ht
        have := hlt ht
        omega
      · omega
    · simp only [time]
      omega

/-- Ticks have been counted and the tasks of `W` unblocked: these and the tasks that had no more than the ticks left are ready,
the others have that many less left. -/
structure Ticked (S : TaskSet τ) (n : Nat) (W : τ → Prop) (k k' : Scheduler τ ε) : Prop where
  time : k'.time = k.time + n
  wakes : ∀ t, W t ∨ k.Asleep t ∧ k.left t ≤ n → Ready S k' t ∧ k'.event t = none
  sleeps : ∀ t, ¬W t → k.Asleep t → n < k.left t → k'.Asleep t ∧ k'.left t + n = k.left t ∧ k'.event t = k.event t
  others : ∀ t, ¬W t → ¬k.Asleep t → ¬k'.Asleep t ∧ k'.state t = k.state t ∧ k'.event t = k.event t
  added : Added S (fun t => W t ∨ k.Asleep t ∧ k.left t ≤ n) k k'

namespace Ticked

variable {n m : Nat} {W : τ → Prop}

/-- Some ticks, then others. -/
theorem trans (h₁ : Sound S v k') (h : Ticked S n W k k') (h' : Ticked S m (fun _ => False) k' k'') :
    Ticked S (n + m) W k k'' := by
  have hready : ∀ t, Ready S k' t → k'.event t = none → Ready S k'' t ∧ k''.event t = none := by
    intro t hready hevent
    obtain ⟨-, hstate, hevent'⟩ := h'.others t not_false (h₁.not_asleep hready)
    refine ⟨?_, hevent'.trans hevent⟩
    show k''.state t = _
    rw [hstate]
    exact hready
  refine ⟨?_, ?_, ?_, ?_, ?_⟩
  · rw [h'.time, h.time, Nat.add_assoc]
  · intro t ht
    by_cases hfirst : W t ∨ k.Asleep t ∧ k.left t ≤ n
    · obtain ⟨hr, he⟩ := h.wakes t hfirst
      exact hready t hr he
    · obtain ⟨hW, hn⟩ := not_or.mp hfirst
      obtain ⟨hasleep, hleft⟩ := ht.resolve_left hW
      obtain ⟨hasleep', hrest, -⟩ := h.sleeps t hW hasleep (by have := not_and.mp hn hasleep; omega)
      exact h'.wakes t (Or.inr ⟨hasleep', by omega⟩)
  · intro t hW ht hleft
    obtain ⟨hasleep, hrest, hevent⟩ := h.sleeps t hW ht (by omega)
    obtain ⟨hasleep', hrest', hevent'⟩ := h'.sleeps t not_false hasleep (by omega)
    exact ⟨hasleep', by omega, hevent'.trans hevent⟩
  · intro t hW ht
    obtain ⟨hasleep, hstate, hevent⟩ := h.others t hW ht
    obtain ⟨hasleep', hstate', hevent'⟩ := h'.others t not_false hasleep
    exact ⟨hasleep', hstate'.trans hstate, hevent'.trans hevent⟩
  · refine (h.added.mono fun t ht => ?_).trans (h'.added.mono fun t ht => ?_)
    · exact ht.imp id fun hleft => ⟨hleft.1, Nat.le_trans hleft.2 (Nat.le_add_right n m)⟩
    · obtain ⟨hasleep', hleft'⟩ := ht.resolve_left not_false
      by_cases hfirst : W t ∨ k.Asleep t ∧ k.left t ≤ n
      · exact hfirst.imp id fun hleft => ⟨hleft.1, Nat.le_trans hleft.2 (Nat.le_add_right n m)⟩
      · obtain ⟨hW, hn⟩ := not_or.mp hfirst
        by_cases hasleep : k.Asleep t
        · have hrest := (h.sleeps t hW hasleep (Nat.lt_of_not_le fun hle => hn ⟨hasleep, hle⟩)).2.1
          exact Or.inr ⟨hasleep, by omega⟩
        · exact absurd hasleep' (h.others t hW hasleep).1

omit [DecidableEq τ] in
theorem undisturbed (h : Ticked S n W k k') (hsame : Undisturbed k' k'') : Ticked S n W k k'' := by
  rw [hsame]
  exact ⟨h.time, h.wakes, h.sleeps, h.others, h.added⟩

omit [DecidableEq τ] in
theorem of_undisturbed (hsame : Undisturbed k k') (h : Ticked S n W k' k'') : Ticked S n W k k'' := by
  rw [hsame] at h
  exact ⟨h.time, h.wakes, h.sleeps, h.others, h.added⟩

omit [DecidableEq τ] in
/-- An event item is where it was, or in no list. -/
theorem event_cases (hticked : Ticked S n W k k') (t : τ) :
    k'.event t = none ∨ k'.event t = k.event t := by
  by_cases hwoken : W t ∨ k.Asleep t ∧ k.left t ≤ n
  · exact Or.inl (hticked.wakes t hwoken).2
  · obtain ⟨hW, hn⟩ := not_or.mp hwoken
    right
    by_cases hasleep : k.Asleep t
    · exact (hticked.sleeps t hW hasleep (Nat.lt_of_not_le fun hle => hn ⟨hasleep, hle⟩)).2.2
    · exact (hticked.others t hW hasleep).2.2

end Ticked

/-- Nobody has moved. -/
theorem Undisturbed.ticked (hsame : Undisturbed k k') (h : Sound S v k) (hwaiting : k.Waiting) :
    Ticked S 0 (fun _ => False) k k' := by
  have hsame' := hsame
  unfold Undisturbed at hsame'
  generalize k'.pxCurrentTCB = current, k'.uxPendedTicks = pended, k'.uxSchedulerSuspended = suspended,
    k'.xYieldPending = yieldPending, k'.pendSV = pendSV, k'.vAssertCalled = asserted, k'.doing = doing at hsame'
  subst hsame'
  refine ⟨(Nat.add_zero _).symm, ?_, fun t _ ht _ => ⟨ht, Nat.add_zero _, rfl⟩, fun t _ ht => ⟨ht, rfl, rfl⟩, .of_eq rfl⟩
  rintro t (hnobody | ⟨-, hleft⟩)
  · cases hnobody
  · have := h.left_pos hwaiting t
    omega

/-- Tasks are unblocked without a tick. -/
theorem Woke.ticked {W : τ → Prop} (hwoke : Woke S W k k') (h : Sound S v k) (hwaiting : k.Waiting) :
    k'.Waiting ∧ Ticked S 0 W k k' := by
  refine ⟨?_, ?_, ?_, ?_, ?_, hwoke.added.mono fun _ => Or.inl⟩
  · intro t ht
    rw [hwoke.delayed] at ht
    rw [hwoke.tick, hwoke.wakeTime]
    by_cases hW : W t
    · rw [show k'.state t = _ from hwoke.ready t hW] at ht
      exact absurd (Option.some.inj ht).symm (h.delayed_ne.2.1 _)
    · rw [hwoke.state t hW] at ht
      exact hwaiting t ht
  · rw [Nat.add_zero, time, time, hwoke.frame]
  · rintro t (hW | ⟨-, hleft⟩)
    · exact ⟨hwoke.ready t hW, hwoke.noEvent t hW⟩
    · have := h.left_pos hwaiting t
      omega
  · intro t hW ht _
    unfold Asleep left at *
    rw [hwoke.state t hW, hwoke.delayed, hwoke.overflow, hwoke.wakeTime, hwoke.tick]
    exact ⟨ht, Nat.add_zero _, hwoke.event t hW⟩
  · intro t hW ht
    unfold Asleep at *
    rw [hwoke.state t hW, hwoke.delayed, hwoke.overflow]
    exact ⟨ht, rfl, hwoke.event t hW⟩

/-- A tick that is counted. -/
theorem countTick_spec (h : Sound S v k) (hwaiting : k.Waiting) :
    Sound S v (k.countTick S).1 ∧ (k.countTick S).1.Waiting ∧ Ticked S 1 (fun _ => False) k (k.countTick S).1 ∧
      Kept k (k.countTick S).1 ∧ (k.countTick S).1.xYieldPending = k.xYieldPending ∧
      ((k.countTick S).2 = false → ∀ t, k.Asleep t → k.left t = 1 → S.uxPriority t < S.uxPriority k.pxCurrentTCB) := by
  obtain ⟨h₁, hexpired, hasleep, hleft, htime, hlists, hcalls, hkept, hyield⟩ := nextTick_spec h hwaiting
  have hstate : ∀ t, k.nextTick.state t = k.state t := by
    intro t
    rw [state, hlists, state]
  have hevent : ∀ t, k.nextTick.event t = k.event t := by
    intro t
    rw [event, hlists, event]
  -- what the loop does, or no loop at all
  obtain ⟨k₂, sw, hloop, h₂, hwoke, hlater, hswitch⟩ : ∃ k₂ sw,
      (if k.nextTick.xTickCount ≥ k.nextTick.xNextTaskUnblockTime then
        k.nextTick.unblockDelayed S k.nextTick.xTickCount ((k.nextTick.lists.items k.nextTick.pxDelayedTaskList).length + 1)
      else (k.nextTick, false)) = (k₂, sw) ∧ Sound S v k₂ ∧ Woke S k.nextTick.Expired k.nextTick k₂ ∧
      (∀ t, k₂.state t = some k.nextTick.pxDelayedTaskList → k.nextTick.xTickCount < k.nextTick.wakeTime t) ∧
      (sw = false → ∀ t, k.nextTick.Expired t → S.uxPriority t < S.uxPriority k.nextTick.pxCurrentTCB) := by
    split
    · obtain ⟨h₂, hwoke, hlater, hswitch⟩ := unblockDelayed_spec h₁ (Nat.lt_succ_self _)
      exact ⟨_, _, rfl, h₂, hwoke, hlater, hswitch⟩
    · rename_i hbefore
      have hlater : ∀ t, k.nextTick.state t = some k.nextTick.pxDelayedTaskList →
          k.nextTick.xTickCount < k.nextTick.wakeTime t :=
        fun t ht => Nat.lt_of_lt_of_le (Nat.lt_of_not_le hbefore) (h₁.next t ht)
      have hnobody : ∀ t, ¬k.nextTick.Expired t := fun t ht => Nat.not_lt_of_le ht.2 (hlater t ht.1)
      exact ⟨_, _, rfl, h₁, (Woke.refl _).congr fun t => ⟨False.elim, hnobody t⟩, hlater, fun _ t ht => absurd ht (hnobody t)⟩
  have hresult : k.countTick S =
      (k₂, sw || (k₂.lists.items (.pxReadyTasksLists (S.uxPriority k₂.pxCurrentTCB))).length > 1) := by
    unfold countTick
    simp only [hloop]
  rw [hresult]
  refine ⟨h₂, ?_, ⟨?_, ?_, ?_, ?_, ?_⟩, ?_, ?_, ?_⟩
  · intro t ht
    rw [hwoke.delayed] at ht
    rw [hwoke.tick, hwoke.wakeTime]
    exact hlater t ht
  · show k₂.time = _
    rw [← htime, time, hwoke.frame]
    rfl
  · rintro t (hnobody | ⟨ht, hle⟩)
    · cases hnobody
    have hone : k.left t = 1 := by
      have := h.left_pos hwaiting t
      omega
    have hnow := (hexpired t).mpr ⟨ht, hone⟩
    exact ⟨hwoke.ready t hnow, hwoke.noEvent t hnow⟩
  · intro t _ ht hlt
    have hnot : ¬k.nextTick.Expired t := fun hnow => by
      have := ((hexpired t).mp hnow).2
      omega
    have hsame : k₂.state t = k.nextTick.state t := hwoke.state t hnot
    refine ⟨?_, ?_, ?_⟩
    · have := (hasleep t).mpr ht
      unfold Asleep at this ⊢
      rwa [hsame, hwoke.delayed, hwoke.overflow]
    · rw [← hleft t ht hnot, left, left, hsame, hwoke.delayed, hwoke.wakeTime, hwoke.tick]
    · rw [hwoke.event t hnot, hevent]
  · intro t _ ht
    have hnot : ¬k.nextTick.Expired t := fun hnow => ht ((hexpired t).mp hnow).1
    have hsame : k₂.state t = k.nextTick.state t := hwoke.state t hnot
    refine ⟨?_, by rw [hsame, hstate], by rw [hwoke.event t hnot, hevent]⟩
    have := (not_congr (hasleep t)).mpr ht
    unfold Asleep at this ⊢
    rwa [hsame, hwoke.delayed, hwoke.overflow]
  · refine (Added.of_eq hcalls).trans (hwoke.added.mono fun t hnow => ?_)
    obtain ⟨hasleep, hone⟩ := (hexpired t).mp hnow
    exact Or.inr ⟨hasleep, Nat.le_of_eq hone⟩
  · exact hkept.trans hwoke.frame.kept
  · rw [← hyield, hwoke.frame]
  · intro hfalse t ht hone
    rw [Bool.or_eq_false_iff] at hfalse
    have := hswitch hfalse.1 t ((hexpired t).mpr ⟨ht, hone⟩)
    rwa [hkept.current] at this

end Scheduler

end Rtu

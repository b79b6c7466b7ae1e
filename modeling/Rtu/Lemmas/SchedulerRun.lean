import Rtu.Lemmas.SchedulerSteps

/-!
# Runs of the scheduler

`Steady`: what holds between two steps, whatever the tasks and the interrupts do.
-/

namespace Rtu

open Rosters

variable {τ ε : Type}

/-- What has to be suspended where a task is in its call. -/
def TaskCall.Fits (uxSchedulerSuspended : Nat) : TaskCall ε → Prop
  | .none => True
  | .delaying xTicksToDelay => uxSchedulerSuspended = 1 ∧ 0 < xTicksToDelay ∧ xTicksToDelay ≤ portMAX_DELAY
  | .placing _ xTicksToWait => uxSchedulerSuspended = 1 ∧ 0 < xTicksToWait ∧ xTicksToWait ≤ portMAX_DELAY
  | .resuming => uxSchedulerSuspended = 1
  | .yielding => uxSchedulerSuspended = 0

namespace Scheduler

variable {S : TaskSet τ} {v : TaskItem τ → Nat} {k k' k'' : Scheduler τ ε} {t u : τ} [DecidableEq τ] [DecidableEq ε]

/-- Between two steps: the idle task is ready; a task that does not run is in no call or about to ask for a switch; the task that
runs is ready, or a switch comes before it goes on; and a switch is on its way when a task of a higher priority is ready. -/
structure Steady (S : TaskSet τ) (v : TaskItem τ → Nat) (k : Scheduler τ ε) : Prop where
  sound : Sound S v k
  waiting : k.Waiting
  asserted : k.vAssertCalled = false
  caught_up : k.uxSchedulerSuspended = 0 → k.uxPendedTicks = 0 ∧ ∀ t, k.event t ≠ some .xPendingReadyList
  idle : Ready S k S.xIdleTask
  idle_call : k.doing S.xIdleTask = .none
  others : ∀ t, t ≠ k.pxCurrentTCB → k.doing t = .none ∨ k.doing t = .yielding
  fits : k.running.Fits k.uxSchedulerSuspended
  leaves : ¬Ready S k k.pxCurrentTCB →
    k.running = .resuming ∨ k.uxSchedulerSuspended = 0 ∧ (k.running = .yielding ∨ k.pendSV = true)
  highest : ∀ t, Ready S k t → S.uxPriority k.pxCurrentTCB < S.uxPriority t → k.xYieldPending = true ∨ k.pendSV = true

/-- A ready task stays ready. -/
theorem Ticked.ready {n : Nat} {W : τ → Prop} (hticked : Ticked S n W k k') (h : Sound S v k) (ht : Ready S k t) :
    Ready S k' t := by
  by_cases hW : W t
  · exact (hticked.wakes t (Or.inl hW)).1
  · show k'.state t = _
    rw [(hticked.others t hW (h.not_asleep ht)).2.1]
    exact ht

/-- A task that is ready was ready, or has been unblocked. -/
theorem Ticked.ready_cases {n : Nat} {W : τ → Prop} (hticked : Ticked S n W k k') (h' : Sound S v k') (ht : Ready S k' t) :
    Ready S k t ∨ W t ∨ k.Asleep t ∧ k.left t ≤ n := by
  by_cases hwoken : W t ∨ k.Asleep t ∧ k.left t ≤ n
  · exact Or.inr hwoken
  · obtain ⟨hW, hn⟩ := not_or.mp hwoken
    left
    by_cases hasleep : k.Asleep t
    · have hleft : n < k.left t := Nat.lt_of_not_le fun hle => hn ⟨hasleep, hle⟩
      exact absurd (hticked.sleeps t hW hasleep hleft).1 (h'.not_asleep ht)
    · show k.state t = _
      rw [← (hticked.others t hW hasleep).2.1]
      exact ht

/-- A step in which no task changes its call and the scheduler stays suspended or not. -/
theorem Steady.of_ticked {n : Nat} {W : τ → Prop} (h : Steady S v k) (h' : Sound S v k') (hwaiting : k'.Waiting)
    (hticked : Ticked S n W k k') (hasserted : k'.vAssertCalled = k.vAssertCalled)
    (hsuspended : k'.uxSchedulerSuspended = k.uxSchedulerSuspended) (hcurrent : k'.pxCurrentTCB = k.pxCurrentTCB)
    (hdoing : k'.doing = k.doing)
    (hcaught : k.uxSchedulerSuspended = 0 → k'.uxPendedTicks = 0 ∧ ∀ t, k'.event t ≠ some .xPendingReadyList)
    (hpendSV : k.pendSV = true → k'.pendSV = true)
    (hyield : k.xYieldPending = true → k'.xYieldPending = true ∨ k'.pendSV = true)
    (hhigher : ∀ t, (W t ∨ k.Asleep t ∧ k.left t ≤ n) → S.uxPriority k.pxCurrentTCB < S.uxPriority t →
      k'.xYieldPending = true ∨ k'.pendSV = true) : Steady S v k' := by
  have hrunning : k'.running = k.running := by rw [running, running, hdoing, hcurrent]
  refine ⟨h', hwaiting, hasserted.trans h.asserted, ?_, hticked.ready h.sound h.idle, ?_, ?_, ?_, ?_, ?_⟩
  · rw [hsuspended]
    exact hcaught
  · rw [hdoing]
    exact h.idle_call
  · rw [hcurrent, hdoing]
    exact h.others
  · rw [hrunning, hsuspended]
    exact h.fits
  · intro hnot
    rw [hcurrent] at hnot
    rw [hrunning, hsuspended]
    rcases h.leaves fun hready => hnot (hticked.ready h.sound hready) with hresuming | ⟨hzero, hout⟩
    · exact Or.inl hresuming
    · exact Or.inr ⟨hzero, hout.imp id hpendSV⟩
  · intro t ht hlt
    rw [hcurrent] at hlt
    rcases hticked.ready_cases h' ht with hready | hwoken
    · rcases h.highest t hready hlt with hpending | hset
      · exact hyield hpending
      · exact Or.inr (hpendSV hset)
    · exact hhigher t hwoken hlt

/-- A tick is counted, or missed while the scheduler is suspended. -/
theorem step_sysTick (h : Sound S v k) (hwaiting : k.Waiting) :
    k.uxSchedulerSuspended = 0 ∧ (∃ k₁ p, Sound S v k₁ ∧ k₁.Waiting ∧ Ticked S 1 (fun _ => False) k k₁ ∧ Kept k k₁ ∧
        k₁.xYieldPending = k.xYieldPending ∧
        (p = false → k.xYieldPending = false ∧
          ∀ t, k.Asleep t → k.left t = 1 → S.uxPriority t < S.uxPriority k.pxCurrentTCB) ∧
        k.step S .sysTick = { k₁ with pendSV := k₁.pendSV || p }) ∨
      k.uxSchedulerSuspended ≠ 0 ∧ k.step S .sysTick =
        { k with uxPendedTicks := k.uxPendedTicks + 1, pendSV := k.pendSV || k.xYieldPending } := by
  have hstep : k.step S .sysTick = if (k.xTaskIncrementTick S).2 then { (k.xTaskIncrementTick S).1 with pendSV := true }
      else (k.xTaskIncrementTick S).1 := rfl
  have hset : ∀ (k₁ : Scheduler τ ε) (p : Bool), (if p then { k₁ with pendSV := true } else k₁) =
      { k₁ with pendSV := k₁.pendSV || p } := by
    intro k₁ p
    cases p with
    | true => rw [if_pos rfl, Bool.or_true]
    | false => rw [if_neg (by decide), Bool.or_false]
  rw [hstep, hset]
  unfold xTaskIncrementTick
  by_cases hsuspended : k.uxSchedulerSuspended = 0
  · rw [if_pos hsuspended]
    obtain ⟨h₁, hwaiting₁, hticked, hkept, hyield, hswitch⟩ := countTick_spec h hwaiting
    generalize k.countTick S = r at *
    obtain ⟨k₁, sw⟩ := r
    refine Or.inl ⟨hsuspended, k₁, sw || k₁.xYieldPending, h₁, hwaiting₁, hticked, hkept, hyield, ?_, rfl⟩
    intro hno
    rw [Bool.or_eq_false_iff, hyield] at hno
    exact ⟨hno.2, hswitch hno.1⟩
  · rw [if_neg hsuspended]
    exact Or.inr ⟨hsuspended, rfl⟩

theorem Steady.sysTick (h : Steady S v k) : Steady S v (k.step S .sysTick) := by
  rcases step_sysTick h.sound h.waiting with
    ⟨hsuspended, k₁, p, h₁, hwaiting₁, hticked, hkept, hyield, hswitch, hstep⟩ | ⟨hsuspended, hstep⟩
  · rw [hstep]
    refine h.of_ticked (h₁.undisturbed rfl) hwaiting₁ (hticked.undisturbed rfl)
      hkept.asserted hkept.suspended hkept.current hkept.doing ?_ ?_ (fun hset => Or.inl (hyield.trans hset)) ?_
    · intro _
      obtain ⟨hzero, hnobody⟩ := h.caught_up hsuspended
      refine ⟨hkept.pended.trans hzero, ?_⟩
      intro t ht
      rcases hticked.event_cases t with hnone | hsame
      · rw [show k₁.event t = _ from ht] at hnone
        cases hnone
      · exact hnobody t (hsame.symm.trans ht)
    · intro hset
      show (k₁.pendSV || p) = true
      rw [hkept.pendSV, hset]
      rfl
    · rintro t (hnobody | ⟨hasleep, hleft⟩) hlt
      · cases hnobody
      · right
        show (k₁.pendSV || p) = true
        cases hp : p with
        | true => rw [Bool.or_true]
        | false =>
          have hone : k.left t = 1 := Nat.le_antisymm hleft (h.sound.left_pos h.waiting t)
          exact absurd ((hswitch hp).2 t hasleep hone) (Fin.not_lt.mpr (Fin.le_of_lt hlt))
  · rw [hstep]
    refine h.of_ticked (h.sound.undisturbed rfl) h.waiting (n := 0) (W := fun _ => False) (Undisturbed.ticked rfl h.sound h.waiting)
      rfl rfl rfl rfl (fun hzero => absurd hzero hsuspended) ?_ Or.inl ?_
    · intro hset
      show (k.pendSV || k.xYieldPending) = true
      rw [hset]
      rfl
    · rintro t (hnobody | ⟨-, hleft⟩) hlt
      · cases hnobody
      · have := h.sound.left_pos h.waiting t
        omega

/-! ## Steps of a task -/

/-- A step that moves nobody, as the running task goes to another place of its call. -/
theorem Steady.of_undisturbed (h : Steady S v k) (hsame : Undisturbed k k') (hcurrent : k'.pxCurrentTCB = k.pxCurrentTCB)
    (hasserted : k'.vAssertCalled = k.vAssertCalled) (hpended : k'.uxPendedTicks = k.uxPendedTicks)
    (hdoing : ∀ t, t ≠ k.pxCurrentTCB → k'.doing t = k.doing t) (hidle : k'.doing S.xIdleTask = .none)
    (hcaught : k'.uxSchedulerSuspended = 0 → k.uxSchedulerSuspended = 0)
    (hfits : k'.running.Fits k'.uxSchedulerSuspended)
    (hleaves : ¬Ready S k k.pxCurrentTCB →
      k'.running = .resuming ∨ k'.uxSchedulerSuspended = 0 ∧ (k'.running = .yielding ∨ k'.pendSV = true))
    (hpending : k.xYieldPending = true ∨ k.pendSV = true → k'.xYieldPending = true ∨ k'.pendSV = true) : Steady S v k' := by
  have hlists : k'.lists = k.lists := by rw [hsame]
  have hstate : ∀ t, k'.state t = k.state t := fun t => by rw [state, state, hlists]
  have hready : ∀ t, Ready S k' t ↔ Ready S k t := fun t => by rw [Ready, Ready, hstate]
  refine ⟨h.sound.undisturbed hsame, h.waiting.undisturbed hsame, hasserted.trans h.asserted, ?_, (hready _).mpr h.idle, hidle,
    ?_, hfits, ?_, ?_⟩
  · intro hzero
    obtain ⟨hnone, hnobody⟩ := h.caught_up (hcaught hzero)
    refine ⟨hpended.trans hnone, fun t => ?_⟩
    rw [event, hlists]
    exact hnobody t
  · intro t ht
    rw [hcurrent] at ht
    rw [hdoing t ht]
    exact h.others t ht
  · rw [hcurrent, hready]
    exact hleaves
  · intro t ht hlt
    rw [hready] at ht
    rw [hcurrent] at hlt
    exact hpending (h.highest t ht hlt)

/-- A task that is in no call, with no switch ahead, is ready. -/
theorem Steady.ready_of_idle (h : Steady S v k) (hidle : k.Idle) : Ready S k k.pxCurrentTCB := by
  by_contra hnot
  rcases h.leaves hnot with hresuming | ⟨-, hyielding | hpendSV⟩
  · rw [hidle.1] at hresuming
    cases hresuming
  · rw [hidle.1] at hyielding
    cases hyielding
  · rw [hidle.2] at hpendSV
    cases hpendSV

/-- The task that a switch chooses runs. -/
theorem Steady.switchTo (h : Steady S v k) (hsuspended : k.uxSchedulerSuspended = 0) (hu : Chosen S k u) :
    Steady S v ({ k with pendSV := false }.switchTo S u) := by
  have hitems : k.lists.items (readyList S u) ≠ [] := List.ne_nil_of_mem ((h.sound.coherent.member _ _).mp hu.ready)
  have hcalls : ∀ t, k.doing t = .none ∨ k.doing t = .yielding := by
    intro t
    by_cases ht : t = k.pxCurrentTCB
    · have hfits := h.fits
      rw [hsuspended] at hfits
      rw [ht]
      unfold running at hfits
      generalize k.doing k.pxCurrentTCB = c at hfits
      cases c with
      | none => exact Or.inl rfl
      | yielding => exact Or.inr rfl
      | delaying n => exact absurd hfits.1 (by decide)
      | placing e n => exact absurd hfits.1 (by decide)
      | resuming => exact absurd (show 0 = 1 from hfits) (by decide)
    · exact h.others t ht
  refine ⟨(h.sound.next_list hitems).undisturbed rfl, h.waiting, h.asserted, h.caught_up, h.idle, h.idle_call,
    fun t _ => hcalls t, ?_, ?_, ?_⟩
  · show (k.doing u).Fits k.uxSchedulerSuspended
    rcases hcalls u with hcall | hcall
    · rw [hcall]
      trivial
    · rw [hcall]
      exact hsuspended
  · exact fun hnot => absurd hu.ready hnot
  · intro t ht hlt
    exact absurd (hu.highest t ht) (Fin.not_le.mpr hlt)

/-- `xPortPendSVHandler`, with nothing else to do when no switch is asked for. -/
theorem step_pendSV (h : Steady S v k) :
    k.pendSV = false ∧ k.step S .pendSV = k ∨
      k.uxSchedulerSuspended ≠ 0 ∧ k.step S .pendSV = { k with pendSV := false, xYieldPending := true } ∨
      k.uxSchedulerSuspended = 0 ∧ ∃ u, Chosen S k u ∧ k.step S .pendSV = { k with pendSV := false }.switchTo S u := by
  by_cases hpendSV : k.pendSV = true
  · have hstep : k.step S .pendSV = { k with pendSV := false }.vTaskSwitchContext := by
      simp only [step, hpendSV, if_true]
    by_cases hsuspended : k.uxSchedulerSuspended = 0
    · obtain ⟨u, hu, hswitch⟩ := vTaskSwitchContext_spec (k := { k with pendSV := false }) (h.sound.undisturbed rfl) h.idle
        hsuspended
      exact Or.inr (Or.inr ⟨hsuspended, u, ⟨hu.ready, hu.highest, hu.turn⟩, hstep.trans hswitch⟩)
    · refine Or.inr (Or.inl ⟨hsuspended, hstep.trans ?_⟩)
      unfold vTaskSwitchContext
      rw [if_pos hsuspended]
  · rw [Bool.not_eq_true] at hpendSV
    refine Or.inl ⟨hpendSV, ?_⟩
    simp [step, hpendSV]

theorem Steady.pendSV (h : Steady S v k) : Steady S v (k.step S .pendSV) := by
  rcases step_pendSV h with ⟨-, hstep⟩ | ⟨hsuspended, hstep⟩ | ⟨hsuspended, u, hu, hstep⟩
  · rw [hstep]
    exact h
  · rw [hstep]
    refine h.of_undisturbed rfl rfl rfl rfl (fun _ _ => rfl) h.idle_call id h.fits ?_ (fun _ => Or.inl rfl)
    intro hnot
    rcases h.leaves hnot with hresuming | ⟨hzero, -⟩
    · exact Or.inl hresuming
    · exact absurd hzero hsuspended
  · rw [hstep]
    exact h.switchTo hsuspended hu

/-- A task whose event came while the scheduler is suspended is not ready yet. -/
theorem Steady.of_noted (h : Steady S v k) (hsuspended : k.uxSchedulerSuspended ≠ 0) (hnoted : Noted S v t k k')
    (hblocked : Blocked S k t) : Steady S v k' := by
  have hready : ∀ u, Ready S k' u ↔ Ready S k u := fun u => by rw [Ready, Ready, hnoted.state]
  have hframe := hnoted.frame
  have hcurrent : k'.pxCurrentTCB = k.pxCurrentTCB := by rw [hframe]
  have hdoing : k'.doing = k.doing := by rw [hframe]
  have hrunning : k'.running = k.running := by rw [running, running, hdoing, hcurrent]
  have hlevel : k'.uxSchedulerSuspended = k.uxSchedulerSuspended := by rw [hframe]
  refine ⟨hnoted.sound h.sound hblocked, hnoted.waiting h.waiting, ?_, ?_, (hready _).mpr h.idle, ?_, ?_, ?_, ?_, ?_⟩
  · rw [hframe]
    exact h.asserted
  · intro hzero
    exact absurd (hlevel.symm.trans hzero) hsuspended
  · rw [hdoing]
    exact h.idle_call
  · rw [hcurrent, hdoing]
    exact h.others
  · rw [hrunning, hlevel]
    exact h.fits
  · rw [hcurrent, hready, hrunning, hlevel, show k'.pendSV = k.pendSV by rw [hframe]]
    exact h.leaves
  · intro u hu hlt
    rw [hready] at hu
    rw [hcurrent] at hlt
    rw [show k'.xYieldPending = k.xYieldPending by rw [hframe], show k'.pendSV = k.pendSV by rw [hframe]]
    exact h.highest u hu hlt

/-- An event, with the switch that it may ask for. -/
theorem step_event (h : Sound S v k) (e : ε) (yield : Bool) :
    (∀ t, k.event t ≠ some (.eventList e)) ∧ k.step S (.event e yield) = k ∨
      ∃ t k₁ y p, (k.lists.items (.eventList e)).head? = some (.xEventListItem t) ∧ Sound S v k₁ ∧
        (k.uxSchedulerSuspended = 0 ∧ Woke S (· = t) k k₁ ∨ k.uxSchedulerSuspended ≠ 0 ∧ Noted S v t k k₁) ∧
        (S.uxPriority k.pxCurrentTCB < S.uxPriority t → y = true) ∧
        k.step S (.event e yield) =
          { k₁ with xYieldPending := k₁.xYieldPending || y, pendSV := k₁.pendSV || p } := by
  have hstep : k.step S (.event e yield) =
      if (yield && (k.xTaskRemoveFromEventList S e).2) = true then
        { (k.xTaskRemoveFromEventList S e).1 with pendSV := true }
      else (k.xTaskRemoveFromEventList S e).1 := rfl
  rw [hstep]
  rcases xTaskRemoveFromEventList_spec h e with ⟨hnobody, hnone⟩ | ⟨t, k₁, ht, h₁, hmoved, hresult⟩
  · refine Or.inl ⟨hnobody, ?_⟩
    rw [hnone, Bool.and_false]
    rfl
  · right
    rw [hresult]
    by_cases hhigher : S.uxPriority k.pxCurrentTCB < S.uxPriority t
    · rw [if_pos hhigher, Bool.and_true]
      refine ⟨t, k₁, true, yield, ht, h₁, hmoved, fun _ => rfl, ?_⟩
      cases yield <;> simp [withYield]
    · rw [if_neg hhigher, Bool.and_false]
      refine ⟨t, k₁, false, false, ht, h₁, hmoved, fun hlt => absurd hlt hhigher, ?_⟩
      simp

theorem Steady.event (h : Steady S v k) (e : ε) (yield : Bool) : Steady S v (k.step S (.event e yield)) := by
  rcases step_event h.sound e yield with ⟨-, hsame⟩ | ⟨t, k₁, y, p, ht, h₁, hmoved, hhigher, hstep⟩
  · rw [hsame]
    exact h
  · rw [hstep]
    rcases hmoved with ⟨hsuspended, hwoke⟩ | ⟨hsuspended, hnoted⟩
    · obtain ⟨hwaiting₁, hticked⟩ := hwoke.ticked h.sound h.waiting
      have hkept := hwoke.frame.kept
      refine h.of_ticked (h₁.undisturbed rfl) hwaiting₁ (hticked.undisturbed rfl)
        hkept.asserted hkept.suspended hkept.current hkept.doing ?_ ?_ ?_ ?_
      · intro _
        obtain ⟨hzero, hnobody⟩ := h.caught_up hsuspended
        refine ⟨hkept.pended.trans hzero, ?_⟩
        intro u hu
        rcases hticked.event_cases u with hnone | hsame
        · rw [show k₁.event u = _ from hu] at hnone
          cases hnone
        · exact hnobody u (hsame.symm.trans hu)
      · intro hset
        show (k₁.pendSV || p) = true
        rw [hkept.pendSV, hset]
        rfl
      · intro hset
        left
        show (k₁.xYieldPending || y) = true
        rw [show k₁.xYieldPending = k.xYieldPending by rw [hwoke.frame], hset]
        rfl
      · rintro u (rfl | ⟨-, hleft⟩) hlt
        · left
          show (k₁.xYieldPending || y) = true
          rw [hhigher hlt, Bool.or_true]
        · have := h.sound.left_pos h.waiting u
          omega
    · have hsteady := h.of_noted hsuspended hnoted (h.sound.events t _ (h.sound.event_of_head ht)).2
      refine hsteady.of_undisturbed rfl rfl rfl rfl (fun _ _ => rfl) hsteady.idle_call id hsteady.fits ?_ ?_
      · intro hnot
        rcases hsteady.leaves hnot with hresuming | ⟨hzero, hout⟩
        · exact Or.inl hresuming
        · refine Or.inr ⟨hzero, hout.imp id fun hset => ?_⟩
          show (k₁.pendSV || p) = true
          rw [hset]
          rfl
      · refine Or.imp (fun hset => ?_) fun hset => ?_
        · show (k₁.xYieldPending || y) = true
          rw [hset]
          rfl
        · show (k₁.pendSV || p) = true
          rw [hset]
          rfl

/-- A task is made by another that runs. -/
theorem step_xTaskCreate (h : Sound S v k) (t : τ) :
    k.step S (.xTaskCreate t) = k ∨
      ∃ p, k.Idle ∧ Sound S v (k.make S t) ∧ Made S t k (k.make S t) ∧
        (S.uxPriority k.pxCurrentTCB < S.uxPriority t → p = true) ∧
        k.step S (.xTaskCreate t) = { k.make S t with pendSV := k.pendSV || p } := by
  by_cases hmay : k.Idle ∧ t ∉ k.tasks
  · obtain ⟨h₁, hmade⟩ := make_spec h hmay.2
    right
    have hstep : k.step S (.xTaskCreate t) =
        if S.uxPriority k.pxCurrentTCB < S.uxPriority t then { k.make S t with pendSV := true } else k.make S t := by
      simp only [step, if_pos hmay]
      rfl
    rw [hstep]
    by_cases hhigher : S.uxPriority k.pxCurrentTCB < S.uxPriority t
    · rw [if_pos hhigher]
      exact ⟨true, hmay.1, h₁, hmade, fun _ => rfl, by rw [Bool.or_true]⟩
    · rw [if_neg hhigher]
      exact ⟨false, hmay.1, h₁, hmade, fun hlt => absurd hlt hhigher, by rw [Bool.or_false]; rfl⟩
  · left
    simp only [step, if_neg hmay]

theorem Steady.xTaskCreate (h : Steady S v k) (t : τ) : Steady S v (k.step S (.xTaskCreate t)) := by
  rcases step_xTaskCreate h.sound t with hsame | ⟨p, hidle, h₁, hmade, hhigher, hstep⟩
  · rw [hsame]
    exact h
  · rw [hstep]
    have hready : ∀ u, u ≠ t → (Ready S (k.make S t) u ↔ Ready S k u) := fun u hu => by rw [Ready, Ready, hmade.state u hu]
    have hne : ∀ u, Ready S k u → u ≠ t := by
      rintro u hu rfl
      rw [Ready, hmade.absent] at hu
      cases hu
    have hcurrent := h.ready_of_idle hidle
    refine ⟨h₁.undisturbed rfl, ?_, h.asserted, ?_, (hready _ (hne _ h.idle)).mpr h.idle, h.idle_call, h.others, h.fits, ?_, ?_⟩
    · intro u hu
      have hu' : (k.make S t).state u = some k.pxDelayedTaskList := hu
      show k.xTickCount < (k.make S t).wakeTime u
      rw [hmade.wakeTime]
      by_cases hut : u = t
      · rw [hut, show (k.make S t).state t = _ from hmade.ready] at hu'
        exact absurd (Option.some.inj hu').symm (h.sound.delayed_ne.2.1 _)
      · rw [hmade.state u hut] at hu'
        exact h.waiting u hu'
    · intro hzero
      refine ⟨(h.caught_up hzero).1, fun u => ?_⟩
      show (k.make S t).event u ≠ _
      rw [hmade.event]
      exact (h.caught_up hzero).2 u
    · exact fun hnot => absurd ((hready _ (hne _ hcurrent)).mpr hcurrent) hnot
    · intro u hu hlt
      by_cases hut : u = t
      · subst hut
        right
        show (k.pendSV || p) = true
        rw [hhigher hlt, Bool.or_true]
      · refine (h.highest u ((hready u hut).mp hu) hlt).imp id fun hset => ?_
        show (k.pendSV || p) = true
        rw [hset]
        rfl

/-- The scheduler is suspended once more. -/
theorem Steady.vTaskSuspendAll (h : Steady S v k) : Steady S v (k.step S .vTaskSuspendAll) := by
  by_cases hidle : k.Idle
  · have hstep : k.step S .vTaskSuspendAll = { k with uxSchedulerSuspended := k.uxSchedulerSuspended + 1 } := by
      simp only [step, if_pos hidle]
    rw [hstep]
    refine h.of_undisturbed rfl rfl rfl rfl (fun _ _ => rfl) h.idle_call ?_ ?_ ?_ id
    · exact fun hzero => absurd hzero (Nat.succ_ne_zero _)
    · show k.running.Fits _
      rw [hidle.1]
      trivial
    · exact fun hnot => absurd (h.ready_of_idle hidle) hnot
  · simp only [step, if_neg hidle]
    exact h

/-- The scheduler is resumed by the running task, which goes to another place of its call. -/
theorem Steady.resumed (h : Steady S v k) (hresumed : Resumed S v k k') {c : TaskCall ε} {p : Bool}
    (hidle : k.pxCurrentTCB = S.xIdleTask → c = .none) (hcall : c = .none ∨ c = .yielding)
    (hleaves : ¬Ready S k k.pxCurrentTCB → c = .yielding ∨ p = true) :
    Steady S v ({ k' with pendSV := k'.pendSV || p }.goTo c) := by
  have hcurrent := hresumed.current
  have hdoing : ∀ t, t ≠ k.pxCurrentTCB →
      ({ k' with pendSV := k'.pendSV || p }.goTo c).doing t = k.doing t := by
    intro t ht
    show Function.update k'.doing k'.pxCurrentTCB c t = _
    rw [hcurrent, hresumed.doing, Function.update_of_ne ht]
  have hrunning : ({ k' with pendSV := k'.pendSV || p }.goTo c).running = c := Function.update_self _ _ _
  refine ⟨hresumed.sound.undisturbed rfl, hresumed.waiting, hresumed.asserted.trans h.asserted,
    fun _ => ⟨hresumed.pended, hresumed.nobody⟩, hresumed.ticked.ready h.sound h.idle, ?_, ?_, ?_, ?_, ?_⟩
  · by_cases hcase : S.xIdleTask = k.pxCurrentTCB
    · rw [← hidle hcase.symm, hcase, ← hcurrent]
      exact hrunning
    · rw [hdoing _ hcase]
      exact h.idle_call
  · intro t ht
    have ht' : t ≠ k.pxCurrentTCB := by
      rw [← hcurrent]
      exact ht
    rw [hdoing t ht']
    exact h.others t ht'
  · rw [hrunning]
    rcases hcall with rfl | rfl
    · trivial
    · exact hresumed.suspended
  · intro hnot
    refine Or.inr ⟨hresumed.suspended, ?_⟩
    rw [hrunning]
    have hnot' : ¬Ready S k k.pxCurrentTCB := by
      intro hready
      have hready' := hresumed.ticked.ready h.sound hready
      rw [← hcurrent] at hready'
      exact hnot hready'
    refine (hleaves hnot').imp id fun hset => ?_
    show (k'.pendSV || p) = true
    rw [hset, Bool.or_true]
  · intro t ht hlt
    have hlt' : S.uxPriority k.pxCurrentTCB < S.uxPriority t := by
      rw [← hcurrent]
      exact hlt
    by_cases hyield : k'.xYieldPending = true
    · exact Or.inl hyield
    · rw [Bool.not_eq_true] at hyield
      rcases hresumed.ticked.ready_cases hresumed.sound ht with hready | hwoken
      · rcases h.highest t hready hlt' with hpending | hset
        · exact absurd (hresumed.yields hpending) (by rw [hyield]; decide)
        · right
          show (k'.pendSV || p) = true
          rw [hresumed.pendSV, hset]
          rfl
      · exact absurd (hresumed.lower hyield t hwoken) (Fin.not_lt.mpr (Fin.le_of_lt hlt'))

/-- The last suspension ends. -/
theorem resumeAll_spec (h : Steady S v k) (hsuspended : k.uxSchedulerSuspended = 1) :
    ∃ k', Resumed S v k k' ∧
      k.xTaskResumeAll S = ({ k' with pendSV := k'.pendSV || k'.xYieldPending }, k'.xYieldPending) := by
  obtain ⟨k', hresumed, hresult⟩ := xTaskResumeAll_spec h.sound h.waiting hsuspended
  refine ⟨k', hresumed, ?_⟩
  rw [hresult]
  by_cases hyield : k'.xYieldPending = true
  · have hset : (k'.pendSV || k'.xYieldPending) = true := by rw [hyield, Bool.or_true]
    rw [if_pos hyield, hset]
    exact Prod.ext rfl hyield.symm
  · rw [if_neg hyield]
    rw [Bool.not_eq_true] at hyield
    have hsame : (k'.pendSV || k'.xYieldPending) = k'.pendSV := by rw [hyield, Bool.or_false]
    rw [hsame]
    exact Prod.ext rfl hyield.symm

theorem Steady.xTaskResumeAll (h : Steady S v k) : Steady S v (k.step S .xTaskResumeAll) := by
  by_cases hmay : k.Idle ∧ k.uxSchedulerSuspended ≠ 0
  · have hready := h.ready_of_idle hmay.1
    have hstep : k.step S .xTaskResumeAll = (k.xTaskResumeAll S).1 := by
      simp only [step, if_pos hmay]
    rw [hstep]
    by_cases hone : k.uxSchedulerSuspended = 1
    · obtain ⟨k', hresumed, hresult⟩ := resumeAll_spec h hone
      rw [hresult]
      have hsteady := h.resumed hresumed (c := .none) (p := k'.xYieldPending) (fun _ => rfl) (Or.inl rfl)
        fun hnot => absurd hready hnot
      have hsame : Function.update k'.doing k'.pxCurrentTCB .none = k'.doing := by
        rw [Function.update_eq_self_iff, hresumed.doing, hresumed.current]
        exact hmay.1.1.symm
      unfold goTo at hsteady
      rw [hsame] at hsteady
      exact hsteady
    · have hnested : 1 < k.uxSchedulerSuspended := by omega
      rw [xTaskResumeAll_nested S hnested]
      refine h.of_undisturbed rfl rfl rfl rfl (fun _ _ => rfl) h.idle_call ?_ ?_ ?_ id
      · intro hzero
        have : k.uxSchedulerSuspended - 1 = 0 := hzero
        omega
      · show k.running.Fits _
        rw [hmay.1.1]
        trivial
      · exact fun hnot => absurd hready hnot
  · simp only [step, if_neg hmay]
    exact h

/-- The running task comes to another place in its call and the scheduler is suspended for it. -/
theorem Steady.goTo (h : Steady S v k) (hmay : k.MayBlock S) {c : TaskCall ε} {n : Nat} (hfits : c.Fits n) : Steady S v ({ k with uxSchedulerSuspended := n }.goTo c) := by
  refine h.of_undisturbed rfl rfl rfl rfl ?_ ?_ ?_ ?_ ?_ id
  · intro t ht
    exact Function.update_of_ne ht _ _
  · show Function.update k.doing k.pxCurrentTCB c S.xIdleTask = _
    rw [Function.update_of_ne hmay.2.2.symm]
    exact h.idle_call
  · intro hzero
    exact hmay.2.1
  · show (Function.update k.doing k.pxCurrentTCB c k.pxCurrentTCB).Fits n
    rw [Function.update_self]
    exact hfits
  · exact fun hnot => absurd (h.ready_of_idle hmay.1) hnot

theorem Steady.vTaskDelay (h : Steady S v k) (n : Nat) : Steady S v (k.step S (.vTaskDelay n)) := by
  by_cases hmay : k.MayBlock S ∧ n ≤ portMAX_DELAY
  · have hzero : k.uxSchedulerSuspended = 0 := hmay.1.2.1
    by_cases hn : n > 0
    · have hstep : k.step S (.vTaskDelay n) =
          { k with uxSchedulerSuspended := k.uxSchedulerSuspended + 1 }.goTo (.delaying n) := by
        simp only [step, if_pos hmay, if_pos hn]
      rw [hstep]
      exact h.goTo hmay.1 ⟨by rw [hzero], hn, hmay.2⟩
    · have hstep : k.step S (.vTaskDelay n) = k.goTo .yielding := by
        simp only [step, if_pos hmay, if_neg hn]
      rw [hstep]
      exact h.goTo hmay.1 hzero
  · simp only [step, if_neg hmay]
    exact h

theorem Steady.wait (h : Steady S v k) (e : ε) (n : Nat) : Steady S v (k.step S (.wait e n)) := by
  by_cases hmay : k.MayBlock S ∧ 0 < n ∧ n ≤ portMAX_DELAY
  · have hstep : k.step S (.wait e n) =
        { k with uxSchedulerSuspended := k.uxSchedulerSuspended + 1 }.goTo (.placing e n) := by
      simp only [step, if_pos hmay]
    rw [hstep]
    exact h.goTo hmay.1 ⟨by rw [hmay.1.2.1], hmay.2⟩
  · simp only [step, if_neg hmay]
    exact h

/-- The running task has gone to sleep and will resume the scheduler. -/
theorem Steady.slept (h : Steady S v k) {n : Nat} {indefinite : Bool} {o : Option (TaskList ε)} (hsuspended : k.uxSchedulerSuspended = 1)
    (hcurrent : k.pxCurrentTCB ≠ S.xIdleTask) (h' : Sound S v k') (hwaiting : k'.Waiting) (hslept : Slept S n indefinite o k k') :
    Steady S v (k'.goTo .resuming) := by
  have hkept := hslept.kept
  have hlevel : k'.uxSchedulerSuspended = 1 := hkept.suspended.trans hsuspended
  have hrunning : (k'.goTo .resuming).running = .resuming := Function.update_self _ _ _
  have hdoing : ∀ t, t ≠ k.pxCurrentTCB → (k'.goTo .resuming).doing t = k.doing t := by
    intro t ht
    show Function.update k'.doing k'.pxCurrentTCB _ t = _
    rw [hkept.current, hkept.doing, Function.update_of_ne ht]
  have hready : ∀ t, t ≠ k.pxCurrentTCB → (Ready S k' t ↔ Ready S k t) := fun t ht => by
    rw [Ready, Ready, hslept.state t ht]
  refine ⟨h'.undisturbed rfl, hwaiting, hkept.asserted.trans h.asserted, ?_, (hready _ hcurrent.symm).mpr h.idle, ?_, ?_, ?_,
    fun _ => Or.inl hrunning, ?_⟩
  · intro hzero
    exact absurd (hlevel.symm.trans hzero) (by decide)
  · rw [hdoing _ hcurrent.symm]
    exact h.idle_call
  · intro t ht
    have ht' : t ≠ k.pxCurrentTCB := by
      rw [← hkept.current]
      exact ht
    rw [hdoing t ht']
    exact h.others t ht'
  · rw [hrunning]
    exact hlevel
  · intro t ht hlt
    have hlt' : S.uxPriority k.pxCurrentTCB < S.uxPriority t := by
      rw [← hkept.current]
      exact hlt
    have ht' : t ≠ k.pxCurrentTCB := by
      rintro rfl
      exact absurd hlt' (Fin.not_lt.mpr (Fin.le_refl _))
    rcases h.highest t ((hready t ht').mp ht) hlt' with hpending | hset
    · exact Or.inl (hslept.yieldPending.trans hpending)
    · exact Or.inr (hkept.pendSV.trans hset)

/-- The idle task is in no call. -/
theorem Steady.current_ne_idle (h : Steady S v k) (hcall : k.running ≠ .none) : k.pxCurrentTCB ≠ S.xIdleTask := by
  intro hcurrent
  rw [running, hcurrent] at hcall
  exact hcall h.idle_call

/-- A task that is about to sleep is ready. -/
theorem Steady.ready_of_suspended (h : Steady S v k) (hsuspended : k.uxSchedulerSuspended = 1) (hcall : k.running ≠ .resuming) :
    Ready S k k.pxCurrentTCB := by
  by_contra hnot
  rcases h.leaves hnot with hresuming | ⟨hzero, -⟩
  · exact hcall hresuming
  · rw [hsuspended] at hzero
    cases hzero

/-- What the running task does when it goes on. -/
inductive Proceeded (S : TaskSet τ) (v : TaskItem τ → Nat) (k : Scheduler τ ε) : Scheduler τ ε → Prop
  /-- nothing, as it is in no call -/
  | stays : Proceeded S v k k
  /-- it goes to sleep -/
  | sleeps {k' : Scheduler τ ε} {n : Nat} {indefinite : Bool} {o : Option (TaskList ε)}
      (hcall : o = none ∧ indefinite = false ∧ k.running = .delaying n ∨
        ∃ e, o = some (.eventList e) ∧ indefinite = true ∧ k.running = .placing e n)
      (hsuspended : k.uxSchedulerSuspended = 1) (hready : Ready S k k.pxCurrentTCB) (hsound : Sound S v k')
      (hwaiting : k'.Waiting) (hslept : Slept S n indefinite o k k') : Proceeded S v k (k'.goTo .resuming)
  /-- it resumes the scheduler -/
  | resumes {k' : Scheduler τ ε} {c : TaskCall ε} (hcall : k.running = .resuming) (hresumed : Resumed S v k k')
      (hc : c = .none ∧ k'.xYieldPending = true ∨ c = .yielding) :
      Proceeded S v k ({ k' with pendSV := k'.pendSV || k'.xYieldPending }.goTo c)
  /-- it asks for a switch -/
  | yields (hcall : k.running = .yielding) : Proceeded S v k ({ k with pendSV := true }.goTo .none)

/-- The running task goes on when no switch is asked for. -/
theorem step_proceed (h : Steady S v k) : Proceeded S v k (k.step S .proceed) := by
  by_cases hpendSV : k.pendSV = false
  · have hstep : k.step S .proceed = k.proceed S := by
      simp only [step, if_pos hpendSV]
    rw [hstep]
    have hfits := h.fits
    unfold proceed
    cases hcall : k.running with
    | none => exact .stays
    | delaying n =>
      rw [hcall] at hfits
      have hready := h.ready_of_suspended hfits.1 (by rw [hcall]; simp)
      obtain ⟨hsound, hwaiting, hslept⟩ :=
        prvAddCurrentTaskToDelayedList_spec h.sound h.waiting hready hfits.2.1 hfits.2.2 false
      exact .sleeps (Or.inl ⟨rfl, rfl, hcall⟩) hfits.1 hready hsound hwaiting hslept
    | placing e n =>
      rw [hcall] at hfits
      have hready := h.ready_of_suspended hfits.1 (by rw [hcall]; simp)
      obtain ⟨hsound, hwaiting, hslept⟩ := vTaskPlaceOnEventList_spec h.sound h.waiting hready e hfits.2.1 hfits.2.2
      exact .sleeps (Or.inr ⟨e, rfl, rfl, hcall⟩) hfits.1 hready hsound hwaiting hslept
    | resuming =>
      rw [hcall] at hfits
      obtain ⟨k', hresumed, hresult⟩ := resumeAll_spec h hfits
      dsimp only
      rw [hresult]
      refine .resumes hcall hresumed ?_
      dsimp only
      split
      · rename_i hyield
        exact Or.inl ⟨rfl, hyield⟩
      · exact Or.inr rfl
    | yielding => exact .yields hcall
  · simp only [step, if_neg hpendSV]
    exact .stays

theorem Steady.proceed (h : Steady S v k) : Steady S v (k.step S .proceed) := by
  have hstep := step_proceed h
  generalize k.step S .proceed = k' at hstep
  cases hstep with
  | stays => exact h
  | sleeps hcall hsuspended hready hsound hwaiting hslept =>
    refine h.slept hsuspended (h.current_ne_idle ?_) hsound hwaiting hslept
    rcases hcall with ⟨-, -, hcall⟩ | ⟨e, -, -, hcall⟩ <;> rw [hcall] <;> simp
  | resumes hcall hresumed hc =>
    have hne : k.pxCurrentTCB ≠ S.xIdleTask := h.current_ne_idle (by rw [hcall]; simp)
    refine h.resumed hresumed (fun heq => absurd heq hne) ?_ fun _ => ?_
    · exact hc.imp And.left id
    · exact hc.symm.imp id And.right
  | yields hcall =>
    have hne : k.pxCurrentTCB ≠ S.xIdleTask := h.current_ne_idle (by rw [hcall]; simp)
    have hfits := h.fits
    rw [hcall] at hfits
    have hrunning : ({ k with pendSV := true }.goTo .none : Scheduler τ ε).running = .none := Function.update_self _ _ _
    refine h.of_undisturbed rfl rfl rfl rfl ?_ ?_ id ?_ ?_ (fun _ => Or.inr rfl)
    · intro t ht
      exact Function.update_of_ne ht _ _
    · show Function.update k.doing k.pxCurrentTCB _ S.xIdleTask = _
      rw [Function.update_of_ne hne.symm]
      exact h.idle_call
    · rw [hrunning]
      trivial
    · exact fun _ => Or.inr ⟨hfits, Or.inr rfl⟩

/-- Whatever happens, the scheduler stays steady. -/
theorem Steady.step (h : Steady S v k) (e : KernelEvent τ ε) : Steady S v (k.step S e) := by
  cases e with
  | sysTick => exact h.sysTick
  | pendSV => exact h.pendSV
  | event e yield => exact h.event e yield
  | xTaskCreate t => exact h.xTaskCreate t
  | vTaskSuspendAll => exact h.vTaskSuspendAll
  | xTaskResumeAll => exact h.xTaskResumeAll
  | vTaskDelay n => exact h.vTaskDelay n
  | wait e n => exact h.wait e n
  | proceed => exact h.proceed

/-! ## The start -/

/-- Before the scheduler runs: every task that was made is ready, and the one of the highest priority made last will run. -/
structure Starting (S : TaskSet τ) (v : TaskItem τ → Nat) (made : List τ) (k : Scheduler τ ε) : Prop where
  sound : Sound S v k
  tasks : k.tasks = made
  ready : ∀ t, t ∈ made → Ready S k t
  events : ∀ t, k.event t = none
  asserted : k.vAssertCalled = false
  pended : k.uxPendedTicks = 0
  suspended : k.uxSchedulerSuspended = 0
  doing : ∀ t, k.doing t = .none
  current : made ≠ [] → Ready S k k.pxCurrentTCB
  highest : ∀ t, t ∈ made → S.uxPriority t ≤ S.uxPriority k.pxCurrentTCB

theorem starting_initial (hvalue : ∀ i, v i ≤ portMAX_DELAY) (u : τ) :
    Starting S v [] (prvInitialiseTaskLists v u : Scheduler τ ε) := by
  have hnothing : ∀ i, (KernelLists.initial v : KernelLists (TaskItem τ) (TaskList ε)).container i = none := fun _ => rfl
  have hnone : ∀ (t : τ) (l : TaskList ε), (prvInitialiseTaskLists v u : Scheduler τ ε).state t ≠ some l := by
    intro t l ht
    cases ht
  refine ⟨⟨⟨hvalue, rfl, trivial⟩, Or.inl ⟨rfl, rfl⟩, ?_, ?_, ?_, ?_, ?_, Nat.zero_le _, ?_, ?_, ?_, ?_, ?_⟩, rfl, ?_, fun _ => rfl,
    rfl, rfl, rfl, fun _ => rfl, fun h => absurd rfl h, ?_⟩
  · intro t
    exact iff_of_false (by simp [prvInitialiseTaskLists]) (not_not.mpr rfl)
  · exact fun t l ht => absurd ht (hnone t l)
  · intro t l ht
    cases ht
  · intro p
    refine iff_of_false ?_ ?_
    · simp [prvInitialiseTaskLists]
    · rintro ⟨t, ht⟩
      exact hnone t _ ht
  · intro i _
    simp [prvInitialiseTaskLists]
  · exact fun t ht => absurd ht (hnone t _)
  · exact fun t ht => absurd ht (hnone t _)
  · exact List.Pairwise.nil
  · exact List.Pairwise.nil
  · exact fun t ht => absurd ht (hnone t _)
  · intro t ht
    cases ht
  · intro t ht
    cases ht

/-- A task is made before the scheduler runs. -/
theorem Starting.make {made : List τ} (h : Starting S v made k) (ht : t ∉ made) (hfirst : made = [] → k.pxCurrentTCB = t) :
    Starting S v (made ++ [t]) (prvAddNewTaskToReadyList S k t) := by
  obtain ⟨h₁, hmade⟩ := make_spec h.sound (t := t) (by rw [h.tasks]; exact ht)
  have hready : ∀ u, u ∈ made ++ [t] → Ready S (k.make S t) u := by
    intro u hu
    by_cases hut : u = t
    · rw [hut]
      exact hmade.ready
    · show (k.make S t).state u = _
      rw [hmade.state u hut]
      exact h.ready u (by simpa [hut] using hu)
  obtain ⟨u, hu, htop, hresult⟩ : ∃ u, u ∈ made ++ [t] ∧ (∀ w, w ∈ made ++ [t] → S.uxPriority w ≤ S.uxPriority u) ∧
      prvAddNewTaskToReadyList S k t = { k.make S t with pxCurrentTCB := u } := by
    by_cases hle : S.uxPriority k.pxCurrentTCB ≤ S.uxPriority t
    · refine ⟨t, by simp, ?_, ?_⟩
      · intro w hw
        rcases List.mem_append.mp hw with hw | hw
        · exact Fin.le_trans (h.highest w hw) hle
        · obtain rfl := List.mem_singleton.mp hw
          exact Fin.le_refl _
      · simp only [prvAddNewTaskToReadyList, list, hle, if_true]
        rfl
    · have hne : made ≠ [] := by
        intro hempty
        rw [hfirst hempty] at hle
        exact hle (Fin.le_refl _)
      refine ⟨k.pxCurrentTCB, ?_, ?_, ?_⟩
      · have hcurrent := h.current hne
        rw [List.mem_append, ← h.tasks, h.sound.made]
        exact Or.inl (by rw [show k.state _ = _ from hcurrent]; simp)
      · intro w hw
        rcases List.mem_append.mp hw with hw | hw
        · exact h.highest w hw
        · rw [List.mem_singleton.mp hw]
          exact Fin.le_of_lt (Fin.not_le.mp hle)
      · simp only [prvAddNewTaskToReadyList, list, hle, if_false]
        rfl
  rw [hresult]
  refine ⟨h₁.undisturbed rfl, ?_, hready, ?_, h.asserted, h.pended, h.suspended, h.doing, fun _ => hready u hu, htop⟩
  · show (k.make S t).tasks = _
    rw [hmade.frame, h.tasks]
  · intro w
    show (k.make S t).event w = none
    rw [hmade.event]
    exact h.events w

theorem starting_tasks {made rest : List τ} (h : Starting S v made k) (hnodup : (made ++ rest).Nodup)
    (hfirst : made = [] → ∀ t, rest.head? = some t → k.pxCurrentTCB = t) :
    Starting S v (made ++ rest) (rest.foldl (prvAddNewTaskToReadyList S) k) := by
  induction rest generalizing made k with
  | nil => rwa [List.append_nil]
  | cons t rest ih =>
    have ht : t ∉ made := fun hmem => (List.nodup_append.mp hnodup).2.2 t hmem t List.mem_cons_self rfl
    have h₁ := h.make ht fun hempty => hfirst hempty t rfl
    rw [List.append_cons] at hnodup ⊢
    exact ih h₁ hnodup fun hempty => absurd hempty (by simp)

theorem steady_vTaskStartScheduler (hvalue : ∀ i, v i ≤ portMAX_DELAY) {tasks : List τ}
    (hnodup : (tasks ++ [S.xIdleTask, S.xTimerTask]).Nodup) : Steady S v (vTaskStartScheduler S v tasks : Scheduler τ ε) := by
  have hstart : Starting S v (tasks ++ [S.xIdleTask, S.xTimerTask]) (vTaskStartScheduler S v tasks : Scheduler τ ε) := by
    refine starting_tasks (starting_initial hvalue (tasks.headD S.xIdleTask)) hnodup fun _ t ht => ?_
    cases tasks with
    | nil => exact Option.some.inj ht
    | cons u rest => exact Option.some.inj ht
  generalize (vTaskStartScheduler S v tasks : Scheduler τ ε) = k at hstart
  have hready : ∀ t, k.state t ≠ none → t ∈ tasks ++ [S.xIdleTask, S.xTimerTask] := by
    intro t ht
    rw [← hstart.tasks]
    exact (hstart.sound.made t).mpr ht
  refine ⟨hstart.sound, ?_, hstart.asserted, fun _ => ⟨hstart.pended, ?_⟩, hstart.ready _ (by simp), hstart.doing _,
    fun t _ => Or.inl (hstart.doing t), ?_, ?_, ?_⟩
  · intro t ht
    have := hstart.ready t (hready t (by rw [ht]; simp))
    exact absurd (Option.some.inj (ht.symm.trans this)) (hstart.sound.delayed_ne.2.1 _)
  · intro t ht
    rw [hstart.events t] at ht
    cases ht
  · rw [running, hstart.doing]
    trivial
  · exact fun hnot => absurd (hstart.current (by simp)) hnot
  · intro t ht hlt
    have := hstart.highest t (hready t (by rw [show k.state t = _ from ht]; simp))
    exact absurd this (Fin.not_le.mpr hlt)

/-- The scheduler after a run from its start. -/
def run (S : TaskSet τ) (v : TaskItem τ → Nat) (tasks : List τ) (es : List (KernelEvent τ ε)) : Scheduler τ ε :=
  Runs.run (step S) (vTaskStartScheduler S v tasks) es

theorem steady_run (hvalue : ∀ i, v i ≤ portMAX_DELAY) {tasks : List τ} (hnodup : (tasks ++ [S.xIdleTask, S.xTimerTask]).Nodup)
    (es : List (KernelEvent τ ε)) : Steady S v (run S v tasks es) :=
  Runs.run_inv (Steady S v) (fun _ e h => h.step e) (steady_vTaskStartScheduler hvalue hnodup) es

end Scheduler

end Rtu

import Rtu.Theorems.Scheduler

/-!
# How long a task waits

A task that calls `vTaskDelay` is ready again in the step that counts the last of its ticks, not before and not later, however the
ticks, the events, the other tasks and the wraps of the tick count fall (`delay_exact`). A task that waits at a queue is ready again
when its event comes or its time is up, and at no other time (`wait_exact`).
-/

namespace Rtu

open Rosters SchedulerAux

variable {τ ε : Type} [DecidableEq τ] [DecidableEq ε] {S : TaskSet τ} {v : TaskItem τ → Nat}

namespace KernelWaitsAux

/-- A task that may block calls `vTaskDelay`. -/
theorem waits_vTaskDelay {k : Scheduler τ ε} (hmay : k.MayBlock S) {n : Nat} (hn : 0 < n) (hn' : n ≤ portMAX_DELAY) :
    (k.step S (.vTaskDelay n)).Waits k.pxCurrentTCB (.delaying n) k.time := by
  have hstep : k.step S (.vTaskDelay n) =
      { k with uxSchedulerSuspended := k.uxSchedulerSuspended + 1 }.goTo (.delaying n) := by
    simp only [Scheduler.step, if_pos (show k.MayBlock S ∧ n ≤ portMAX_DELAY from ⟨hmay, hn'⟩), if_pos (show n > 0 from hn)]
  rw [hstep]
  exact Or.inl ⟨rfl, Function.update_self _ _ _, rfl⟩

/-- A task that may block suspends the scheduler. -/
theorem step_wait {k : Scheduler τ ε} (hmay : k.MayBlock S) (l : ε) {n : Nat} (hn : 0 < n) (hn' : n ≤ portMAX_DELAY) :
    k.step S (.wait l n) = { k with uxSchedulerSuspended := k.uxSchedulerSuspended + 1 }.goTo (.placing l n) := by
  simp only [Scheduler.step, if_pos (show k.MayBlock S ∧ 0 < n ∧ n ≤ portMAX_DELAY from ⟨hmay, hn, hn'⟩)]

/-- It waits from then on. -/
theorem waits_wait {k : Scheduler τ ε} (hmay : k.MayBlock S) (l : ε) {n : Nat} (hn : 0 < n) (hn' : n ≤ portMAX_DELAY) :
    (k.step S (.wait l n)).Waits k.pxCurrentTCB (.placing l n) k.time := by
  rw [step_wait hmay l hn hn']
  exact Or.inl ⟨rfl, Function.update_self _ _ _, rfl⟩

/-- Its event has not come yet. -/
theorem event_wait {k : Scheduler τ ε} (h : Scheduler.Steady S v k) (hmay : k.MayBlock S) (l : ε) {n : Nat} (hn : 0 < n)
    (hn' : n ≤ portMAX_DELAY) : (k.step S (.wait l n)).event k.pxCurrentTCB = none := by
  have hcall : (k.step S (.wait l n)).running = .placing l n := by
    rw [step_wait hmay l hn hn']
    exact Function.update_self _ _ _
  have hcurrent : (k.step S (.wait l n)).pxCurrentTCB = k.pxCurrentTCB := by rw [step_wait hmay l hn hn', Scheduler.goTo]
  have hsteady := h.step (.wait l n)
  have hready := hsteady.ready_in_call (by rw [hcall]; trivial)
  rw [hcurrent] at hready
  exact hsteady.sound.event_of_ready hready

/-- No time has passed and none is missed at the call. -/
theorem ticks_vTaskDelay {k : Scheduler τ ε} (h : Scheduler.Steady S v k) (hmay : k.MayBlock S) (n : Nat)
    (es : List (KernelEvent τ ε)) :
    (Runs.run (Scheduler.step S) (k.step S (.vTaskDelay n)) es).time +
        (Runs.run (Scheduler.step S) (k.step S (.vTaskDelay n)) es).uxPendedTicks = k.time + es.count .sysTick := by
  rw [Scheduler.run_ticks (h.step _), Scheduler.step_ticks h, (h.caught_up hmay.2.1).1, if_neg (by simp)]
  omega

/-- A task waits for an event since a time, and its own time is not up. -/
def StillWaits (l : ε) (n : Nat) (t : τ) (since : Nat) (k : Scheduler τ ε) : Prop :=
  k.Waits t (.placing l n) since ∧ (n ≠ portMAX_DELAY → k.time < since + n)

theorem always_stillWaits {k : Scheduler τ ε} (h : Scheduler.Steady S v k) {l : ε} {n since : Nat} {t : τ}
    {es : List (KernelEvent τ ε)} (halways : Runs.Always (Scheduler.step S) (fun k => k.Waits t (.placing l n) since) k es) :
    Runs.Always (Scheduler.step S) (StillWaits l n t since) k es := by
  intro pre hpre
  have hsteady := Runs.run_inv (Scheduler.Steady S v) (fun _ e h => h.step e) h pre
  exact ⟨halways pre hpre, fun hn => (halways pre hpre).lt hsteady (if_neg hn)⟩

end KernelWaitsAux

open KernelWaitsAux

/-- What a call of `vTaskDelay` comes to after a run: every tick is counted, or will be when the scheduler is resumed; until
`xTicksToDelay` are counted the task is about to sleep or asleep; and it is ready after the step that counts the last of them. -/
structure DelaysFor (S : TaskSet τ) (xTicksToDelay : Nat) (t : τ) (k₀ k : Scheduler τ ε) (es : List (KernelEvent τ ε)) : Prop where
  ticks : k.time + k.uxPendedTicks = k₀.time + es.count .sysTick
  counted : k.uxSchedulerSuspended = 0 → k.uxPendedTicks = 0
  sleeps : k.time < k₀.time + xTicksToDelay → k.pxCurrentTCB = t ∧ k.running = .delaying xTicksToDelay ∨ k.Asleep t
  wakes : ∀ e, k.time < k₀.time + xTicksToDelay → k₀.time + xTicksToDelay ≤ (k.step S e).time → Scheduler.Ready S (k.step S e) t

theorem delay_exact (hvalue : ∀ i, v i ≤ portMAX_DELAY) {tasks : List τ} (hnodup : (tasks ++ [S.xIdleTask, S.xTimerTask]).Nodup)
    (es₀ : List (KernelEvent τ ε)) {n : Nat} (hn : 0 < n) (hn' : n ≤ portMAX_DELAY)
    (hmay : (Scheduler.run S v tasks es₀).MayBlock S) (es : List (KernelEvent τ ε)) :
    DelaysFor S n (Scheduler.run S v tasks es₀).pxCurrentTCB (Scheduler.run S v tasks es₀)
      (Runs.run (Scheduler.step S) ((Scheduler.run S v tasks es₀).step S (.vTaskDelay n)) es) es := by
  have h₀ : Scheduler.Steady S v (Scheduler.run S v tasks es₀) := Scheduler.steady_run hvalue hnodup es₀
  generalize Scheduler.run S v tasks es₀ = k₀ at *
  have hwaits := waits_vTaskDelay hmay hn hn'
  have hticks := ticks_vTaskDelay h₀ hmay n es
  have hrun := hwaits.run_of_lt (h₀.step _) es
  have h := Runs.run_inv (Scheduler.Steady S v) (fun _ e h => h.step e) (h₀.step (.vTaskDelay n)) es
  generalize Runs.run (Scheduler.step S) (k₀.step S (.vTaskDelay n)) es = k at *
  refine ⟨hticks, fun hzero => (h.caught_up hzero).1, ?_, ?_⟩
  · intro hlt
    rcases hrun hlt with ⟨hcurrent, hrunning, -⟩ | ⟨hsleeps, -⟩
    · exact Or.inl ⟨hcurrent, hrunning⟩
    · exact Or.inr hsleeps.1
  · intro e hlt hle
    rcases (hrun hlt).step h (show TaskCall.Sleeps (.delaying n) from trivial) e with hwaits' | ⟨hready, -⟩
    · exact absurd (hwaits'.lt (h.step e) rfl) (Nat.not_lt_of_le hle)
    · exact hready

/-- A task delays itself for two ticks, of which the first comes while the scheduler is suspended. -/
theorem delay_exact_sample :
    (Scheduler.run sampleTasks (fun _ => 7) [1, 2] sampleStart).MayBlock sampleTasks ∧
      DelaysFor sampleTasks 2
        (Scheduler.run sampleTasks (fun _ => 7) [1, 2] sampleStart).pxCurrentTCB
        (Scheduler.run sampleTasks (fun _ => 7) [1, 2] sampleStart)
        (Runs.run (Scheduler.step sampleTasks)
          ((Scheduler.run sampleTasks (fun _ => 7) [1, 2] sampleStart).step sampleTasks (.vTaskDelay 2))
          [.proceed, .sysTick, .proceed]) [.proceed, .sysTick, .proceed] :=
  ⟨by decide +kernel, delay_exact (fun _ => by decide) (by decide) sampleStart (by decide) (by decide) (by decide +kernel) _⟩

/-- What a wait for an event comes to in a run: the task waits to the end of the run; or its wait ends in one of the steps and it is
ready and in no event list. Then its time is up, or its event has come since it called. -/
inductive WaitsFor (S : TaskSet τ) (l : ε) (n : Nat) (t : τ) (since : Nat) (k : Scheduler τ ε) (es : List (KernelEvent τ ε)) : Prop
  | waits (hwaits : Runs.Always (Scheduler.step S) (StillWaits l n t since) k es)
  | ends (pre : List (KernelEvent τ ε)) (e : KernelEvent τ ε) (hpre : pre ++ [e] <+: es)
      (hwaits : Runs.Always (Scheduler.step S) (StillWaits l n t since) k pre)
      (hready : Scheduler.Ready S (Runs.run (Scheduler.step S) k (pre ++ [e])) t)
      (hevent : (Runs.run (Scheduler.step S) k (pre ++ [e])).event t = none)
      (hcause : (n ≠ portMAX_DELAY ∧ since + n ≤ (Runs.run (Scheduler.step S) k (pre ++ [e])).time) ∨
        (Runs.run (Scheduler.step S) k pre).Signalled e t ∧ ∃ yield, .event l yield ∈ pre ++ [e])

theorem wait_exact (hvalue : ∀ i, v i ≤ portMAX_DELAY) {tasks : List τ} (hnodup : (tasks ++ [S.xIdleTask, S.xTimerTask]).Nodup)
    (es₀ : List (KernelEvent τ ε)) (l : ε) {n : Nat} (hn : 0 < n) (hn' : n ≤ portMAX_DELAY)
    (hmay : (Scheduler.run S v tasks es₀).MayBlock S) (es : List (KernelEvent τ ε)) :
    WaitsFor S l n (Scheduler.run S v tasks es₀).pxCurrentTCB (Scheduler.run S v tasks es₀).time
      ((Scheduler.run S v tasks es₀).step S (.wait l n)) es := by
  have h₀ : Scheduler.Steady S v (Scheduler.run S v tasks es₀) := Scheduler.steady_run hvalue hnodup es₀
  generalize Scheduler.run S v tasks es₀ = k₀ at *
  have h := h₀.step (.wait l n)
  have hfirst := event_wait h₀ hmay l hn hn'
  have hcall : TaskCall.Sleeps (.placing l n) := trivial
  rcases (waits_wait hmay l hn hn').run h hcall es with halways | ⟨pre, e, hpre, halways, hready, hnone, hcause⟩
  · exact .waits (always_stillWaits h halways)
  · refine .ends pre e hpre (always_stillWaits h halways) hready hnone ?_
    rcases hcause with ⟨deadline, hdeadline, hle⟩ | ⟨-, hsignal⟩
    · left
      have hsome : (if n = portMAX_DELAY then none else some (k₀.time + n)) = some deadline := hdeadline
      split at hsome
      · cases hsome
      · rename_i hfinite
        obtain rfl : k₀.time + n = deadline := Option.some.inj hsome
        exact ⟨hfinite, hle⟩
    · right
      obtain ⟨l', yield, hin, hmem⟩ := Scheduler.Waits.signalled h hcall halways (by rw [hfirst]; simp) hsignal
      obtain rfl : l = l' := by
        cases hin
        rfl
      exact ⟨hsignal, yield, hmem⟩

/-- A task waits without an end, and its event comes after a tick. -/
theorem wait_exact_sample :
    (Scheduler.run sampleTasks (fun _ => 7) [1, 2] sampleStart).MayBlock sampleTasks ∧
      WaitsFor sampleTasks 0 portMAX_DELAY
        (Scheduler.run sampleTasks (fun _ => 7) [1, 2] sampleStart).pxCurrentTCB
        (Scheduler.run sampleTasks (fun _ => 7) [1, 2] sampleStart).time
        ((Scheduler.run sampleTasks (fun _ => 7) [1, 2] sampleStart).step sampleTasks
          (.wait 0 portMAX_DELAY)) [.proceed, .proceed, .sysTick, .event 0 true] :=
  ⟨by decide +kernel, wait_exact (fun _ => by decide) (by decide) sampleStart 0 (by decide) (by decide) (by decide +kernel) _⟩

end Rtu

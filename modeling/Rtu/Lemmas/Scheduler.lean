import Rtu.Scheduler
import Rtu.Lemmas.KernelLists

/-!
# What holds of the scheduler

`Sound`: which list a task is in, what the bits say about the ready tasks, and what the delayed lists say about the time. A task that
leaves its lists and becomes ready keeps it (`Woke`).
-/

namespace Rtu

open Rosters

variable {τ ε : Type}

/-! ## The bits of the ready priorities -/

theorem getLsbD_record (b : BitVec 32) {p i : Nat} (hi : i < 32) :
    (portRECORD_READY_PRIORITY p b).getLsbD i = true ↔ b.getLsbD i = true ∨ i = p := by
  have hbit : (!decide (i < p) && decide (i - p = 0)) = decide (i = p) := by
    rw [Bool.eq_iff_iff]
    simp
    omega
  simp [portRECORD_READY_PRIORITY, hi, hbit]

theorem getLsbD_reset (b : BitVec 32) {p i : Nat} (hi : i < 32) :
    (portRESET_READY_PRIORITY p b).getLsbD i = true ↔ b.getLsbD i = true ∧ i ≠ p := by
  have hbit : (decide (i < p) || !decide (i - p = 0)) = !decide (i = p) := by
    rw [Bool.eq_iff_iff]
    simp
    omega
  simp [portRESET_READY_PRIORITY, hi, hbit]

theorem getLsbD_of_le {b : BitVec 32} {i : Nat} (hi : 32 ≤ i) : b.getLsbD i = false := by
  simp [BitVec.getLsbD_of_ge, hi]

/-- No bit beyond the priorities is set. -/
theorem getLsbD_record_high {b : BitVec 32} (h : ∀ i, configMAX_PRIORITIES ≤ i → b.getLsbD i = false)
    (p : Fin configMAX_PRIORITIES) {i : Nat} (hi : configMAX_PRIORITIES ≤ i) :
    (portRECORD_READY_PRIORITY p b).getLsbD i = false := by
  by_cases hi' : i < 32
  · rw [← Bool.not_eq_true, getLsbD_record _ hi']
    rintro (hbit | heq)
    · rw [h i hi] at hbit
      cases hbit
    · rw [heq] at hi
      exact absurd p.isLt (Nat.not_lt_of_le hi)
  · exact getLsbD_of_le (by omega)

/-- The number of the highest bit that is set. -/
theorem highest_spec {b : BitVec 32} {i : Nat} (hi : b.getLsbD i = true) :
    b.getLsbD (portGET_HIGHEST_PRIORITY b) = true ∧ i ≤ portGET_HIGHEST_PRIORITY b := by
  have hb : b ≠ 0#32 := by
    rintro rfl
    simp at hi
  have hle : b.clz.toNat ≤ 31 := by
    have := BitVec.lt_def.mp (BitVec.clz_lt_iff_ne_zero.mpr hb)
    simp at this
    omega
  have hhighest : portGET_HIGHEST_PRIORITY b = 31 - b.clz.toNat := by
    rw [portGET_HIGHEST_PRIORITY, BitVec.toNat_sub_of_le (BitVec.le_def.mpr (by simpa using hle))]
    rfl
  constructor
  · rw [hhighest]
    exact BitVec.getLsbD_true_clz_of_ne_zero (by omega) hb
  · have hlow : 2 ^ i ≤ b.toNat := Nat.ge_two_pow_of_testBit hi
    have hhigh : b.toNat < 2 ^ (32 - b.clz.toNat) := BitVec.toNat_lt_two_pow_sub_clz
    have := (Nat.pow_lt_pow_iff_right (by omega : 1 < 2)).mp (Nat.lt_of_le_of_lt hlow hhigh)
    omega

namespace Scheduler

variable {S : TaskSet τ} {v : TaskItem τ → Nat} {k k' k'' : Scheduler τ ε} {t u : τ}

/-- The ready list of a task. -/
def readyList (S : TaskSet τ) (t : τ) : TaskList ε := .pxReadyTasksLists (S.uxPriority t)

/-- The list that the state item of a task is in. -/
def state (k : Scheduler τ ε) (t : τ) : Option (TaskList ε) := k.lists.container (.xStateListItem t)

/-- The list that its event item is in. -/
def event (k : Scheduler τ ε) (t : τ) : Option (TaskList ε) := k.lists.container (.xEventListItem t)

/-- The task is in the list of the ready tasks of its priority. -/
def Ready (S : TaskSet τ) (k : Scheduler τ ε) (t : τ) : Prop := k.state t = some (readyList S t)

/-- The task was made and is not ready. -/
def Blocked (S : TaskSet τ) (k : Scheduler τ ε) (t : τ) : Prop := ∃ l, k.state t = some l ∧ l ≠ readyList S t

/-- The tasks that a tick will wake. -/
def Asleep (k : Scheduler τ ε) (t : τ) : Prop :=
  k.state t = some k.pxDelayedTaskList ∨ k.state t = some k.pxOverflowDelayedTaskList

/-- The number of ticks after which it does. -/
def left [DecidableEq ε] (k : Scheduler τ ε) (t : τ) : Nat :=
  if k.state t = some k.pxDelayedTaskList then k.wakeTime t - k.xTickCount
  else k.wakeTime t + (portMAX_DELAY + 1) - k.xTickCount

/-- The number of ticks that were counted. -/
def time (k : Scheduler τ ε) : Nat := k.xNumOfOverflows * (portMAX_DELAY + 1) + k.xTickCount

/-- Every delayed task wakes at a later tick. -/
def Waiting (k : Scheduler τ ε) : Prop := ∀ t, k.state t = some k.pxDelayedTaskList → k.xTickCount < k.wakeTime t

/-! ## Tasks that are unblocked -/

/-- Nothing but the lists, the bits of the ready priorities and the next time has changed. -/
def Frame (k k' : Scheduler τ ε) : Prop :=
  k' =
    { k with
      lists := k'.lists
      listCalls := k'.listCalls
      uxTopReadyPriority := k'.uxTopReadyPriority
      xNextTaskUnblockTime := k'.xNextTaskUnblockTime }

/-- Nothing that the lists or the time depend on has changed. -/
def Undisturbed (k k' : Scheduler τ ε) : Prop :=
  k' =
    { k with
      pxCurrentTCB := k'.pxCurrentTCB
      uxPendedTicks := k'.uxPendedTicks
      uxSchedulerSuspended := k'.uxSchedulerSuspended
      xYieldPending := k'.xYieldPending
      pendSV := k'.pendSV
      vAssertCalled := k'.vAssertCalled
      doing := k'.doing }

/-- What neither a tick nor a task that becomes ready changes. -/
structure Kept (k k' : Scheduler τ ε) : Prop where
  current : k'.pxCurrentTCB = k.pxCurrentTCB
  pended : k'.uxPendedTicks = k.uxPendedTicks
  suspended : k'.uxSchedulerSuspended = k.uxSchedulerSuspended
  pendSV : k'.pendSV = k.pendSV
  asserted : k'.vAssertCalled = k.vAssertCalled
  doing : k'.doing = k.doing
  tasks : k'.tasks = k.tasks

theorem Kept.refl (k : Scheduler τ ε) : Kept k k := ⟨rfl, rfl, rfl, rfl, rfl, rfl, rfl⟩

theorem Kept.trans (h : Kept k k') (h' : Kept k' k'') : Kept k k'' :=
  ⟨h'.current.trans h.current, h'.pended.trans h.pended, h'.suspended.trans h.suspended, h'.pendSV.trans h.pendSV,
    h'.asserted.trans h.asserted, h'.doing.trans h.doing, h'.tasks.trans h.tasks⟩

theorem Frame.kept (h : Frame k k') : Kept k k' := by
  constructor <;> rw [h]

theorem Frame.trans (h : Frame k k') (h' : Frame k' k'') : Frame k k'' := by
  unfold Frame at *
  rw [h'] at *
  rw [h]

/-- A call that the scheduler makes outside of a switch: event items have the value of the priority of their task, event lists are
in the order of the values, and ready lists are not. -/
def Proper (S : TaskSet τ) : ListCall (TaskItem τ) (TaskList ε) → Prop
  | .setValue (.xEventListItem t) xValue => xValue = configMAX_PRIORITIES - S.uxPriority t
  | .setValue (.xStateListItem _) _ => True
  | .insertEnd l _ => ∀ e, l ≠ .eventList e
  | .insert l _ => ∀ p, l ≠ .pxReadyTasksLists p
  | .remove _ => True
  | .next _ => False

/-- The calls of the lists that were made are about items of the tasks of `W`. -/
def Added (S : TaskSet τ) (W : τ → Prop) (k k' : Scheduler τ ε) : Prop :=
  ∃ cs, k'.listCalls = k.listCalls ++ cs ∧ ∀ c ∈ cs, Proper S c ∧ ∃ i, c.item = some i ∧ W i.pvOwner

namespace Added

variable {W W' : τ → Prop}

theorem of_eq (h : k'.listCalls = k.listCalls) : Added S W k k' := ⟨[], by rw [h, List.append_nil], by simp⟩

theorem refl (k : Scheduler τ ε) : Added S W k k := .of_eq rfl

theorem trans (h : Added S W k k') (h' : Added S W k' k'') : Added S W k k'' := by
  obtain ⟨cs, hcs, hproper⟩ := h
  obtain ⟨cs', hcs', hproper'⟩ := h'
  refine ⟨cs ++ cs', by rw [hcs', hcs, List.append_assoc], ?_⟩
  intro c hc
  rcases List.mem_append.mp hc with hc | hc
  · exact hproper c hc
  · exact hproper' c hc

theorem mono (h : Added S W k k') (hW : ∀ t, W t → W' t) : Added S W' k k' := by
  obtain ⟨cs, hcs, hproper⟩ := h
  refine ⟨cs, hcs, fun c hc => ?_⟩
  obtain ⟨hform, i, hi, howner⟩ := hproper c hc
  exact ⟨hform, i, hi, hW _ howner⟩

end Added

/-- The tasks of `W` have become ready, and no other task has moved. -/
structure Woke (S : TaskSet τ) (W : τ → Prop) (k k' : Scheduler τ ε) : Prop where
  frame : Frame k k'
  value : k'.lists.value = k.lists.value
  ready : ∀ t, W t → Ready S k' t
  state : ∀ t, ¬W t → k'.state t = k.state t
  noEvent : ∀ t, W t → k'.event t = none
  event : ∀ t, ¬W t → k'.event t = k.event t
  sublist : ∀ l, (∀ p, l ≠ .pxReadyTasksLists p) → (k'.lists.items l).Sublist (k.lists.items l)
  added : Added S W k k'

namespace Woke

variable {W W' : τ → Prop}

theorem current (h : Woke S W k k') : k'.pxCurrentTCB = k.pxCurrentTCB := by rw [h.frame]

theorem tick (h : Woke S W k k') : k'.xTickCount = k.xTickCount := by rw [h.frame]

theorem delayed (h : Woke S W k k') : k'.pxDelayedTaskList = k.pxDelayedTaskList := by rw [h.frame]

theorem overflow (h : Woke S W k k') : k'.pxOverflowDelayedTaskList = k.pxOverflowDelayedTaskList := by rw [h.frame]

theorem tasks (h : Woke S W k k') : k'.tasks = k.tasks := by rw [h.frame]

theorem wakeTime (h : Woke S W k k') (t : τ) : k'.wakeTime t = k.wakeTime t := by
  show k'.lists.value _ = k.lists.value _
  rw [h.value]

theorem refl (k : Scheduler τ ε) : Woke S (fun _ => False) k k :=
  ⟨rfl, rfl, fun _ => False.elim, fun _ _ => rfl, fun _ => False.elim, fun _ _ => rfl, fun _ _ => List.Sublist.refl _,
    .refl k⟩

/-- Some tasks, then others. -/
theorem trans (h : Woke S W k k') (h' : Woke S W' k' k'') : Woke S (fun t => W t ∨ W' t) k k'' := by
  refine ⟨h.frame.trans h'.frame, h'.value.trans h.value, ?_, ?_, ?_, ?_, ?_,
    (h.added.mono fun _ => Or.inl).trans (h'.added.mono fun _ => Or.inr)⟩
  · intro t ht
    by_cases hW' : W' t
    · exact h'.ready t hW'
    · show k''.state t = _
      rw [h'.state t hW']
      exact h.ready t (ht.resolve_right hW')
  · intro t ht
    rw [h'.state t fun h => ht (Or.inr h), h.state t fun h => ht (Or.inl h)]
  · intro t ht
    by_cases hW' : W' t
    · exact h'.noEvent t hW'
    · rw [h'.event t hW', h.noEvent t (ht.resolve_right hW')]
  · intro t ht
    rw [h'.event t fun h => ht (Or.inr h), h.event t fun h => ht (Or.inl h)]
  · intro l hl
    exact (h'.sublist l hl).trans (h.sublist l hl)

/-- The same with other words for the tasks. -/
theorem congr (h : Woke S W k k') (hW : ∀ t, W t ↔ W' t) : Woke S W' k k' := by
  have : W = W' := funext fun t => propext (hW t)
  rw [← this]
  exact h

end Woke

variable [DecidableEq τ] [DecidableEq ε]

/-! ## Sound lists -/

/-- The lists are what the calls made of them, and every call was a tidy one. -/
structure Logged (v : TaskItem τ → Nat) (k : Scheduler τ ε) : Prop where
  bounded : ∀ i, v i ≤ portMAX_DELAY
  lists : k.lists = (KernelLists.initial v).calls k.listCalls
  tidy : (KernelLists.initial v).EachCall KernelLists.Tidy k.listCalls

theorem Logged.legal (h : Logged v k) : (KernelLists.initial v).LegalCalls k.listCalls :=
  h.tidy.imp fun _ _ => KernelLists.Tidy.legal

theorem Logged.coherent (h : Logged v k) : k.lists.Coherent := by
  rw [h.lists]
  exact (KernelLists.coherent_initial h.bounded).calls h.legal

/-- One more call. -/
theorem Logged.list (h : Logged v k) {c : ListCall (TaskItem τ) (TaskList ε)} (htidy : k.lists.Tidy c) : Logged v (k.list c) := by
  refine ⟨h.bounded, ?_, ?_⟩
  · show k.lists.call c = _
    rw [h.lists]
    exact (KernelLists.calls_append _ k.listCalls [c]).symm
  · refine KernelLists.eachCall_append.mpr ⟨h.tidy, ?_, trivial⟩
    rw [← h.lists]
    exact htidy

/-- What is no call and no list does not matter. -/
theorem Logged.of_eq (h : Logged v k) (hlists : k'.lists = k.lists) (hcalls : k'.listCalls = k.listCalls) : Logged v k' :=
  ⟨h.bounded, by rw [hlists, hcalls, h.lists], by rw [hcalls]; exact h.tidy⟩

/-- Where the tasks are and when they are to wake. -/
structure Sound (S : TaskSet τ) (v : TaskItem τ → Nat) (k : Scheduler τ ε) : Prop where
  logged : Logged v k
  pointers : k.pxDelayedTaskList = .xDelayedTaskList1 ∧ k.pxOverflowDelayedTaskList = .xDelayedTaskList2 ∨
    k.pxDelayedTaskList = .xDelayedTaskList2 ∧ k.pxOverflowDelayedTaskList = .xDelayedTaskList1
  made : ∀ t, t ∈ k.tasks ↔ k.state t ≠ none
  places : ∀ t l, k.state t = some l →
    l = readyList S t ∨ l = k.pxDelayedTaskList ∨ l = k.pxOverflowDelayedTaskList ∨ l = .xSuspendedTaskList
  events : ∀ t l, k.event t = some l → (l = .xPendingReadyList ∨ ∃ e, l = .eventList e) ∧ Blocked S k t
  top : ∀ p : Fin configMAX_PRIORITIES,
    k.uxTopReadyPriority.getLsbD p = true ↔ ∃ t, k.state t = some (.pxReadyTasksLists p)
  top_high : ∀ i, configMAX_PRIORITIES ≤ i → k.uxTopReadyPriority.getLsbD i = false
  tick : k.xTickCount ≤ portMAX_DELAY
  due : ∀ t, k.state t = some k.pxDelayedTaskList → k.xTickCount ≤ k.wakeTime t
  later : ∀ t, k.state t = some k.pxOverflowDelayedTaskList → k.wakeTime t < k.xTickCount
  ordered : (k.lists.items k.pxDelayedTaskList).Pairwise fun i j => k.lists.value i ≤ k.lists.value j
  ordered_later : (k.lists.items k.pxOverflowDelayedTaskList).Pairwise fun i j => k.lists.value i ≤ k.lists.value j
  next : ∀ t, k.state t = some k.pxDelayedTaskList → k.xNextTaskUnblockTime ≤ k.wakeTime t

namespace Sound

theorem coherent (h : Sound S v k) : k.lists.Coherent := h.logged.coherent

/-- The two delayed lists are two, and neither is another list. -/
theorem delayed_ne (h : Sound S v k) :
    k.pxDelayedTaskList ≠ k.pxOverflowDelayedTaskList ∧ (∀ p, k.pxDelayedTaskList ≠ .pxReadyTasksLists p) ∧
      (∀ p, k.pxOverflowDelayedTaskList ≠ .pxReadyTasksLists p) ∧ k.pxDelayedTaskList ≠ .xSuspendedTaskList ∧
      k.pxOverflowDelayedTaskList ≠ .xSuspendedTaskList ∧ k.pxDelayedTaskList ≠ .xPendingReadyList ∧
      k.pxOverflowDelayedTaskList ≠ .xPendingReadyList ∧ (∀ e, k.pxDelayedTaskList ≠ .eventList e) ∧
      (∀ e, k.pxOverflowDelayedTaskList ≠ .eventList e) := by
  rcases h.pointers with ⟨h1, h2⟩ | ⟨h1, h2⟩ <;> simp [h1, h2]

/-- A task in a delayed list is not ready. -/
theorem blocked_of_delayed (h : Sound S v k) (ht : k.state t = some k.pxDelayedTaskList) : Blocked S k t :=
  ⟨_, ht, h.delayed_ne.2.1 _⟩

/-- A ready task does not sleep. -/
theorem not_asleep (h : Sound S v k) (ht : Ready S k t) : ¬k.Asleep t := by
  obtain ⟨-, hdelayed, hoverflow, -⟩ := h.delayed_ne
  rintro (hl | hl)
  · exact hdelayed _ (Option.some.inj (hl.symm.trans ht))
  · exact hoverflow _ (Option.some.inj (hl.symm.trans ht))

/-- A task in a ready list is in that of its priority. -/
theorem priority_of_ready (h : Sound S v k) {p : Fin configMAX_PRIORITIES} (ht : k.state t = some (.pxReadyTasksLists p)) :
    S.uxPriority t = p := by
  obtain ⟨-, hdelayed, hoverflow, -⟩ := h.delayed_ne
  rcases h.places t _ ht with hl | hl | hl | hl
  · unfold readyList at hl
    injection hl with hp
    exact hp.symm
  · exact absurd hl.symm (hdelayed p)
  · exact absurd hl.symm (hoverflow p)
  · cases hl

/-- A ready task is in no event list. -/
theorem event_of_ready (h : Sound S v k) (ht : Ready S k t) : k.event t = none := by
  cases hevent : k.event t with
  | none => rfl
  | some l =>
    obtain ⟨-, m, hm, hne⟩ := h.events t l hevent
    exact absurd (Option.some.inj (hm.symm.trans ht)) hne

/-- What is in a delayed list is the state item of a task. -/
theorem delayed_item (h : Sound S v k) {i : TaskItem τ} (hi : i ∈ k.lists.items k.pxDelayedTaskList) :
    ∃ t, i = .xStateListItem t ∧ k.state t = some k.pxDelayedTaskList := by
  have hcontainer := (h.coherent.member i _).mpr hi
  cases i with
  | xStateListItem t => exact ⟨t, rfl, hcontainer⟩
  | xEventListItem t =>
    obtain ⟨-, -, -, -, -, hpending, -, hevent, -⟩ := h.delayed_ne
    rcases (h.events t _ hcontainer).1 with hl | ⟨e, hl⟩
    · exact absurd hl hpending
    · exact absurd hl (hevent e)

end Sound

theorem Sound.undisturbed (h : Sound S v k) (hsame : Undisturbed k k') : Sound S v k' := by
  rw [hsame]
  exact ⟨h.logged.of_eq rfl rfl, h.pointers, h.made, h.places, h.events, h.top, h.top_high, h.tick, h.due, h.later, h.ordered,
    h.ordered_later, h.next⟩

omit [DecidableEq τ] [DecidableEq ε] in
theorem Waiting.undisturbed (h : k.Waiting) (hsame : Undisturbed k k') : k'.Waiting := by
  rw [hsame]
  exact h

omit [DecidableEq τ] [DecidableEq ε] in
theorem Undisturbed.time (hsame : Undisturbed k k') : k'.time = k.time := by
  rw [Scheduler.time, Scheduler.time, hsame]

/-- The lists are sound when blocked tasks have become ready, if the bits of the ready priorities say so. -/
theorem Sound.of_woke {W : τ → Prop} (h : Sound S v k) (hwoke : Woke S W k k') (hblocked : ∀ t, W t → Blocked S k t)
    (hlogged : Logged v k')
    (htop : ∀ p : Fin configMAX_PRIORITIES, k'.uxTopReadyPriority.getLsbD p = true ↔
      k.uxTopReadyPriority.getLsbD p = true ∨ ∃ t, W t ∧ S.uxPriority t = p)
    (htop_high : ∀ i, configMAX_PRIORITIES ≤ i → k'.uxTopReadyPriority.getLsbD i = false)
    (hnext : k'.xNextTaskUnblockTime ≤ k.xNextTaskUnblockTime) : Sound S v k' := by
  have hplace : ∀ t l, k'.state t = some l → W t ∧ l = readyList S t ∨ ¬W t ∧ k.state t = some l := by
    intro t l hl
    by_cases hW : W t
    · rw [hwoke.ready t hW] at hl
      exact Or.inl ⟨hW, (Option.some.inj hl).symm⟩
    · rw [hwoke.state t hW] at hl
      exact Or.inr ⟨hW, hl⟩
  obtain ⟨-, hdelayed, hoverflow, -⟩ := h.delayed_ne
  refine ⟨hlogged, ?_, ?_, ?_, ?_, ?_, htop_high, ?_, ?_, ?_, ?_, ?_, ?_⟩
  · rw [hwoke.delayed, hwoke.overflow]
    exact h.pointers
  · intro t
    rw [hwoke.tasks, h.made]
    by_cases hW : W t
    · obtain ⟨l, hl, -⟩ := hblocked t hW
      rw [show k'.state t = _ from hwoke.ready t hW, hl]
      simp
    · rw [hwoke.state t hW]
  · intro t l hl
    rw [hwoke.delayed, hwoke.overflow]
    rcases hplace t l hl with ⟨-, hready⟩ | ⟨-, hl⟩
    · exact Or.inl hready
    · exact h.places t l hl
  · intro t l hl
    by_cases hW : W t
    · rw [hwoke.noEvent t hW] at hl
      cases hl
    · rw [hwoke.event t hW] at hl
      obtain ⟨hlist, m, hm, hne⟩ := h.events t l hl
      exact ⟨hlist, m, by rw [hwoke.state t hW, hm], hne⟩
  · intro p
    rw [htop, h.top]
    constructor
    · rintro (⟨t, ht⟩ | ⟨t, hW, rfl⟩)
      · have hnot : ¬W t := by
          intro hW
          obtain ⟨l, hl, hne⟩ := hblocked t hW
          rw [ht] at hl
          obtain rfl := Option.some.inj hl
          rcases h.places t _ ht with hready | hlist | hlist | hlist
          · exact hne hready
          · exact hdelayed p hlist.symm
          · exact hoverflow p hlist.symm
          · cases hlist
        exact ⟨t, by rw [hwoke.state t hnot, ht]⟩
      · exact ⟨t, hwoke.ready t hW⟩
    · rintro ⟨t, ht⟩
      rcases hplace t _ ht with ⟨hW, hready⟩ | ⟨-, hl⟩
      · refine Or.inr ⟨t, hW, ?_⟩
        unfold readyList at hready
        injection hready with hp
        exact hp.symm
      · exact Or.inl ⟨t, hl⟩
  · rw [hwoke.tick]
    exact h.tick
  · intro t ht
    rw [hwoke.delayed] at ht
    rw [hwoke.tick, hwoke.wakeTime]
    rcases hplace t _ ht with ⟨-, hready⟩ | ⟨-, hl⟩
    · exact absurd hready (hdelayed _)
    · exact h.due t hl
  · intro t ht
    rw [hwoke.overflow] at ht
    rw [hwoke.tick, hwoke.wakeTime]
    rcases hplace t _ ht with ⟨-, hready⟩ | ⟨-, hl⟩
    · exact absurd hready (hoverflow _)
    · exact h.later t hl
  · rw [hwoke.delayed, hwoke.value]
    exact h.ordered.sublist (hwoke.sublist _ hdelayed)
  · rw [hwoke.overflow, hwoke.value]
    exact h.ordered_later.sublist (hwoke.sublist _ hoverflow)
  · intro t ht
    rw [hwoke.delayed] at ht
    rw [hwoke.wakeTime]
    rcases hplace t _ ht with ⟨-, hready⟩ | ⟨-, hl⟩
    · exact absurd hready (hdelayed _)
    · exact Nat.le_trans hnext (h.next t hl)

/-- Both items of a task have been taken out of their lists, and nothing else has changed. -/
structure Loose (S : TaskSet τ) (v : TaskItem τ → Nat) (t : τ) (k k' : Scheduler τ ε) : Prop where
  frame : k' = { k with lists := k'.lists, listCalls := k'.listCalls }
  logged : Logged v k'
  value : k'.lists.value = k.lists.value
  container : k'.lists.container =
    Function.update (Function.update k.lists.container (.xStateListItem t) none) (.xEventListItem t) none
  sublist : ∀ l, (k'.lists.items l).Sublist (k.lists.items l)
  added : Added S (· = t) k k'

/-- One more call. -/
theorem Added.list {W : τ → Prop} (h : Added S W k k') {c : ListCall (TaskItem τ) (TaskList ε)} (hproper : Proper S c)
    {i : TaskItem τ} (hi : c.item = some i) (hW : W i.pvOwner) : Added S W k (k'.list c) := by
  refine h.trans ⟨[c], rfl, ?_⟩
  intro c' hc'
  rw [List.mem_singleton.mp hc']
  exact ⟨hproper, i, hi, hW⟩

theorem Logged.remove (h : Logged v k) {i : TaskItem τ} (hi : k.lists.container i ≠ none) : Logged v (k.list (.remove i)) :=
  h.list hi

/-- The state item, then the event item. -/
theorem loose_of_state (S : TaskSet τ) (h : Logged v k) (hstate : k.state t ≠ none) :
    Loose S v t k
      (let k := k.list (.remove (.xStateListItem t))
      if k.lists.container (.xEventListItem t) ≠ none then k.list (.remove (.xEventListItem t)) else k) := by
  have h₁ := h.remove hstate
  have hsub := fun l => KernelLists.items_remove_sublist (.xStateListItem t) h.coherent l
  have hadded : Added S (· = t) k (k.list (.remove (.xStateListItem t))) := (Added.refl k).list trivial rfl rfl
  show Loose S v t k (if (k.list (.remove (.xStateListItem t))).lists.container (.xEventListItem t) ≠ none then _ else _)
  split
  · rename_i hevent
    refine ⟨rfl, h₁.remove hevent, ?_, ?_, ?_, hadded.list trivial rfl rfl⟩
    · simp [list, KernelLists.call]
    · simp [list, KernelLists.call]
    · intro l
      exact (KernelLists.items_remove_sublist _ h₁.coherent l).trans (hsub l)
  · rename_i hevent
    refine ⟨rfl, h₁, ?_, ?_, hsub, hadded⟩
    · simp [list, KernelLists.call]
    · rw [not_not] at hevent
      show (k.lists.remove _).container = _
      rw [← KernelLists.container_remove]
      exact (Function.update_eq_self_iff.mpr hevent.symm).symm

/-- The event item, then the state item. -/
theorem loose_of_event (S : TaskSet τ) (h : Logged v k) (hevent : k.event t ≠ none) (hstate : k.state t ≠ none) :
    Loose S v t k ((k.list (.remove (.xEventListItem t))).list (.remove (.xStateListItem t))) := by
  have h₁ := h.remove hevent
  have hne : TaskItem.xStateListItem t ≠ .xEventListItem t := by simp
  have hstate' : (k.list (.remove (.xEventListItem t))).state t ≠ none := by
    show (k.lists.remove _).container _ ≠ none
    rw [KernelLists.container_remove, Function.update_of_ne hne]
    exact hstate
  have hadded : Added S (· = t) k (k.list (.remove (.xEventListItem t))) := (Added.refl k).list trivial rfl rfl
  refine ⟨rfl, h₁.remove hstate', ?_, ?_, ?_, hadded.list trivial rfl rfl⟩
  · simp [list, KernelLists.call]
  · simp [list, KernelLists.call, Function.update_comm hne]
  · intro l
    exact (KernelLists.items_remove_sublist _ h₁.coherent l).trans (KernelLists.items_remove_sublist _ h.coherent l)

/-- A blocked task that is in no list any more is put into its ready list. -/
theorem Loose.ready (hloose : Loose S v t k k') (h : Sound S v k) (ht : Blocked S k t) :
    Sound S v (k'.prvAddTaskToReadyList S t) ∧ Woke S (· = t) k (k'.prvAddTaskToReadyList S t) := by
  have hcontainer : (k'.prvAddTaskToReadyList S t).lists.container =
      Function.update (Function.update k.lists.container (.xStateListItem t) (some (readyList S t))) (.xEventListItem t)
        none := by
    show Function.update k'.lists.container _ _ = _
    rw [hloose.container, Function.update_comm (by simp), Function.update_idem]
    rfl
  have hfree : k'.lists.container (.xStateListItem t) = none := by
    rw [hloose.container]
    simp
  have hlogged : Logged v (k'.prvAddTaskToReadyList S t) :=
    hloose.logged.list (c := .insertEnd (readyList S t) (.xStateListItem t)) hfree |>.of_eq rfl rfl
  have hwoke : Woke S (· = t) k (k'.prvAddTaskToReadyList S t) := by
    refine ⟨?_, hloose.value, ?_, ?_, ?_, ?_, ?_, hloose.added.list (c := .insertEnd (readyList S t) (.xStateListItem t))
      (fun e => by simp [readyList]) rfl rfl⟩
    · have hframe := hloose.frame
      generalize k'.lists = lists, k'.listCalls = listCalls at hframe
      rw [hframe]
      rfl
    · rintro u rfl
      show (k'.prvAddTaskToReadyList S u).lists.container _ = _
      rw [hcontainer, Function.update_of_ne (by simp), Function.update_self]
    · intro u hu
      show (k'.prvAddTaskToReadyList S t).lists.container _ = _
      rw [hcontainer, Function.update_of_ne (by simp), Function.update_of_ne (by simpa using hu)]
      rfl
    · rintro u rfl
      show (k'.prvAddTaskToReadyList S u).lists.container _ = _
      rw [hcontainer, Function.update_self]
    · intro u hu
      show (k'.prvAddTaskToReadyList S t).lists.container _ = _
      rw [hcontainer, Function.update_of_ne (by simpa using hu), Function.update_of_ne (by simp)]
      rfl
    · intro l hl
      have hsame : (k'.prvAddTaskToReadyList S t).lists.items l = k'.lists.items l :=
        KernelLists.items_insertEnd_of_ne _ (hl _)
      rw [hsame]
      exact hloose.sublist l
  have hbits : (k'.prvAddTaskToReadyList S t).uxTopReadyPriority =
      portRECORD_READY_PRIORITY (S.uxPriority t) k.uxTopReadyPriority := by
    show portRECORD_READY_PRIORITY _ k'.uxTopReadyPriority = _
    rw [hloose.frame]
  refine ⟨h.of_woke hwoke ?_ hlogged ?_ ?_ ?_, hwoke⟩
  · rintro u rfl
    exact ht
  · intro p
    rw [hbits, getLsbD_record _ (Nat.lt_trans p.isLt (by decide))]
    refine or_congr_right ?_
    constructor
    · intro hp
      exact ⟨t, rfl, (Fin.ext hp).symm⟩
    · rintro ⟨u, rfl, rfl⟩
      rfl
  · intro i hi
    rw [hbits]
    exact getLsbD_record_high h.top_high _ hi
  · show k'.xNextTaskUnblockTime ≤ _
    rw [hloose.frame]

/-- One task is unblocked. -/
theorem unblock_woke (h : Sound S v k) (ht : Blocked S k t) :
    Sound S v (k.unblock S t) ∧ Woke S (· = t) k (k.unblock S t) := by
  have hstate : k.state t ≠ none := by
    obtain ⟨l, hl, -⟩ := ht
    rw [hl]
    simp
  exact (loose_of_state S h.logged hstate).ready h ht

end Scheduler

end Rtu

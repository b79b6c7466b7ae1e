import Rtu.Lemmas.SchedulerTurns
import Rtu.QueueTasks

/-!
# The order of the tasks that wait for an event

The event item of a task has the value of its priority from the day the task is made, and the event lists are in the order of the
values (`Prioritised`). So a task that comes to wait goes where `QueueTasks` puts it.
-/

namespace Rtu

open Rosters

variable {τ ε : Type}

namespace Scheduler

variable {S : TaskSet τ} {v : TaskItem τ → Nat} {k k' : Scheduler τ ε} {t u : τ} [DecidableEq τ] [DecidableEq ε]

/-- The event lists in the order of the values of their items. -/
def Ordered (a : KernelLists (TaskItem τ) (TaskList ε)) : Prop :=
  ∀ e, (a.items (.eventList e)).Pairwise fun i j => a.value i ≤ a.value j

/-- The event items of the tasks that were made have the values of the priorities, and the event lists are in their order. -/
structure Prioritised (S : TaskSet τ) (k : Scheduler τ ε) : Prop where
  values : ∀ t, k.state t ≠ none → k.lists.value (.xEventListItem t) = configMAX_PRIORITIES - S.uxPriority t
  ordered : Ordered k.lists

/-! ## The calls of the lists -/

theorem ordered_call {a : KernelLists (TaskItem τ) (TaskList ε)} (hcoherent : a.Coherent) (hordered : Ordered a)
    {c : ListCall (TaskItem τ) (TaskList ε)} (htidy : a.Tidy c) (hproper : Proper S c) : Ordered (a.call c) := by
  intro e
  cases c with
  | setValue i xValue => exact hcoherent.sorted_setValue htidy.1 xValue (hordered e)
  | insertEnd l i =>
    rw [KernelLists.call, KernelLists.items_insertEnd_of_ne i fun hl => hproper e hl.symm]
    exact hordered e
  | insert l i =>
    by_cases hl : TaskList.eventList e = l
    · subst hl
      exact KernelLists.sorted_insert (hordered e) i
    · rw [KernelLists.call, KernelLists.items_insert_of_ne i hl]
      exact hordered e
  | remove i =>
    rw [KernelLists.call, KernelLists.value_remove]
    exact (hordered e).sublist (KernelLists.items_remove_sublist i hcoherent _)
  | next l => exact hproper.elim

/-- No call gives an event item another value than that of the priority. -/
theorem value_call (a : KernelLists (TaskItem τ) (TaskList ε)) {c : ListCall (TaskItem τ) (TaskList ε)} (hproper : Proper S c)
    (hvalue : a.value (.xEventListItem t) = configMAX_PRIORITIES - S.uxPriority t) :
    (a.call c).value (.xEventListItem t) = configMAX_PRIORITIES - S.uxPriority t := by
  cases c with
  | setValue i xValue =>
    rw [KernelLists.call, KernelLists.value_setValue]
    by_cases hi : TaskItem.xEventListItem t = i
    · subst hi
      rw [Function.update_self]
      exact hproper
    · rw [Function.update_of_ne hi]
      exact hvalue
  | insertEnd l i => exact hvalue
  | insert l i => exact hvalue
  | remove i =>
    rw [KernelLists.call, KernelLists.value_remove]
    exact hvalue
  | next l => exact hproper.elim

theorem ordered_calls {a : KernelLists (TaskItem τ) (TaskList ε)} (hcoherent : a.Coherent) (hordered : Ordered a)
    {cs : List (ListCall (TaskItem τ) (TaskList ε))} (htidy : a.EachCall KernelLists.Tidy cs) (hproper : ∀ c ∈ cs, Proper S c) :
    Ordered (a.calls cs) := by
  induction cs generalizing a with
  | nil => exact hordered
  | cons c cs ih =>
    exact ih (hcoherent.call htidy.1.legal) (ordered_call hcoherent hordered htidy.1 (hproper c List.mem_cons_self)) htidy.2
      fun c hc => hproper c (List.mem_cons_of_mem _ hc)

theorem value_calls (a : KernelLists (TaskItem τ) (TaskList ε)) {cs : List (ListCall (TaskItem τ) (TaskList ε))}
    (hproper : ∀ c ∈ cs, Proper S c) (hvalue : a.value (.xEventListItem t) = configMAX_PRIORITIES - S.uxPriority t) :
    (a.calls cs).value (.xEventListItem t) = configMAX_PRIORITIES - S.uxPriority t := by
  induction cs generalizing a with
  | nil => exact hvalue
  | cons c cs ih =>
    exact ih _ (fun c hc => hproper c (List.mem_cons_of_mem _ hc)) (value_call a (hproper c List.mem_cons_self) hvalue)

/-! ## A step -/

omit [DecidableEq τ] [DecidableEq ε] in
theorem Prioritised.of_eq (hk : Prioritised S k) (hlists : k'.lists = k.lists) : Prioritised S k' := by
  refine ⟨fun t ht => ?_, by rw [hlists]; exact hk.ordered⟩
  rw [state, hlists] at ht
  rw [hlists]
  exact hk.values t ht

/-- What the calls that were made leave, if the tasks made meanwhile have their values. -/
theorem Prioritised.of_added (hk : Prioritised S k) (h : Logged v k) (h' : Logged v k') {W : τ → Prop} (hadded : Added S W k k')
    (hnew : ∀ t, k.state t = none → k'.state t ≠ none →
      k'.lists.value (.xEventListItem t) = configMAX_PRIORITIES - S.uxPriority t) : Prioritised S k' := by
  obtain ⟨cs, hcs, hform⟩ := hadded
  have hproper : ∀ c ∈ cs, Proper S c := fun c hc => (hform c hc).1
  obtain ⟨hlists, htidy⟩ := h.calls h' hcs
  constructor
  · intro t ht
    by_cases hstate : k.state t = none
    · exact hnew t hstate ht
    · rw [hlists]
      exact value_calls k.lists hproper (hk.values t hstate)
  · rw [hlists]
    exact ordered_calls h.coherent hk.ordered htidy hproper

/-- Only `xTaskCreate` makes a task. -/
theorem step_new (h : Steady S v k) {e : KernelEvent τ ε} (ht : k.state t = none) (ht' : (k.step S e).state t ≠ none) :
    e = .xTaskCreate t := by
  have hevent : k.event t = none := by
    by_contra hsome
    obtain ⟨l, hl⟩ := Option.ne_none_iff_exists'.mp hsome
    obtain ⟨-, m, hm, -⟩ := h.sound.events t l hl
    cases ht.symm.trans hm
  have hawake : ¬k.Asleep t := fun hasleep => state_ne_none_of_asleep hasleep ht
  have hmoves := step_moves h e
  generalize k.step S e = k' at hmoves ht'
  cases hmoves with
  | ticked n W hticked hW hpended =>
    by_cases hWt : W t
    · rcases hW t hWt with ⟨he, -⟩ | hpending | ⟨l, yield, -, hhead⟩
      · exact he
      · cases hevent.symm.trans hpending
      · cases hevent.symm.trans (h.sound.event_of_head hhead)
    · exact absurd ((hticked.others t hWt hawake).2.1.trans ht) ht'
  | switched u he hu => exact absurd ht ht'
  | noted u l yield y p he hhead hnoted => exact absurd ((hnoted.state t).trans ht) ht'
  | slept n indefinite o he hcall hready hslept =>
    refine absurd ((hslept.state t ?_).trans ht) ht'
    rintro rfl
    cases ht.symm.trans hready

theorem Prioritised.make (hk : Prioritised S k) (h : Sound S v k) (ht : t ∉ k.tasks) : Prioritised S (k.make S t) := by
  obtain ⟨h', hmade⟩ := make_spec h ht
  refine hk.of_added h.logged h'.logged hmade.added fun u hu hu' => ?_
  obtain rfl : u = t := by
    by_contra hne
    exact hu' ((hmade.state u hne).trans hu)
  exact Function.update_self _ _ _

theorem Prioritised.step (hk : Prioritised S k) (h : Steady S v k) (e : KernelEvent τ ε) : Prioritised S (k.step S e) := by
  by_cases he : e = .pendSV
  · subst he
    rcases chooses_pendSV h with ⟨-, hlists⟩ | ⟨u, -, -, hlists⟩
    · exact hk.of_eq hlists
    · have hnext : Prioritised S { k with lists := k.lists.next (readyList S u) } := by
        refine ⟨hk.values, fun l => ?_⟩
        rw [KernelLists.items_next]
        exact hk.ordered l
      exact hnext.of_eq hlists
  · refine hk.of_added h.sound.logged (h.step e).sound.logged (step_touches h he) fun t ht ht' => ?_
    obtain rfl := step_new h ht ht'
    rcases step_xTaskCreate h.sound t with hsame | ⟨p, -, -, -, -, hstep⟩
    · rw [hsame] at ht'
      exact absurd ht ht'
    · rw [hstep]
      exact Function.update_self _ _ _

/-! ## A run -/

theorem prioritised_tasks {made rest : List τ} (hk : Prioritised S k) (h : Starting S v made k) (hnodup : (made ++ rest).Nodup)
    (hfirst : made = [] → ∀ t, rest.head? = some t → k.pxCurrentTCB = t) :
    Prioritised S (rest.foldl (prvAddNewTaskToReadyList S) k) := by
  induction rest generalizing made k with
  | nil => exact hk
  | cons t rest ih =>
    have ht : t ∉ made := fun hmem => (List.nodup_append.mp hnodup).2.2 t hmem t List.mem_cons_self rfl
    have hmake := hk.make h.sound (t := t) (by rw [h.tasks]; exact ht)
    have h' := h.make ht fun hempty => hfirst hempty t rfl
    have hlists : (prvAddNewTaskToReadyList S k t).lists = (k.make S t).lists := by
      unfold prvAddNewTaskToReadyList
      dsimp only
      split <;> rfl
    rw [List.append_cons] at hnodup
    exact ih (hmake.of_eq hlists) h' hnodup fun hempty => absurd hempty (by simp)

theorem prioritised_run (hvalue : ∀ i, v i ≤ portMAX_DELAY) {tasks : List τ}
    (hnodup : (tasks ++ [S.xIdleTask, S.xTimerTask]).Nodup) (es : List (KernelEvent τ ε)) : Prioritised S (run S v tasks es) := by
  have hstart : Prioritised S (vTaskStartScheduler S v tasks : Scheduler τ ε) := by
    refine prioritised_tasks ⟨fun t ht => absurd rfl ht, fun e => List.Pairwise.nil⟩
      (starting_initial hvalue (tasks.headD S.xIdleTask)) hnodup fun _ t ht => ?_
    cases tasks with
    | nil => exact Option.some.inj ht
    | cons u rest => exact Option.some.inj ht
  exact (Runs.run_inv (fun k => Steady S v k ∧ Prioritised S k) (fun _ e h => ⟨h.1.step e, h.2.step h.1 e⟩)
    ⟨steady_vTaskStartScheduler hvalue hnodup, hstart⟩ es).2

/-- The tasks that wait for an event are in the order of their priorities. -/
theorem Prioritised.waiters (hk : Prioritised S k) (h : Sound S v k) (e : ε) :
    (k.lists.items (.eventList e)).Pairwise fun i j => S.uxPriority j.pvOwner ≤ S.uxPriority i.pvOwner := by
  have hitem : ∀ i ∈ k.lists.items (.eventList e), k.lists.value i = configMAX_PRIORITIES - S.uxPriority i.pvOwner := by
    intro i hi
    obtain ⟨t, rfl, ht⟩ := h.event_item hi
    obtain ⟨-, l, hl, -⟩ := h.events t _ ht
    refine hk.values t ?_
    rw [hl]
    simp
  refine (hk.ordered e).imp_of_mem ?_
  intro i j hi hj hle
  rw [hitem i hi, hitem j hj] at hle
  have := (S.uxPriority j.pvOwner).isLt
  exact Fin.le_def.mpr (by omega)

/-! ## Who came first -/

/-- If the one item is in the list of an event, the other is in front of it. -/
def Behind (a : KernelLists (TaskItem τ) (TaskList ε)) (e : ε) (i j : TaskItem τ) : Prop :=
  a.container j = some (.eventList e) → [i, j].Sublist (a.items (.eventList e))

/-- An item that is put in or taken out leaves two others as they stood, and one that is put in comes behind those of its value. -/
theorem behind_call {a : KernelLists (TaskItem τ) (TaskList ε)} (hcoherent : a.Coherent) (hordered : Ordered a) {e : ε}
    {i j : TaskItem τ} (hi : a.container i = some (.eventList e)) (hle : a.value i ≤ a.value j) (hbehind : Behind a e i j)
    {c : ListCall (TaskItem τ) (TaskList ε)} (hlegal : a.Legal c) (hproper : Proper S c) {x : TaskItem τ}
    (hitem : c.item = some x) (hx : x ≠ i) : Behind (a.call c) e i j := by
  cases c with
  | setValue y xValue => exact hbehind
  | insertEnd l y =>
    intro hj
    rw [KernelLists.call, KernelLists.container_insertEnd] at hj
    rw [KernelLists.call, KernelLists.items_insertEnd_of_ne y fun hl => hproper e hl.symm]
    by_cases hjy : j = y
    · subst hjy
      rw [Function.update_self] at hj
      exact absurd (Option.some.inj hj) (hproper e)
    · rw [Function.update_of_ne hjy] at hj
      exact hbehind hj
  | insert l y =>
    intro hj
    rw [KernelLists.call, KernelLists.container_insert] at hj
    by_cases hl : TaskList.eventList e = l
    · subst hl
      by_cases hjy : j = y
      · subst hjy
        exact KernelLists.pair_sublist_insert (hordered e) ((hcoherent.member _ _).mp hi) hle
      · rw [Function.update_of_ne hjy] at hj
        exact (hbehind hj).trans (KernelLists.items_sublist_insert a _ y)
    · rw [KernelLists.call, KernelLists.items_insert_of_ne y hl]
      by_cases hjy : j = y
      · subst hjy
        rw [Function.update_self] at hj
        exact absurd (Option.some.inj hj).symm hl
      · rw [Function.update_of_ne hjy] at hj
        exact hbehind hj
  | remove y =>
    intro hj
    obtain rfl : y = x := Option.some.inj hitem
    rw [KernelLists.call, KernelLists.container_remove] at hj
    have hjy : j ≠ y := by
      rintro rfl
      rw [Function.update_self] at hj
      cases hj
    rw [Function.update_of_ne hjy] at hj
    obtain ⟨l, hl⟩ := Option.ne_none_iff_exists'.mp hlegal
    rw [KernelLists.call, KernelLists.items_remove hcoherent hl]
    split
    · rename_i heq
      have hpair := (hbehind hj).erase y
      rwa [List.erase_cons_tail (by simpa using hx.symm), List.erase_cons_tail (by simpa using hjy), List.erase_nil, heq] at hpair
    · exact hbehind hj
  | next l => exact hproper.elim

theorem container_call (a : KernelLists (TaskItem τ) (TaskList ε)) {c : ListCall (TaskItem τ) (TaskList ε)} (hproper : Proper S c)
    {i x : TaskItem τ} (hitem : c.item = some x) (hx : x ≠ i) : (a.call c).container i = a.container i := by
  cases c with
  | setValue y xValue => rfl
  | insertEnd l y =>
    obtain rfl : y = x := Option.some.inj hitem
    rw [KernelLists.call, KernelLists.container_insertEnd, Function.update_of_ne hx.symm]
  | insert l y =>
    obtain rfl : y = x := Option.some.inj hitem
    rw [KernelLists.call, KernelLists.container_insert, Function.update_of_ne hx.symm]
  | remove y =>
    obtain rfl : y = x := Option.some.inj hitem
    rw [KernelLists.call, KernelLists.container_remove, Function.update_of_ne hx.symm]
  | next l => exact hproper.elim

/-- Calls that are not about a task that waits for an event leave it in front of the tasks that come after it and have no higher
priority. -/
theorem behind_calls {a : KernelLists (TaskItem τ) (TaskList ε)} (hcoherent : a.Coherent) (hordered : Ordered a) {e : ε}
    (ht : a.container (.xEventListItem t) = some (.eventList e))
    (hvt : a.value (.xEventListItem t) = configMAX_PRIORITIES - S.uxPriority t)
    (hvu : a.value (.xEventListItem u) = configMAX_PRIORITIES - S.uxPriority u) (hprio : S.uxPriority u ≤ S.uxPriority t)
    (hbehind : Behind a e (.xEventListItem t) (.xEventListItem u)) {cs : List (ListCall (TaskItem τ) (TaskList ε))}
    (htidy : a.EachCall KernelLists.Tidy cs) (hform : ∀ c ∈ cs, Proper S c ∧ ∃ i, c.item = some i ∧ i ≠ .xEventListItem t) :
    Behind (a.calls cs) e (.xEventListItem t) (.xEventListItem u) := by
  induction cs generalizing a with
  | nil => exact hbehind
  | cons c cs ih =>
    obtain ⟨hproper, i, hitem, hi⟩ := hform c List.mem_cons_self
    have hle : a.value (.xEventListItem t) ≤ a.value (.xEventListItem u) := by
      rw [hvt, hvu]
      exact Nat.sub_le_sub_left (Fin.le_def.mp hprio) _
    exact ih (hcoherent.call htidy.1.legal) (ordered_call hcoherent hordered htidy.1 hproper)
      ((container_call a hproper hitem hi).trans ht) (value_call a hproper hvt) (value_call a hproper hvu)
      (behind_call hcoherent hordered ht hle hbehind htidy.1.legal hproper hitem hi) htidy.2
      fun c hc => hform c (List.mem_cons_of_mem _ hc)

/-- No task is deleted. -/
theorem step_made (h : Steady S v k) (e : KernelEvent τ ε) (ht : k.state t ≠ none) : (k.step S e).state t ≠ none := by
  have hmoves := step_moves h e
  generalize k.step S e = k' at hmoves
  cases hmoves with
  | ticked n W hticked hW hpended =>
    by_cases hwakes : W t ∨ k.Asleep t ∧ k.left t ≤ n
    · have hready : k'.state t = _ := (hticked.wakes t hwakes).1
      rw [hready]
      simp
    · obtain ⟨hWt, hlong⟩ := not_or.mp hwakes
      by_cases hasleep : k.Asleep t
      · have hlt : n < k.left t := Nat.lt_of_not_le fun hle => hlong ⟨hasleep, hle⟩
        exact state_ne_none_of_asleep (hticked.sleeps t hWt hasleep hlt).1
      · rw [(hticked.others t hWt hasleep).2.1]
        exact ht
  | switched u he hu => exact ht
  | noted u l yield y p he hhead hnoted => exact fun hnone => ht ((hnoted.state t).symm.trans hnone)
  | slept n indefinite o he hcall hready hslept =>
    rename_i k₁
    by_cases hcurrent : t = k.pxCurrentTCB
    · subst hcurrent
      by_cases hforever : n = portMAX_DELAY ∧ indefinite
      · intro hnone
        cases hnone.symm.trans (hslept.suspended hforever)
      · have hasleep : k₁.Asleep k.pxCurrentTCB := (hslept.asleep hforever).1
        exact state_ne_none_of_asleep hasleep
    · exact fun hnone => ht ((hslept.state t hcurrent).symm.trans hnone)

/-- A task that waits for an event stays in front of those that come after it and have no higher priority. -/
theorem behind_step (h : Steady S v k) (hk : Prioritised S k) {l : ε} (hu : k.state u ≠ none)
    (hprio : S.uxPriority u ≤ S.uxPriority t) (ht : k.event t = some (.eventList l)) {e : KernelEvent τ ε}
    (ht' : (k.step S e).event t = some (.eventList l)) (hbehind : Behind k.lists l (.xEventListItem t) (.xEventListItem u)) :
    Behind (k.step S e).lists l (.xEventListItem t) (.xEventListItem u) := by
  by_cases he : e = .pendSV
  · subst he
    rcases chooses_pendSV h with ⟨-, hlists⟩ | ⟨w, -, -, hlists⟩
    · rw [hlists]
      exact hbehind
    · rw [hlists]
      intro hin
      rw [KernelLists.items_next]
      exact hbehind hin
  · obtain ⟨cs, hcs, hform⟩ := step_touches h he
    obtain ⟨hlists, htidy⟩ := h.sound.logged.calls (h.step e).sound.logged hcs
    have hothers : ∀ c ∈ cs, Proper S c ∧ ∃ i, c.item = some i ∧ i ≠ .xEventListItem t := by
      intro c hc
      obtain ⟨hproper, i, hitem, howner⟩ := hform c hc
      refine ⟨hproper, i, hitem, ?_⟩
      rintro rfl
      cases howner with
      | woken hblocked hready hevent => cases hevent.symm.trans ht'
      | noted hpending => cases hpending.symm.trans ht'
      | slept hready hblocked => cases (h.sound.event_of_ready hready).symm.trans ht
    obtain ⟨-, m, hm, -⟩ := h.sound.events t _ ht
    rw [hlists]
    exact behind_calls h.sound.coherent hk.ordered ht (hk.values t (by rw [hm]; simp)) (hk.values u hu) hprio hbehind htidy hothers

/-- The item in front is the first of the two to go. -/
theorem head_ne_of_behind (h : Sound S v k) {l : ε} (hne : t ≠ u) (hbehind : Behind k.lists l (.xEventListItem t) (.xEventListItem u)) :
    (k.lists.items (.eventList l)).head? ≠ some (.xEventListItem u) := by
  intro hhead
  have hpair := hbehind (h.event_of_head hhead)
  have hnodup := h.coherent.nodup (.eventList l)
  obtain ⟨rest, hitems⟩ := List.head?_eq_some_iff.mp hhead
  rw [hitems] at hpair hnodup
  have hrest : [TaskItem.xEventListItem t, .xEventListItem u].Sublist rest := by
    cases hpair with
    | cons _ hrest => exact hrest
    | cons_cons _ _ => exact absurd rfl hne
  exact (List.nodup_cons.mp hnodup).1 (hrest.mem (by simp))

/-- Through a run, as long as the one in front waits. -/
theorem behind_run (h : Steady S v k) (hk : Prioritised S k) {l : ε} (hu : k.state u ≠ none)
    (hprio : S.uxPriority u ≤ S.uxPriority t) (hbehind : Behind k.lists l (.xEventListItem t) (.xEventListItem u))
    {es : List (KernelEvent τ ε)} (hwaits : Runs.Always (step S) (fun k => k.event t = some (.eventList l)) k es) :
    Runs.Always (step S) (fun k => Behind k.lists l (.xEventListItem t) (.xEventListItem u)) k es := by
  induction es generalizing k with
  | nil => exact Runs.always_nil.mpr hbehind
  | cons e es ih =>
    obtain ⟨ht, hrest⟩ := Runs.always_cons.mp hwaits
    have ht' : (k.step S e).event t = some (.eventList l) := hrest [] List.nil_prefix
    have hbehind' := behind_step h hk hu hprio ht ht' hbehind
    exact Runs.always_cons.mpr ⟨hbehind, ih (h.step e) (hk.step h e) (step_made h e hu) hbehind' hrest⟩

/-! ## The event lists as the queues see them -/

omit [DecidableEq τ] in
/-- An item put in behind those that go before it, where these are the items of tasks of no lower priority. -/
theorem map_place {α : Type} (uxPriority : τ → Nat) (owner : α → τ) (before : α → Bool) (x : α) {l : List α}
    (h : ∀ y ∈ l, before y = true ↔ uxPriority (owner x) ≤ uxPriority (owner y)) :
    (l.takeWhile before ++ x :: l.dropWhile before).map owner = vListInsert uxPriority (owner x) (l.map owner) := by
  induction l with
  | nil => rfl
  | cons y l ih =>
    obtain ⟨hy, hl⟩ := List.forall_mem_cons.mp h
    rw [List.map_cons, vListInsert]
    by_cases hle : uxPriority (owner x) ≤ uxPriority (owner y)
    · rw [if_pos hle, List.takeWhile_cons_of_pos (hy.mpr hle), List.dropWhile_cons_of_pos (hy.mpr hle), ← ih hl]
      rfl
    · rw [if_neg hle, List.takeWhile_cons_of_neg (mt hy.mp hle), List.dropWhile_cons_of_neg (mt hy.mp hle)]
      rfl

/-- The tasks that wait for an event, in the order of the list. -/
def waitersOf (e : ε) (k : Scheduler τ ε) : List τ := (k.lists.items (.eventList e)).map TaskItem.pvOwner

/-- The running task leaves no event list as it goes to sleep. -/
theorem items_prvAddCurrentTaskToDelayedList (hcoherent : k.lists.Coherent) (hstate : k.state k.pxCurrentTCB = some (readyList S t))
    {e : ε} (hdelayed : k.pxDelayedTaskList ≠ .eventList e) (hoverflow : k.pxOverflowDelayedTaskList ≠ .eventList e) (n : Nat)
    (indefinite : Bool) :
    (k.prvAddCurrentTaskToDelayedList S n indefinite).lists.items (.eventList e) = k.lists.items (.eventList e) := by
  have hleave : (k.leaveReadyList S).lists.items (.eventList e) = k.lists.items (.eventList e) := by
    have hlists : (k.leaveReadyList S).lists = k.lists.remove (.xStateListItem k.pxCurrentTCB) := by
      unfold leaveReadyList
      dsimp only
      split <;> rfl
    rw [hlists, KernelLists.items_remove hcoherent hstate, if_neg (by simp [readyList])]
  have hframe : (k.leaveReadyList S).pxDelayedTaskList = k.pxDelayedTaskList ∧
      (k.leaveReadyList S).pxOverflowDelayedTaskList = k.pxOverflowDelayedTaskList := by
    unfold leaveReadyList
    dsimp only
    split <;> exact ⟨rfl, rfl⟩
  unfold prvAddCurrentTaskToDelayedList
  generalize k.leaveReadyList S = k' at *
  obtain ⟨hdelayed', hoverflow'⟩ := hframe
  rw [← hleave]
  unfold sleep
  dsimp only
  split
  · exact KernelLists.items_insertEnd_of_ne _ (by simp)
  · split
    · exact KernelLists.items_insert_of_ne _ fun hl => hoverflow (hoverflow' ▸ hl.symm)
    · split
      · exact KernelLists.items_insert_of_ne _ fun hl => hdelayed (hdelayed' ▸ hl.symm)
      · exact KernelLists.items_insert_of_ne _ fun hl => hdelayed (hdelayed' ▸ hl.symm)

/-- A task that comes to wait for an event goes where the queue puts it. -/
theorem waitersOf_vTaskPlaceOnEventList (h : Sound S v k) (hk : Prioritised S k) (hready : Ready S k k.pxCurrentTCB) (e : ε) (n : Nat) :
    (k.vTaskPlaceOnEventList S e n).waitersOf e = vListInsert (fun t => S.uxPriority t) k.pxCurrentTCB (k.waitersOf e) := by
  obtain ⟨-, -, -, -, -, -, -, hdelayed, hoverflow⟩ := h.delayed_ne
  have hstate : (k.list (.insert (.eventList e) (.xEventListItem k.pxCurrentTCB))).state k.pxCurrentTCB =
      some (readyList S k.pxCurrentTCB) := by
    rw [← show k.state k.pxCurrentTCB = some (readyList S k.pxCurrentTCB) from hready]
    have hother : TaskItem.xStateListItem k.pxCurrentTCB ≠ .xEventListItem k.pxCurrentTCB := by simp
    exact Function.update_of_ne hother (some (.eventList e)) k.lists.container
  have hitems : (k.vTaskPlaceOnEventList S e n).lists.items (.eventList e) =
      (k.lists.insert (.eventList e) (.xEventListItem k.pxCurrentTCB)).items (.eventList e) :=
    items_prvAddCurrentTaskToDelayedList (k := k.list (.insert (.eventList e) (.xEventListItem k.pxCurrentTCB)))
      (h.coherent.insert (h.event_of_ready hready) (.eventList e)) hstate (hdelayed e) (hoverflow e) n true
  -- the value of an item says how its priority compares
  have hvalue : ∀ i ∈ k.lists.items (.eventList e),
      k.lists.value i ≤ k.lists.value (.xEventListItem k.pxCurrentTCB) ↔
        (S.uxPriority k.pxCurrentTCB).val ≤ (S.uxPriority i.pvOwner).val := by
    intro i hi
    obtain ⟨t, rfl, ht⟩ := h.event_item hi
    obtain ⟨-, l, hl, -⟩ := h.events t _ ht
    have hmade : k.state t ≠ none := by simp [hl]
    have hmade' : k.state k.pxCurrentTCB ≠ none := by simp [show k.state k.pxCurrentTCB = _ from hready]
    rw [hk.values t hmade, hk.values _ hmade']
    have h1 := (S.uxPriority t).isLt
    have h2 := (S.uxPriority k.pxCurrentTCB).isLt
    dsimp only [TaskItem.pvOwner]
    omega
  unfold waitersOf
  rw [hitems, KernelLists.insert, KernelLists.items_join, if_pos rfl, Roster.place_items]
  exact map_place (fun t => S.uxPriority t) TaskItem.pvOwner _ (.xEventListItem k.pxCurrentTCB) fun i hi => by
    exact decide_eq_true_iff.trans (hvalue i hi)

/-- An event takes the first task out of the list, as `QueueTasks.wake` does. -/
theorem waitersOf_event (h : Sound S v k) (e : ε) (yield : Bool) :
    (k.step S (.event e yield)).waitersOf e = (k.waitersOf e).tail := by
  have hstep : (k.step S (.event e yield)).lists = (k.xTaskRemoveFromEventList S e).1.lists := by
    have hif : k.step S (.event e yield) =
        if (yield && (k.xTaskRemoveFromEventList S e).2) = true then
          { (k.xTaskRemoveFromEventList S e).1 with pendSV := true }
        else (k.xTaskRemoveFromEventList S e).1 := rfl
    rw [hif]
    split <;> rfl
  unfold waitersOf
  rw [hstep]
  cases hhead : (k.lists.items (.eventList e)).head? with
  | none =>
    have hnone : k.xTaskRemoveFromEventList S e = (k, false) := by simp only [xTaskRemoveFromEventList, hhead]
    rw [hnone, List.head?_eq_none_iff.mp hhead]
    rfl
  | some i =>
    obtain ⟨t, rfl, ht⟩ := h.event_item (List.mem_of_mem_head? hhead)
    obtain ⟨rest, hrest⟩ := List.head?_eq_some_iff.mp hhead
    have hremoved : (k.lists.remove (.xEventListItem t)).items (.eventList e) = rest := by
      rw [KernelLists.items_remove h.coherent ht, if_pos rfl, hrest, List.erase_cons_head]
    have hitems : (k.xTaskRemoveFromEventList S e).1.lists.items (.eventList e) = rest := by
      have hlists : (k.xTaskRemoveFromEventList S e).1.lists =
          if k.uxSchedulerSuspended = 0 then
            ((k.lists.remove (.xEventListItem t)).remove (.xStateListItem t)).insertEnd (readyList S t) (.xStateListItem t)
          else
            (k.lists.remove (.xEventListItem t)).insertEnd .xPendingReadyList (.xEventListItem t) := by
        by_cases hsuspended : k.uxSchedulerSuspended = 0
        · simp only [xTaskRemoveFromEventList, hhead, list, hsuspended, if_true]
          split <;> rfl
        · simp only [xTaskRemoveFromEventList, hhead, list, hsuspended, if_false]
          split <;> rfl
      rw [hlists]
      split
      · obtain ⟨-, l, hl, -⟩ := h.events t _ ht
        have hstate : (k.lists.remove (.xEventListItem t)).container (.xStateListItem t) = some l := by
          rw [KernelLists.container_remove, Function.update_of_ne (by simp)]
          exact hl
        have hne : TaskList.eventList e ≠ l := by
          rintro rfl
          exact absurd (h.event_item ((h.coherent.member _ _).mp hl)) (by simp)
        rw [KernelLists.items_insertEnd_of_ne _ (by simp [readyList]), KernelLists.items_remove (h.coherent.remove _) hstate, if_neg hne,
          hremoved]
      · rw [KernelLists.items_insertEnd_of_ne _ (by simp), hremoved]
    rw [hitems, hrest]
    rfl

end Scheduler

end Rtu

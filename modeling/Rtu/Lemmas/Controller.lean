import Rtu.Controller
import Rtu.Lemmas.Axis
import Rtu.Lemmas.TcpThread

/-!
# What a step of the controller changes

Frame lemmas: which parts of the controller each step leaves as they are. A step of the thread changes the tasks of an axis at most
in their offset, a step of a device task leaves the thread alone, and a message leaves a queue only with a receive.
-/

namespace Rtu

/-! ## Axes and queues -/

@[simp] theorem axis_setAxis_self (c : Controller) (ax : Axis) (t : AxisTasks) : (c.setAxis ax t).axis ax = t := by
  cases ax <;> rfl

theorem axis_setAxis_ne (c : Controller) {ax ax' : Axis} (t : AxisTasks) (h : ax' ≠ ax) :
    (c.setAxis ax t).axis ax' = c.axis ax' := by
  cases ax <;> cases ax' <;> first | rfl | exact absurd rfl h

@[simp] theorem queued_setAxis (c : Controller) (ax ax' : Axis) (t : AxisTasks) :
    (c.setAxis ax t).queued ax' = c.queued ax' := by
  cases ax <;> cases ax' <;> rfl

@[simp] theorem tcp_setAxis (c : Controller) (ax : Axis) (t : AxisTasks) : (c.setAxis ax t).tcp = c.tcp := by
  cases ax <;> rfl

@[simp] theorem mainPwr_setAxis (c : Controller) (ax : Axis) (t : AxisTasks) : (c.setAxis ax t).mainPwr = c.mainPwr := by
  cases ax <;> rfl

/-- The tasks of both axes are as they were. -/
theorem axis_congr {c c' : Controller} (harm : c'.arm = c.arm) (hpole : c'.pole = c.pole) (ax : Axis) :
    c'.axis ax = c.axis ax := by
  cases ax with
  | arm => exact harm
  | pole => exact hpole

/-- The queues of both axes are as they were. -/
theorem queued_congr {c c' : Controller} (harm : c'.armQueue = c.armQueue) (hpole : c'.poleQueue = c.poleQueue) (ax : Axis) :
    c'.queued ax = c.queued ax := by
  unfold Controller.queued
  rw [harm, hpole]

/-- What a receive from the queue of an axis takes and leaves. -/
theorem dequeue_eq_some {c c' : Controller} {ax : Axis} {b : MotPapBlock} (h : c.dequeue ax = some (b, c')) :
    c.queued ax = b :: c'.queued ax ∧ (∀ ax', ax' ≠ ax → c'.queued ax' = c.queued ax') ∧ (∀ ax', c'.axis ax' = c.axis ax') ∧
      c'.tcp = c.tcp ∧ c'.mainPwr = c.mainPwr := by
  cases ax with
  | arm =>
    obtain ⟨⟨b', q⟩, hq, heq⟩ := Option.map_eq_some_iff.mp h
    obtain ⟨rfl, rfl⟩ := Prod.mk.inj heq
    refine ⟨Fifo.Queue.items_of_receive hq, ?_, ?_, rfl, rfl⟩
    · intro ax' hne
      cases ax' with
      | arm => exact absurd rfl hne
      | pole => rfl
    · exact axis_congr rfl rfl
  | pole =>
    obtain ⟨⟨b', q⟩, hq, heq⟩ := Option.map_eq_some_iff.mp h
    obtain ⟨rfl, rfl⟩ := Prod.mk.inj heq
    refine ⟨Fifo.Queue.items_of_receive hq, ?_, ?_, rfl, rfl⟩
    · intro ax' hne
      cases ax' with
      | pole => exact absurd rfl hne
      | arm => rfl
    · exact axis_congr rfl rfl

/-- A queue with a message in it can be received from. -/
theorem exists_dequeue {c : Controller} {ax : Axis} {b : MotPapBlock} {items : List MotPapBlock}
    (h : c.queued ax = b :: items) : ∃ c', c.dequeue ax = some (b, c') := by
  cases ax with
  | arm =>
    obtain ⟨q, hq, -⟩ := Fifo.Queue.receive_of_items (q := c.armQueue) h
    exact ⟨{ c with armQueue := q }, by simp [Controller.dequeue, hq]⟩
  | pole =>
    obtain ⟨q, hq, -⟩ := Fifo.Queue.receive_of_items (q := c.poleQueue) h
    exact ⟨{ c with poleQueue := q }, by simp [Controller.dequeue, hq]⟩

/-! ## The thread -/

/-- A step of the thread that makes no call. -/
theorem step_tcp_quiet {c : Controller} {i : TcpInput} (heffect : c.tcp.effect i = none) :
    c.step (.tcp i) = { c with tcp := c.tcp.step i } := by
  show c.tcpStep i = _
  unfold Controller.tcpStep
  rw [heffect]

/-- A step of the thread that makes its call. -/
theorem step_tcp_perform {c c' : Controller} {i : TcpInput} {e : Effect} (heffect : c.tcp.effect i = some e)
    (hperform : c.perform e = some c') : c.step (.tcp i) = { c' with tcp := c.tcp.step i } := by
  show c.tcpStep i = _
  unfold Controller.tcpStep
  simp only [heffect, hperform]

/-- A step of the thread blocks, makes no call, or makes its call. -/
theorem tcpStep_cases (c : Controller) (i : TcpInput) :
    c.tcpStep i = c ∨ (c.tcp.effect i = none ∧ c.tcpStep i = { c with tcp := c.tcp.step i }) ∨
      ∃ e c', c.tcp.effect i = some e ∧ c.perform e = some c' ∧ c.tcpStep i = { c' with tcp := c.tcp.step i } := by
  unfold Controller.tcpStep
  cases he : c.tcp.effect i with
  | none => exact Or.inr (Or.inl ⟨rfl, rfl⟩)
  | some e =>
    cases hc : c.perform e with
    | none => exact Or.inl (by simp only [hc])
    | some c' => exact Or.inr (Or.inr ⟨e, c', rfl, hc, by simp only [hc]⟩)

/-- A call of a producer leaves what the command tasks hold. -/
theorem cmd_perform {c c' : Controller} {e : Effect} (h : c.perform e = some c') (ax : Axis) :
    (c'.axis ax).cmd = (c.axis ax).cmd := by
  cases e with
  | setStallDetection _ | armSetOffset _ | poleSetOffset _ | relayMainPwr _ =>
    rw [← Option.some_inj.mp h]
    cases ax <;> rfl
  | armQueueSend _ | poleQueueSend _ | liftQueueSend _ =>
    obtain ⟨q, -, rfl⟩ := Option.map_eq_some_iff.mp h
    cases ax <;> rfl

/-! ## The other tasks -/

/-- A command task takes a message, or there is none or it does not wait for one. -/
theorem receive_cases (c : Controller) (ax : Axis) (heap : MotPapMsg) (raw : UInt16) :
    c.step (.receive ax heap raw) = c ∨
      ∃ b c', (c.axis ax).cmd = none ∧ c.dequeue ax = some (b, c') ∧
        c.step (.receive ax heap raw) = c'.setAxis ax ((c.axis ax).receive (b.read heap) raw) := by
  show c.receive ax heap raw = c ∨ ∃ b c', _ ∧ _ ∧ c.receive ax heap raw = _
  unfold Controller.receive
  split
  · rename_i hidle
    split
    · rename_i b c' hdeq
      exact Or.inr ⟨b, c', hidle, hdeq, rfl⟩
    · exact Or.inl rfl
  · exact Or.inl rfl

/-- A command task at its queue takes the message in front. -/
theorem receive_of_dequeue {c c' : Controller} {ax : Axis} {b : MotPapBlock} (hidle : (c.axis ax).cmd = none)
    (hdeq : c.dequeue ax = some (b, c')) (heap : MotPapMsg) (raw : UInt16) :
    c.step (.receive ax heap raw) = c'.setAxis ax ((c.axis ax).receive (b.read heap) raw) := by
  show c.receive ax heap raw = _
  unfold Controller.receive
  rw [if_pos hidle, hdeq]

/-- A supervisor takes its semaphore; the relay is left or cut. -/
theorem supervise_eq (c : Controller) (ax : Axis) (raw : UInt16) :
    ∃ mainPwr, (mainPwr = true → c.mainPwr = true) ∧
      c.step (.supervise ax raw) = { c.setAxis ax ((c.axis ax).supervise raw c.stallDetection) with mainPwr } := by
  show ∃ mainPwr, _ ∧ c.supervise ax raw = _
  unfold Controller.supervise
  dsimp only
  split
  · exact ⟨false, nofun, rfl⟩
  · exact ⟨(c.setAxis ax _).mainPwr, by simp, rfl⟩

/-- The lift task takes a message, or not. -/
theorem liftReceive_eq (c : Controller) (heap : LiftType) :
    ∃ liftQueue lift liftDelay, c.step (.liftReceive heap) = { c with liftQueue, lift, liftDelay } := by
  show ∃ liftQueue lift liftDelay, c.liftReceive heap = _
  unfold Controller.liftReceive
  split
  · split
    · exact ⟨_, _, _, rfl⟩
    · exact ⟨_, _, _, rfl⟩
  · exact ⟨_, _, _, rfl⟩

/-- It goes on after its delay, or waits for none. -/
theorem liftResume_eq (c : Controller) : ∃ lift liftDelay, c.step .liftResume = { c with lift, liftDelay } := by
  unfold Controller.step
  cases c.liftDelay with
  | none => exact ⟨_, _, rfl⟩
  | some dir => exact ⟨_, _, rfl⟩

/-- A step that is not the thread's leaves the thread, and does not switch the relay on. -/
theorem device_frame (c : Controller) {l : ControllerLabel} (hl : ∀ i, l ≠ .tcp i) :
    (c.step l).tcp = c.tcp ∧ ((c.step l).mainPwr = true → c.mainPwr = true) := by
  cases l with
  | tcp i => exact absurd rfl (hl i)
  | receive ax heap raw =>
    rcases receive_cases c ax heap raw with heq | ⟨b, c', -, hdeq, heq⟩ <;> rw [heq]
    · exact ⟨rfl, id⟩
    · obtain ⟨-, -, -, htcp, hmain⟩ := dequeue_eq_some hdeq
      simp [htcp, hmain]
  | supervise ax raw =>
    obtain ⟨mainPwr, hmain, heq⟩ := supervise_eq c ax raw
    rw [heq]
    exact ⟨tcp_setAxis c ax _, hmain⟩
  | cmdResume ax | supResume ax | status ax raw => exact ⟨by simp [Controller.step], by simp [Controller.step]⟩
  | liftReceive heap =>
    obtain ⟨_, _, _, heq⟩ := liftReceive_eq c heap
    rw [heq]
    exact ⟨rfl, id⟩
  | liftResume =>
    obtain ⟨_, _, heq⟩ := liftResume_eq c
    rw [heq]
    exact ⟨rfl, id⟩

/-- Nor does a run of such steps change the thread. -/
theorem tcp_run_device (c : Controller) {ls : List ControllerLabel} (h : ∀ l ∈ ls, ∀ i, l ≠ .tcp i) :
    (Runs.run Controller.step c ls).tcp = c.tcp := by
  induction ls generalizing c with
  | nil => rfl
  | cons l ls ih =>
    rw [Runs.run_cons, ih (c.step l) fun l' hl' => h l' (List.mem_cons_of_mem l hl')]
    exact (device_frame c (h l List.mem_cons_self)).1

@[simp] theorem stallDetection_setAxis (c : Controller) (ax : Axis) (t : AxisTasks) :
    (c.setAxis ax t).stallDetection = c.stallDetection := by
  cases ax <;> rfl

theorem stallDetection_dequeue {c c' : Controller} {ax : Axis} {b : MotPapBlock} (h : c.dequeue ax = some (b, c')) :
    c'.stallDetection = c.stallDetection := by
  cases ax <;> obtain ⟨⟨b', q⟩, -, heq⟩ := Option.map_eq_some_iff.mp h <;> rw [← (Prod.mk.inj heq).2]

/-- A step that is not the thread's leaves the stall detection. -/
theorem stallDetection_device (c : Controller) {l : ControllerLabel} (hl : ∀ i, l ≠ .tcp i) :
    (c.step l).stallDetection = c.stallDetection := by
  cases l with
  | tcp i => exact absurd rfl (hl i)
  | receive ax heap raw =>
    rcases receive_cases c ax heap raw with heq | ⟨b, c', -, hdeq, heq⟩ <;> rw [heq]
    rw [stallDetection_setAxis, stallDetection_dequeue hdeq]
  | supervise ax raw =>
    obtain ⟨mainPwr, -, heq⟩ := supervise_eq c ax raw
    rw [heq]
    exact stallDetection_setAxis c ax _
  | cmdResume ax | supResume ax | status ax raw => exact stallDetection_setAxis c ax _
  | liftReceive heap =>
    obtain ⟨_, _, _, heq⟩ := liftReceive_eq c heap
    rw [heq]
  | liftResume =>
    obtain ⟨_, _, heq⟩ := liftResume_eq c
    rw [heq]

end Rtu

import Rtu.Depot
import Rtu.Lemmas.Controller

/-!
# What a step of the controller does to its messages

`Turn` says it once: a step leaves the messages alone, or it is one of the four operations on them, and only the task of a device takes
and frees. From it, what every run keeps: the office is `Kept`, what the producer holds is what it is about to send (`Drafted`), and
a task in its delay still holds its message.
-/

namespace Rtu

/-- The device whose task a step lets go on. -/
def DepotLabel.task : DepotLabel → Option Device
  | .axis ax _ _ => some ax.device
  | .lift _ => some .lift
  | _ => none

/-- What a step does to the messages. -/
inductive Depot.Turn (d : Depot) (l : DepotLabel) (d' : Depot) : Prop where
  /-- nothing: the thread may go on, but not past a send, and a task that could go on waits for a message -/
  | still (hpost : d'.post = d.post) (hdelay : ∀ dev, d'.InDelay dev ↔ d.InDelay dev)
      (htcp : d'.tcp = d.tcp ∨ ∃ i, d'.tcp = d.tcp.step i ∧ ∀ e, d.tcp.effect i = some e → e.message = none)
      (hidle : ∀ dev, l.task = some dev → ¬d.InDelay dev ∧ d.post.taken dev = none ∧ (d.post.queue dev).items = [])
  /-- a task goes on after its delay -/
  | resume (dev : Device) (htask : l.task = some dev) (hpost : d'.post = d.post) (hbusy : d.InDelay dev) (hdone : ¬d'.InDelay dev)
      (hdelay : ∀ dev', dev' ≠ dev → (d'.InDelay dev' ↔ d.InDelay dev')) (htcp : d'.tcp = d.tcp)
  | free (dev : Device) (htask : l.task = some dev) (hpost : d.post.free dev = some d'.post) (hidle : ¬d.InDelay dev)
      (hdelay : ∀ dev', d'.InDelay dev' ↔ d.InDelay dev') (htcp : d'.tcp = d.tcp)
  | take (dev : Device) (b : Option Message) (htask : l.task = some dev) (hpost : d.post.take dev = some (b, d'.post))
      (hidle : ¬d.InDelay dev) (hdelay : ∀ dev', dev' ≠ dev → (d'.InDelay dev' ↔ d.InDelay dev')) (htcp : d'.tcp = d.tcp)
  | alloc (dev : Device) (msg : Message) (addr : Nat) (e : Effect) (htask : l.task = none)
      (heffect : d.tcp.effect .run = some e) (hmsg : e.message = some (dev, msg)) (hpost : d.post.alloc dev addr msg = some d'.post)
      (hdelay : ∀ dev', d'.InDelay dev' ↔ d.InDelay dev') (htcp : d'.tcp = d.tcp)
  | send (i : TcpInput) (htask : l.task = none) (hpost : d.post.send = some d'.post)
      (hdelay : ∀ dev', d'.InDelay dev' ↔ d.InDelay dev') (htcp : d'.tcp = d.tcp.step i)

namespace DepotAux

/-- The axes other than that of a device are not in the way. -/
theorem inDelay_setAxis_ne (d : Depot) {ax : Axis} {dev : Device} (t : AxisTasks) (h : dev ≠ ax.device) :
    (d.setAxis ax t).InDelay dev ↔ d.InDelay dev := by
  cases ax <;> cases dev <;> first | rfl | exact absurd rfl h

theorem inDelay_setAxis_self (d : Depot) (ax : Axis) (t : AxisTasks) : (d.setAxis ax t).InDelay ax.device ↔ t.cmd ≠ none := by
  cases ax <;> rfl

theorem inDelay_axis (d : Depot) (ax : Axis) : d.InDelay ax.device ↔ (d.axis ax).cmd ≠ none := by
  cases ax <;> rfl

@[simp] theorem setAxis_post (d : Depot) (ax : Axis) (t : AxisTasks) : (d.setAxis ax t).post = d.post := by
  cases ax <;> rfl

@[simp] theorem setAxis_tcp (d : Depot) (ax : Axis) (t : AxisTasks) : (d.setAxis ax t).tcp = d.tcp := by
  cases ax <;> rfl

/-- A task of an axis that goes on, but not the command task. -/
theorem inDelay_setAxis (d : Depot) (ax : Axis) (t : AxisTasks) (h : t.cmd = (d.axis ax).cmd) (dev : Device) :
    (d.setAxis ax t).InDelay dev ↔ d.InDelay dev := by
  by_cases hdev : dev = ax.device
  · subst hdev
    rw [inDelay_setAxis_self, inDelay_axis, h]
  · exact inDelay_setAxis_ne d t hdev

/-- A step of an axis that neither its command task nor the thread takes. -/
theorem turn_setAxis (d : Depot) {l : DepotLabel} (hl : l.task = none) (ax : Axis) (t : AxisTasks)
    (h : t.cmd = (d.axis ax).cmd) : d.Turn l (d.setAxis ax t) :=
  .still (setAxis_post d ax t) (inDelay_setAxis d ax t h) (Or.inl (setAxis_tcp d ax t)) (by simp [hl])

end DepotAux

open DepotAux

/-- A device that has nothing to free and nothing to take holds nothing, and its queue is empty. -/
theorem idle_of_none {p : DeviceOffice} {dev : Device} (hfree : p.free dev = none) (htake : p.take dev = none) :
    p.taken dev = none ∧ (p.queue dev).items = [] := by
  have htaken : p.taken dev = none := by
    cases h : p.taken dev with
    | none => rfl
    | some a => simp [Post.Office.free, h] at hfree
  refine ⟨htaken, ?_⟩
  cases h : (p.queue dev).items with
  | nil => rfl
  | cons a items =>
    obtain ⟨q, hq, -⟩ := Fifo.Queue.receive_of_items h
    simp [Post.Office.take, htaken, hq] at htake

/-- A step of the tasks of an axis. -/
theorem turn_axisStep (d : Depot) (ax : Axis) (heap : MotPapMsg) (raw : UInt16) :
    d.Turn (.axis ax heap raw) (d.axisStep ax heap raw) := by
  unfold Depot.axisStep
  by_cases hbusy : (d.axis ax).cmd ≠ none
  · rw [if_pos hbusy]
    refine .resume ax.device rfl (setAxis_post d ax _) ((inDelay_axis d ax).mpr hbusy) ?_ ?_ (setAxis_tcp d ax _)
    · rw [inDelay_setAxis_self, not_not]
      unfold AxisTasks.cmdResume
      split
      · assumption
      · rfl
    · intro dev hdev
      exact inDelay_setAxis_ne d _ hdev
  · rw [if_neg hbusy]
    have hidle : ¬d.InDelay ax.device := fun h => hbusy ((inDelay_axis d ax).mp h)
    cases hfree : d.post.free ax.device with
    | some post => exact .free ax.device rfl hfree hidle (fun dev => by cases dev <;> rfl) rfl
    | none =>
      cases htake : d.post.take ax.device with
      | some x =>
        obtain ⟨b, post⟩ := x
        refine .take ax.device b rfl (by rw [htake, setAxis_post]) hidle ?_ (setAxis_tcp _ ax _)
        intro dev hdev
        rw [inDelay_setAxis_ne _ _ hdev]
        cases dev <;> rfl
      | none =>
        refine .still rfl (fun _ => Iff.rfl) (Or.inl rfl) ?_
        intro dev hdev
        cases hdev
        exact ⟨hidle, idle_of_none hfree htake⟩

/-- A step of the task of the lift. -/
theorem turn_liftStep (d : Depot) (heap : LiftType) : d.Turn (.lift heap) (d.liftStep heap) := by
  have hother : ∀ (d' : Depot), d'.arm = d.arm → d'.pole = d.pole → ∀ dev, dev ≠ .lift → (d'.InDelay dev ↔ d.InDelay dev) := by
    intro d' harm hpole dev hdev
    cases dev with
    | arm => simp only [Depot.InDelay, harm]
    | pole => simp only [Depot.InDelay, hpole]
    | lift => exact absurd rfl hdev
  unfold Depot.liftStep
  cases hdelay : d.liftDelay with
  | some dir =>
    exact .resume .lift rfl rfl (by simp [Depot.InDelay, hdelay]) (by simp [Depot.InDelay]) (hother _ rfl rfl) rfl
  | none =>
    have hidle : ¬d.InDelay .lift := by simp [Depot.InDelay, hdelay]
    cases hfree : d.post.free .lift with
    | some post => exact .free .lift rfl hfree hidle (fun dev => by cases dev <;> simp [Depot.InDelay, hdelay]) rfl
    | none =>
      cases htake : d.post.take .lift with
      | some x =>
        obtain ⟨b, post⟩ := x
        exact .take .lift b rfl htake hidle (hother _ rfl rfl) rfl
      | none =>
        refine .still rfl (fun _ => Iff.rfl) (Or.inl rfl) ?_
        intro dev hdev
        cases hdev
        exact ⟨hidle, idle_of_none hfree htake⟩

/-- A call of the thread that sends nothing. -/
theorem perform_eq (d : Depot) {e : Effect} (dev : Device) :
    (d.perform e).post = d.post ∧ ((d.perform e).InDelay dev ↔ d.InDelay dev) := by
  cases e <;> cases dev <;> exact ⟨rfl, Iff.rfl⟩

/-- A step of the thread. -/
theorem turn_tcpStep (d : Depot) (i : TcpInput) : d.Turn (.tcp i) (d.tcpStep i) := by
  have hstuck : d.Turn (.tcp i) d := .still rfl (fun _ => Iff.rfl) (Or.inl rfl) (by simp [DepotLabel.task])
  unfold Depot.tcpStep
  cases he : d.tcp.effect i with
  | none =>
    refine .still rfl (fun dev => by cases dev <;> rfl) (Or.inr ⟨i, rfl, ?_⟩) (by simp [DepotLabel.task])
    intro e h
    rw [he] at h
    cases h
  | some e =>
    cases hmsg : e.message with
    | none =>
      simp only [hmsg]
      refine .still (perform_eq d .arm).1 (fun dev => ?_) (Or.inr ⟨i, rfl, ?_⟩) (by simp [DepotLabel.task])
      · rw [← (perform_eq d (e := e) dev).2]
        cases dev <;> rfl
      · intro e' h
        rw [he] at h
        cases h
        exact hmsg
    | some m =>
      cases hsend : d.post.send with
      | none => simpa only [hmsg, hsend] using hstuck
      | some post =>
        simp only [hmsg]
        exact .send i rfl hsend (fun dev => by cases dev <;> rfl) rfl

/-- An allocation. -/
theorem turn_malloc (d : Depot) (addr : Nat) : d.Turn (.malloc addr) (d.malloc addr) := by
  have hstuck : d.Turn (.malloc addr) d := .still rfl (fun _ => Iff.rfl) (Or.inl rfl) (by simp [DepotLabel.task])
  unfold Depot.malloc
  cases he : (d.tcp.effect .run).bind Effect.message with
  | none => exact hstuck
  | some m =>
    obtain ⟨dev, msg⟩ := m
    obtain ⟨e, heffect, hmsg⟩ := Option.bind_eq_some_iff.mp he
    cases halloc : d.post.alloc dev addr msg with
    | none => simpa only [halloc] using hstuck
    | some post =>
      simp only [halloc]
      exact .alloc dev msg addr e rfl heffect hmsg halloc (fun dev => by cases dev <;> rfl) rfl

/-- What any step does to the messages. -/
theorem turn (d : Depot) (l : DepotLabel) : d.Turn l (d.step l) := by
  cases l with
  | tcp i => exact turn_tcpStep d i
  | malloc addr => exact turn_malloc d addr
  | axis ax heap raw => exact turn_axisStep d ax heap raw
  | lift heap => exact turn_liftStep d heap
  | supervise ax raw =>
    have hcmd : ((d.axis ax).supervise raw d.stallDetection).cmd = (d.axis ax).cmd := by
      unfold AxisTasks.supervise
      split <;> rfl
    have hset := inDelay_setAxis d ax _ hcmd
    show d.Turn _ (d.supervise ax raw)
    unfold Depot.supervise
    dsimp only
    split
    · refine .still (setAxis_post d ax _) (fun dev => ?_) (Or.inl (setAxis_tcp d ax _)) (by simp [DepotLabel.task])
      rw [← hset dev]
      cases dev <;> rfl
    · exact turn_setAxis d rfl ax _ hcmd
  | supResume ax =>
    refine turn_setAxis d rfl ax _ ?_
    unfold AxisTasks.supResume
    split <;> rfl
  | status ax raw => exact turn_setAxis d rfl ax _ rfl

/-! ## The invariant -/

/-- What the producer holds is the message that its next call sends. -/
def Depot.Drafted (d : Depot) : Prop :=
  ∀ dev a, d.post.hand = some (dev, a) →
    ∃ e msg n, d.tcp.effect .run = some e ∧ e.message = some (dev, msg) ∧ d.post.heap a = some (msg, n)

/-- The office is kept, the producer holds what it is about to send, and a task in its delay holds its message. -/
structure Depot.Invariant (d : Depot) : Prop where
  kept : d.post.Kept
  drafted : d.Drafted
  busy : ∀ dev, d.InDelay dev → d.post.taken dev ≠ none

theorem invariant_boot (stack : HMICmdVar) (rate : UInt32) : (Depot.boot stack rate).Invariant where
  kept := Post.kept_empty
  drafted := by
    intro dev a h
    cases h
  busy := by
    intro dev h
    cases dev <;> exact absurd rfl h

/-- A step of the thread that makes its call was given a turn; one that is given something else does nothing there. -/
theorem effect_run {s : TcpState} {i : TcpInput} {e : Effect} (h : s.effect .run = some e) :
    s.effect i = some e ∨ s.step i = s := by
  obtain ⟨pc, statics, hmiCmd, status⟩ := s
  cases pc with
  | trigger pending | stop pending =>
    cases pending with
    | nil => cases h
    | cons e' pending => cases i <;> first | exact Or.inl h | exact Or.inr rfl
  | accept | recv | data | write | next | delete | close => cases h

/-- The office after a step. -/
theorem Depot.Turn.kept {d d' : Depot} {l : DepotLabel} (h : d.Turn l d') (hkept : d.post.Kept) : d'.post.Kept := by
  cases h with
  | still hpost _ _ _ | resume _ _ hpost _ _ _ _ =>
    rw [hpost]
    exact hkept
  | free _ _ hpost _ _ _ => exact hkept.free hpost
  | take _ _ _ hpost _ _ _ => exact hkept.take hpost
  | alloc _ _ _ _ _ _ _ hpost _ _ => exact hkept.alloc hpost
  | send _ _ hpost _ _ => exact hkept.send hpost

/-- What the producer holds after a step. -/
theorem Depot.Turn.drafted {d d' : Depot} {l : DepotLabel} (h : d.Turn l d') (hkept : d.post.Kept) (hdraft : d.Drafted) :
    d'.Drafted := by
  cases h with
  | still hpost _ htcp _ =>
    intro dev a hhand
    rw [hpost] at hhand ⊢
    obtain ⟨e, msg, n, he, hmsg, hheap⟩ := hdraft dev a hhand
    -- the thread does not go past the send that it holds a message for
    have hsame : d'.tcp = d.tcp := by
      rcases htcp with htcp | ⟨i, htcp, hnone⟩
      · exact htcp
      · rcases effect_run he with hi | hi
        · rw [hnone e hi] at hmsg
          cases hmsg
        · exact htcp.trans hi
    exact ⟨e, msg, n, hsame ▸ he, hmsg, hheap⟩
  | resume _ _ hpost _ _ _ htcp =>
    intro dev a hhand
    rw [hpost] at hhand ⊢
    rw [htcp]
    exact hdraft dev a hhand
  | free dev' _ hpost _ _ htcp =>
    intro dev a hhand
    rw [htcp]
    have hheld := Post.heap_free hkept hpost (x := none) (a := a)
    obtain ⟨a', -, heq⟩ := Post.free_eq_some hpost
    have hhand₀ : d.post.hand = some (dev, a) := by rw [heq] at hhand; exact hhand
    obtain ⟨e, msg, n, he, hmsg, hheap⟩ := hdraft dev a hhand₀
    exact ⟨e, msg, n, he, hmsg, (hheld (by simp [Post.Office.held, hhand])).trans hheap⟩
  | take dev' b _ hpost _ _ htcp =>
    intro dev a hhand
    rw [htcp]
    obtain ⟨a', q, -, -, -, heq⟩ := Post.take_eq_some hpost
    rw [heq] at hhand ⊢
    exact hdraft dev a hhand
  | alloc dev' msg addr e _ heffect hmsg hpost _ htcp =>
    intro dev a hhand
    rw [htcp]
    obtain ⟨-, -, heq⟩ := Post.alloc_eq_some hpost
    rw [heq] at hhand ⊢
    cases hhand
    exact ⟨e, msg, _, heffect, hmsg, Function.update_self ..⟩
  | send _ _ hpost _ _ =>
    intro dev a hhand
    obtain ⟨dev', a', q, -, -, heq⟩ := Post.send_eq_some hpost
    rw [heq] at hhand
    cases hhand

/-- A task in its delay, after a step. -/
theorem Depot.Turn.busy {d d' : Depot} {l : DepotLabel} (h : d.Turn l d') (hbusy : ∀ dev, d.InDelay dev → d.post.taken dev ≠ none) :
    ∀ dev, d'.InDelay dev → d'.post.taken dev ≠ none := by
  cases h with
  | still hpost hdelay _ _ =>
    intro dev hdev
    rw [hpost]
    exact hbusy dev ((hdelay dev).mp hdev)
  | resume dev' _ hpost _ hdone hdelay _ =>
    intro dev hdev
    rw [hpost]
    by_cases hne : dev = dev'
    · subst hne
      exact absurd hdev hdone
    · exact hbusy dev ((hdelay dev hne).mp hdev)
  | free dev' _ hpost hidle hdelay _ =>
    intro dev hdev
    obtain ⟨a, -, heq⟩ := Post.free_eq_some hpost
    have hne : dev ≠ dev' := by
      rintro rfl
      exact hidle ((hdelay dev).mp hdev)
    rw [heq]
    simpa [hne] using hbusy dev ((hdelay dev).mp hdev)
  | take dev' b _ hpost _ hdelay _ =>
    intro dev hdev
    obtain ⟨a, q, -, -, -, heq⟩ := Post.take_eq_some hpost
    rw [heq]
    by_cases hne : dev = dev'
    · subst hne
      simp
    · simpa [hne] using hbusy dev ((hdelay dev hne).mp hdev)
  | alloc _ _ _ _ _ _ _ hpost hdelay _ =>
    intro dev hdev
    obtain ⟨-, -, heq⟩ := Post.alloc_eq_some hpost
    rw [heq]
    exact hbusy dev ((hdelay dev).mp hdev)
  | send _ _ hpost hdelay _ =>
    intro dev hdev
    obtain ⟨dev', a', q, -, -, heq⟩ := Post.send_eq_some hpost
    rw [heq]
    exact hbusy dev ((hdelay dev).mp hdev)

/-- Every step keeps the invariant. -/
theorem invariant_step {d : Depot} (h : d.Invariant) (l : DepotLabel) : (d.step l).Invariant :=
  ⟨(turn d l).kept h.kept, (turn d l).drafted h.kept h.drafted, (turn d l).busy h.busy⟩

/-! ## The controller without its heap -/

/-- What the queues stand for does not change with what is held elsewhere. -/
theorem controller_congr {d : Depot} {post : DeviceOffice} (hqueue : post.queue = d.post.queue)
    (hheap : ∀ dev, ∀ a ∈ (d.post.queue dev).items, post.heap a = d.post.heap a) : { d with post }.controller = d.controller := by
  have hread : ∀ (β : Type) (f : Option Message → β) (dev : Device),
      (post.queue dev).map (fun a => f ((post.heap a).map Prod.fst)) =
        (d.post.queue dev).map fun a => f ((d.post.heap a).map Prod.fst) := by
    intro β f dev
    rw [hqueue]
    refine Fifo.Queue.map_congr fun a ha => ?_
    rw [hheap dev a ha]
  simp only [Depot.controller, hread]

/-- What a free leaves in the queues. -/
theorem controller_free {d : Depot} (hkept : d.post.Kept) {dev : Device} {post : DeviceOffice} (h : d.post.free dev = some post) :
    { d with post }.controller = d.controller := by
  have hqueue : post.queue = d.post.queue := by
    obtain ⟨a, -, heq⟩ := Post.free_eq_some h
    rw [heq]
  refine controller_congr hqueue fun dev' a ha => ?_
  refine Post.heap_free hkept h (x := some dev') (List.mem_append_right _ ?_)
  rw [hqueue]
  exact ha

/-- What an allocation leaves in the queues. -/
theorem controller_malloc {d : Depot} (hkept : d.post.Kept) {dev : Device} {addr : Nat} {msg : Message} {post : DeviceOffice}
    (h : d.post.alloc dev addr msg = some post) : { d with post }.controller = d.controller := by
  have hqueue : post.queue = d.post.queue := by
    obtain ⟨-, -, heq⟩ := Post.alloc_eq_some h
    rw [heq]
  refine controller_congr hqueue fun dev' a ha => ?_
  exact Post.heap_alloc hkept h (x := some dev') (List.mem_append_right _ ha)

/-- A task of an axis that takes the address of a message takes the message. -/
theorem dequeue_controller {d : Depot} {ax : Axis} {b : Option Message} {post : DeviceOffice}
    (h : d.post.take ax.device = some (b, post)) :
    d.controller.dequeue ax = some (Message.asMotPap b, { d with post }.controller) := by
  obtain ⟨a, q, -, hreceive, rfl, rfl⟩ := Post.take_eq_some h
  cases ax with
  | arm =>
    show ((d.post.queue .arm).map _).receive.map _ = _
    rw [Fifo.Queue.receive_map, show (d.post.queue .arm).receive = some (a, q) from hreceive]
    rfl
  | pole =>
    show ((d.post.queue .pole).map _).receive.map _ = _
    rw [Fifo.Queue.receive_map, show (d.post.queue .pole).receive = some (a, q) from hreceive]
    rfl

theorem controller_setAxis (d : Depot) (ax : Axis) (t : AxisTasks) : (d.setAxis ax t).controller = d.controller.setAxis ax t := by
  cases ax <;> rfl

theorem axis_controller (d : Depot) (ax : Axis) : d.controller.axis ax = d.axis ax := by
  cases ax <;> rfl

/-- A step of the tasks of an axis, seen without the heap. -/
theorem controller_axisStep {d : Depot} (hkept : d.post.Kept) (ax : Axis) (heap : MotPapMsg) (raw : UInt16) :
    (d.axisStep ax heap raw).controller = d.controller ∨ ∃ l, (d.axisStep ax heap raw).controller = d.controller.step l := by
  unfold Depot.axisStep
  by_cases hbusy : (d.axis ax).cmd ≠ none
  · rw [if_pos hbusy]
    refine Or.inr ⟨.cmdResume ax, ?_⟩
    rw [controller_setAxis, ← axis_controller]
    rfl
  · rw [if_neg hbusy]
    cases hfree : d.post.free ax.device with
    | some post => exact Or.inl (controller_free hkept hfree)
    | none =>
      cases htake : d.post.take ax.device with
      | none => exact Or.inl rfl
      | some x =>
        obtain ⟨b, post⟩ := x
        refine Or.inr ⟨.receive ax heap raw, ?_⟩
        have hidle : (d.controller.axis ax).cmd = none := by
          rw [axis_controller]
          exact not_not.mp hbusy
        rw [receive_of_dequeue hidle (dequeue_controller htake), axis_controller]
        exact controller_setAxis { d with post } ax _

/-- A step of the task of the lift, seen without the heap. -/
theorem controller_liftStep {d : Depot} (hkept : d.post.Kept) (heap : LiftType) :
    (d.liftStep heap).controller = d.controller ∨ ∃ l, (d.liftStep heap).controller = d.controller.step l := by
  unfold Depot.liftStep
  cases hdelay : d.liftDelay with
  | some dir =>
    refine Or.inr ⟨.liftResume, ?_⟩
    simp [Controller.step, Depot.controller, hdelay]
  | none =>
    cases hfree : d.post.free .lift with
    | some post => exact Or.inl (by simpa only [hdelay] using controller_free hkept hfree)
    | none =>
      cases htake : d.post.take .lift with
      | none => exact Or.inl (by simp [Depot.controller, hdelay])
      | some x =>
        obtain ⟨b, post⟩ := x
        refine Or.inr ⟨.liftReceive heap, ?_⟩
        obtain ⟨a, q, -, hreceive, rfl, rfl⟩ := Post.take_eq_some htake
        show _ = d.controller.liftReceive heap
        unfold Controller.liftReceive
        rw [if_pos (show d.controller.liftDelay = none from hdelay)]
        have hlift : d.controller.liftQueue.receive =
            some (Message.asLift ((d.post.heap a).map Prod.fst),
              q.map fun a => Message.asLift ((d.post.heap a).map Prod.fst)) := by
          show ((d.post.queue .lift).map _).receive = _
          rw [Fifo.Queue.receive_map, hreceive]
          rfl
        rw [hlift]
        simp [Depot.controller]

/-- A send of the address of a message sends the message. -/
theorem perform_controller {d : Depot} {e : Effect} {dev : Device} {msg : Message} {a n : Nat} {post : DeviceOffice}
    (hmsg : e.message = some (dev, msg)) (hhand : d.post.hand = some (dev, a)) (hheap : d.post.heap a = some (msg, n))
    (h : d.post.send = some post) : d.controller.perform e = some { d with post }.controller := by
  obtain ⟨dev', a', q, hhand', hsend, rfl⟩ := Post.send_eq_some h
  rw [hhand] at hhand'
  cases hhand'
  cases e with
  | armQueueSend b =>
    cases hmsg
    have hb : b = Message.asMotPap ((d.post.heap a).map Prod.fst) := by
      rw [hheap]
      rfl
    show (((d.post.queue .arm).map fun a => Message.asMotPap ((d.post.heap a).map Prod.fst)).send b).map _ = _
    rw [hb, Fifo.Queue.send_map, hsend]
    rfl
  | poleQueueSend b =>
    cases hmsg
    have hb : b = Message.asMotPap ((d.post.heap a).map Prod.fst) := by
      rw [hheap]
      rfl
    show (((d.post.queue .pole).map fun a => Message.asMotPap ((d.post.heap a).map Prod.fst)).send b).map _ = _
    rw [hb, Fifo.Queue.send_map, hsend]
    rfl
  | liftQueueSend b =>
    cases hmsg
    have hb : b = Message.asLift ((d.post.heap a).map Prod.fst) := by
      rw [hheap]
      rfl
    show (((d.post.queue .lift).map fun a => Message.asLift ((d.post.heap a).map Prod.fst)).send b).map _ = _
    rw [hb, Fifo.Queue.send_map, hsend]
    rfl
  | setStallDetection _ | armSetOffset _ | poleSetOffset _ | relayMainPwr _ => cases hmsg

/-- A step of the thread, seen without the heap. -/
theorem controller_tcpStep {d : Depot} (hdraft : d.Drafted) (i : TcpInput) :
    (d.tcpStep i).controller = d.controller ∨ ∃ l, (d.tcpStep i).controller = d.controller.step l := by
  unfold Depot.tcpStep
  cases he : d.tcp.effect i with
  | none =>
    refine Or.inr ⟨.tcp i, ?_⟩
    exact (@step_tcp_quiet d.controller i he).symm
  | some e =>
    have hperform : ∀ c, d.controller.perform e = some c → d.controller.step (.tcp i) = { c with tcp := d.tcp.step i } :=
      fun c hc => @step_tcp_perform d.controller c i e he hc
    cases hmsg : e.message with
    | none =>
      simp only [hmsg]
      refine Or.inr ⟨.tcp i, ?_⟩
      have hc : d.controller.perform e = some (d.perform e).controller := by
        cases e <;> first | rfl | cases hmsg
      rw [hperform _ hc]
      cases e <;> rfl
    | some m =>
      simp only [hmsg]
      cases hsend : d.post.send with
      | none => exact Or.inl rfl
      | some post =>
        obtain ⟨dev, a, q, hhand, -, -⟩ := Post.send_eq_some hsend
        obtain ⟨e', msg, n, he', hmsg', hheap⟩ := hdraft dev a hhand
        have heq : e' = e := by
          obtain ⟨es, hes⟩ := TcpState.pending_of_effect he
          exact Option.some_inj.mp (he'.symm.trans (TcpState.run_of_pending hes).1)
        subst heq
        refine Or.inr ⟨.tcp i, ?_⟩
        rw [hperform _ (perform_controller hmsg' hhand hheap hsend)]
        rfl

/-- A step of a supervisor, seen without the heap. -/
theorem controller_supervise (d : Depot) (ax : Axis) (raw : UInt16) :
    (d.supervise ax raw).controller = d.controller.supervise ax raw := by
  unfold Depot.supervise Controller.supervise
  dsimp only
  rw [axis_controller, apply_ite Depot.controller, controller_setAxis]
  congr 1
  cases ax <;> rfl

/-- A step, seen without the heap, is a step of the controller or none. -/
theorem controller_step {d : Depot} (h : d.Invariant) (l : DepotLabel) :
    (d.step l).controller = d.controller ∨ ∃ l', (d.step l).controller = d.controller.step l' := by
  cases l with
  | tcp i => exact controller_tcpStep h.drafted i
  | malloc addr =>
    refine Or.inl ?_
    show (d.malloc addr).controller = _
    unfold Depot.malloc
    split
    · split
      · rename_i halloc
        exact controller_malloc h.kept halloc
      · rfl
    · rfl
  | axis ax heap raw => exact controller_axisStep h.kept ax heap raw
  | lift heap => exact controller_liftStep h.kept heap
  | supervise ax raw => exact Or.inr ⟨.supervise ax raw, controller_supervise d ax raw⟩
  | supResume ax =>
    refine Or.inr ⟨.supResume ax, ?_⟩
    rw [Depot.step, controller_setAxis, ← axis_controller]
    rfl
  | status ax raw =>
    refine Or.inr ⟨.status ax raw, ?_⟩
    rw [Depot.step, controller_setAxis, ← axis_controller]
    rfl

/-- A run, seen without the heap, is a run of the controller: what holds in every state of every run of `Controller` holds in every
state of every run here. -/
theorem depot_refines_controller (stack : HMICmdVar) (rate : UInt32) (sched : List DepotLabel) :
    ∃ sched', (Runs.run Depot.step (Depot.boot stack rate) sched).controller =
      Runs.run Controller.step (Controller.boot stack rate) sched' := by
  refine Runs.run_refines Depot.controller Depot.Invariant (fun _ l h => invariant_step h l) ?_ (invariant_boot stack rate) sched
  intro d l h
  rcases controller_step h l with hstill | ⟨l', hstep⟩
  · exact ⟨[], hstill⟩
  · exact ⟨[l'], hstep⟩

/-! ## How far a task has come -/

instance : ∀ (d : Depot) (dev : Device), Decidable (d.InDelay dev)
  | d, .arm => inferInstanceAs (Decidable (d.arm.cmd ≠ none))
  | d, .pole => inferInstanceAs (Decidable (d.pole.cmd ≠ none))
  | d, .lift => inferInstanceAs (Decidable (d.liftDelay ≠ none))

/-- How far the task of a device has come with its messages, in steps: three for each message freed; one when it waits in the
middle of a message, and two when it has handled it. -/
def Depot.progress (d : Depot) (dev : Device) : Nat :=
  3 * (d.post.freed dev).length + if d.InDelay dev then 1 else if d.post.taken dev = none then 0 else 2

theorem progress_congr {d d' : Depot} {dev : Device} (hfreed : d'.post.freed dev = d.post.freed dev)
    (htaken : d'.post.taken dev = d.post.taken dev) (hdelay : d'.InDelay dev ↔ d.InDelay dev) : d'.progress dev = d.progress dev := by
  unfold Depot.progress
  rw [hfreed, htaken, if_congr hdelay rfl rfl]

/-- The record after a step. -/
theorem Depot.Turn.extends {d d' : Depot} {l : DepotLabel} (h : d.Turn l d') : d.post.Extends d'.post := by
  cases h with
  | still hpost _ _ _ | resume _ _ hpost _ _ _ _ =>
    rw [hpost]
    exact .refl _
  | free _ _ hpost _ _ _ => exact Post.extends_free hpost
  | take _ _ _ hpost _ _ _ => exact Post.extends_take hpost
  | alloc _ _ _ _ _ _ _ hpost _ _ => exact Post.extends_alloc hpost
  | send _ _ hpost _ _ => exact Post.extends_send hpost

/-- A step of a task that comes further. -/
theorem progress_own {d d' : Depot} {l : DepotLabel} {dev : Device} (hlt : d.progress dev < d'.progress dev) :
    d.progress dev ≤ d'.progress dev ∧
      (l.task = some dev → d.progress dev < d'.progress dev ∨ 3 * (d.post.sent dev).length ≤ d.progress dev) :=
  ⟨Nat.le_of_lt hlt, fun _ => Or.inl hlt⟩

/-- A step of another task. -/
theorem progress_other {d d' : Depot} {l : DepotLabel} {dev : Device} (htask : l.task ≠ some dev)
    (hfreed : d'.post.freed dev = d.post.freed dev) (htaken : d'.post.taken dev = d.post.taken dev)
    (hdelay : d'.InDelay dev ↔ d.InDelay dev) :
    d.progress dev ≤ d'.progress dev ∧
      (l.task = some dev → d.progress dev < d'.progress dev ∨ 3 * (d.post.sent dev).length ≤ d.progress dev) :=
  ⟨Nat.le_of_eq (progress_congr hfreed htaken hdelay).symm, fun h => absurd h htask⟩

/-- A step takes no task back, and the task that goes on comes further unless it has freed all that was sent to it. -/
theorem Depot.Turn.progress {d d' : Depot} {l : DepotLabel} (h : d.Turn l d') (hinv : d.Invariant) (dev : Device) :
    d.progress dev ≤ d'.progress dev ∧
      (l.task = some dev → d.progress dev < d'.progress dev ∨ 3 * (d.post.sent dev).length ≤ d.progress dev) := by
  have hother : ∀ {dev'}, l.task = some dev' → dev ≠ dev' → l.task ≠ some dev := by
    intro dev' htask hne h
    exact hne (Option.some_inj.mp (h.symm.trans htask))
  cases h with
  | still hpost hdelay _ hidle =>
    refine ⟨Nat.le_of_eq (progress_congr (by rw [hpost]) (by rw [hpost]) (hdelay dev)).symm, fun htask => Or.inr ?_⟩
    obtain ⟨-, htaken, hqueue⟩ := hidle dev htask
    rw [hinv.kept.length_sent_of_idle htaken hqueue]
    exact Nat.le_add_right _ _
  | resume dev' htask hpost hbusy hdone hdelay _ =>
    by_cases hne : dev = dev'
    · subst hne
      have htaken := hinv.busy dev hbusy
      refine progress_own ?_
      unfold Depot.progress
      rw [hpost, if_pos hbusy, if_neg hdone, if_neg htaken]
      omega
    · exact progress_other (hother htask hne) (by rw [hpost]) (by rw [hpost]) (hdelay dev hne)
  | free dev' htask hpost hidle hdelay _ =>
    obtain ⟨a, htaken, heq⟩ := Post.free_eq_some hpost
    by_cases hne : dev = dev'
    · subst hne
      obtain ⟨b, hb⟩ := Post.Placed.exists_heap hinv.kept.placed (x := some dev) (a := a)
        (by simp [Post.Office.held, Post.Office.charge, htaken])
      refine progress_own ?_
      unfold Depot.progress
      rw [if_neg hidle, if_neg (by rw [htaken]; simp)]
      simp [heq, hb]
      omega
    · exact progress_other (hother htask hne) (by simp [heq, hne]) (by simp [heq, hne]) (hdelay dev)
  | take dev' b htask hpost hidle hdelay _ =>
    obtain ⟨a, q, htaken, -, -, heq⟩ := Post.take_eq_some hpost
    by_cases hne : dev = dev'
    · subst hne
      refine progress_own ?_
      unfold Depot.progress
      rw [if_neg hidle, if_pos htaken]
      simp only [heq, Function.update_self]
      split <;> simp
    · exact progress_other (hother htask hne) (by simp [heq]) (by simp [heq, hne]) (hdelay dev hne)
  | alloc _ _ _ _ htask _ _ hpost hdelay _ =>
    obtain ⟨-, -, heq⟩ := Post.alloc_eq_some hpost
    exact progress_other (by simp [htask]) (by rw [heq]) (by rw [heq]) (hdelay dev)
  | send _ htask hpost hdelay _ =>
    obtain ⟨_, _, _, -, -, heq⟩ := Post.send_eq_some hpost
    exact progress_other (by simp [htask]) (by rw [heq]) (by rw [heq]) (hdelay dev)

end Rtu

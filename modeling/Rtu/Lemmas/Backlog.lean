import Rtu.Lemmas.Controller
import Rtu.Lemmas.Dispatch
import Rtu.Panel

/-!
# What a step of the controller does to an axis

The messages on their way to an axis are those in its queue and those that the thread is about to send (`Controller.backlog`): a send
moves a message within them, so that they change only when a producer is called and when the command task takes one.
`AxisTurn` says once what a step does to the tasks of an axis and to the messages on their way to it. The command task can always empty
its queue (`exists_taken`), and leaves the rest alone while it does (`commandFrame_run`). What one call sends to the axes is of one type
(`exists_type_entered`).
-/

namespace Rtu

open Runs

/-- The message that a call sends to an axis, if it sends one. -/
def Effect.toAxis (ax : Axis) : Effect → Option MotPapBlock
  | .armQueueSend msg => if ax = .arm then some msg else none
  | .poleQueueSend msg => if ax = .pole then some msg else none
  | .setStallDetection _ | .armSetOffset _ | .poleSetOffset _ | .relayMainPwr _ | .liftQueueSend _ => none

/-- The messages that some calls send to an axis. -/
def toAxis (ax : Axis) (es : List Effect) : List MotPapBlock := es.filterMap (Effect.toAxis ax)

/-- The messages on their way to an axis, oldest first. -/
def Controller.backlog (c : Controller) (ax : Axis) : List MotPapBlock := c.queued ax ++ toAxis ax c.tcp.pc.phase.pending

/-- The calls of the producer that a step of the thread enters. -/
def TcpState.entered (s : TcpState) (i : TcpInput) : Option (List Effect) :=
  match s.pc.phase, (s.step i).pc.phase with
  | .receiving, .calling es | .receiving, .stopping es => some es
  | _, _ => none

/-- What a step does to the tasks of an axis and to the messages on their way to it. -/
inductive Controller.AxisTurn (c : Controller) (ax : Axis) (l : ControllerLabel) (c' : Controller) : Prop where
  /-- the thread or another task goes on -/
  | still (htasks : c'.axis ax = c.axis ax) (hbacklog : c'.backlog ax = c.backlog ax)
  /-- the thread sets the offset -/
  | offset (offset : UInt16) (htasks : c'.axis ax = { c.axis ax with me := { (c.axis ax).me with offset } })
      (hbacklog : c'.backlog ax = c.backlog ax)
  /-- the thread enters a producer -/
  | enter (i : TcpInput) (es : List Effect) (hl : l = .tcp i) (henter : c.tcp.entered i = some es)
      (htasks : c'.axis ax = c.axis ax) (hbacklog : c'.backlog ax = c.backlog ax ++ toAxis ax es)
  | receive (heap : MotPapMsg) (raw : UInt16) (b : MotPapBlock) (hidle : (c.axis ax).cmd = none)
      (htasks : c'.axis ax = (c.axis ax).receive (b.read heap) raw) (hbacklog : c.backlog ax = b :: c'.backlog ax)
  | cmdResume (htasks : c'.axis ax = (c.axis ax).cmdResume) (hbacklog : c'.backlog ax = c.backlog ax)
  | supervise (raw : UInt16) (htasks : c'.axis ax = (c.axis ax).supervise raw c.stallDetection)
      (hbacklog : c'.backlog ax = c.backlog ax)
  | supResume (hl : l = .supResume ax) (htasks : c'.axis ax = (c.axis ax).supResume) (hbacklog : c'.backlog ax = c.backlog ax)
  | status (raw : UInt16) (htasks : c'.axis ax = { c.axis ax with me := motPapReadCorrectedPos (c.axis ax).me raw })
      (hbacklog : c'.backlog ax = c.backlog ax)

@[simp] theorem toAxis_nil (ax : Axis) : toAxis ax [] = [] := rfl

theorem toAxis_cons (ax : Axis) (e : Effect) (es : List Effect) :
    toAxis ax (e :: es) = (e.toAxis ax).toList ++ toAxis ax es := by
  unfold toAxis
  cases h : e.toAxis ax <;> simp [h]

theorem toAxis_append (ax : Axis) (a b : List Effect) : toAxis ax (a ++ b) = toAxis ax a ++ toAxis ax b :=
  List.filterMap_append

theorem toAxis_settings (ax : Axis) (cmd : HMICmd) : toAxis ax (settings cmd) = [] := by
  unfold settings
  split <;> rfl

/-- A step of the thread that enters a producer makes no call yet. -/
theorem effect_of_entered {s : TcpState} {i : TcpInput} {es : List Effect} (h : s.entered i = some es) :
    s.effect i = none ∧ s.pc.phase.pending = [] ∧ (s.step i).pc.phase.pending = es := by
  have hphase := phase_step s i
  unfold TcpState.entered at h
  generalize s.effect i = e at hphase ⊢
  generalize s.pc.phase = ph at hphase h ⊢
  generalize (s.step i).pc.phase = ph' at hphase h ⊢
  cases hphase with
  | call es' | fail =>
    cases h
    exact ⟨rfl, rfl, rfl⟩
  | skip => cases ph <;> cases h
  | accept | trigger | triggered | stop | stopped | close => cases h

/-- A step of the thread that enters a producer puts its messages on their way, and leaves the tasks. -/
theorem enter_step (c : Controller) {i : TcpInput} {es : List Effect} (h : c.tcp.entered i = some es) (ax : Axis) :
    (c.step (.tcp i)).axis ax = c.axis ax ∧ (c.step (.tcp i)).backlog ax = c.backlog ax ++ toAxis ax es := by
  obtain ⟨heffect, hbefore, hafter⟩ := effect_of_entered h
  rw [step_tcp_quiet heffect]
  refine ⟨axis_congr rfl rfl ax, ?_⟩
  unfold Controller.backlog
  rw [hbefore, toAxis_nil, List.append_nil]
  exact congr (congrArg _ (queued_congr rfl rfl ax)) (congrArg (toAxis ax) hafter)

/-- The tasks of an axis have nothing to do with what is on its way. -/
@[simp] theorem backlog_setAxis (c : Controller) (ax ax' : Axis) (t : AxisTasks) :
    (c.setAxis ax t).backlog ax' = c.backlog ax' := by
  unfold Controller.backlog
  rw [queued_setAxis, tcp_setAxis]

namespace BacklogAux

/-- A step that leaves the thread and the queue of an axis leaves the messages on their way to it. -/
theorem backlog_congr {c c' : Controller} {ax : Axis} (hqueued : c'.queued ax = c.queued ax) (htcp : c'.tcp = c.tcp) :
    c'.backlog ax = c.backlog ax := by
  unfold Controller.backlog
  rw [hqueued, htcp]

/-- What a call of a producer does to an axis and its queue. -/
theorem perform_toAxis {c c' : Controller} {e : Effect} (h : c.perform e = some c') (ax : Axis) :
    c'.queued ax = c.queued ax ++ (e.toAxis ax).toList ∧
      (c'.axis ax = c.axis ax ∨ ∃ offset, c'.axis ax = { c.axis ax with me := { (c.axis ax).me with offset } }) := by
  cases e with
  | setStallDetection _ | relayMainPwr _ =>
    rw [← Option.some_inj.mp h]
    cases ax <;> exact ⟨(List.append_nil _).symm, Or.inl rfl⟩
  | armSetOffset offset =>
    rw [← Option.some_inj.mp h]
    cases ax
    · exact ⟨(List.append_nil _).symm, Or.inr ⟨offset, rfl⟩⟩
    · exact ⟨(List.append_nil _).symm, Or.inl rfl⟩
  | poleSetOffset offset =>
    rw [← Option.some_inj.mp h]
    cases ax
    · exact ⟨(List.append_nil _).symm, Or.inl rfl⟩
    · exact ⟨(List.append_nil _).symm, Or.inr ⟨offset, rfl⟩⟩
  | armQueueSend msg =>
    obtain ⟨q, hq, rfl⟩ := Option.map_eq_some_iff.mp h
    cases ax
    · exact ⟨Fifo.Queue.items_of_send hq, Or.inl rfl⟩
    · exact ⟨(List.append_nil _).symm, Or.inl rfl⟩
  | poleQueueSend msg =>
    obtain ⟨q, hq, rfl⟩ := Option.map_eq_some_iff.mp h
    cases ax
    · exact ⟨(List.append_nil _).symm, Or.inl rfl⟩
    · exact ⟨Fifo.Queue.items_of_send hq, Or.inl rfl⟩
  | liftQueueSend msg =>
    obtain ⟨q, -, rfl⟩ := Option.map_eq_some_iff.mp h
    cases ax <;> exact ⟨(List.append_nil _).symm, Or.inl rfl⟩

/-- A step of the thread that makes no call. -/
theorem axisTurn_quiet (c : Controller) {i : TcpInput} (heffect : c.tcp.effect i = none) (ax : Axis) :
    c.AxisTurn ax (.tcp i) { c with tcp := c.tcp.step i } := by
  cases henter : c.tcp.entered i with
  | some es =>
    obtain ⟨htasks, hbacklog⟩ := enter_step c henter ax
    rw [← step_tcp_quiet heffect]
    exact .enter i es rfl henter htasks hbacklog
  | none =>
    refine .still (axis_congr rfl rfl ax) ?_
    have hpending : (c.tcp.step i).pc.phase.pending = c.tcp.pc.phase.pending := by
      have hphase := phase_step c.tcp i
      unfold TcpState.entered at henter
      rw [heffect] at hphase
      generalize c.tcp.pc.phase = ph at hphase henter ⊢
      generalize (c.tcp.step i).pc.phase = ph' at hphase henter ⊢
      cases hphase with
      | call | fail => cases henter
      | _ => rfl
    unfold Controller.backlog
    exact congr (congrArg _ (queued_congr rfl rfl ax)) (congrArg (toAxis ax) hpending)

/-- A step of the thread that makes its call: the message moves from the calls that remain to the queue. -/
theorem axisTurn_perform {c c' : Controller} {i : TcpInput} {e : Effect} (heffect : c.tcp.effect i = some e)
    (hperform : c.perform e = some c') (ax : Axis) : c.AxisTurn ax (.tcp i) { c' with tcp := c.tcp.step i } := by
  obtain ⟨hqueued, htasks⟩ := perform_toAxis hperform ax
  have hphase := phase_step c.tcp i
  rw [heffect] at hphase
  have hbacklog : ({ c' with tcp := c.tcp.step i } : Controller).backlog ax = c.backlog ax := by
    have hmoved : c.tcp.pc.phase.pending = e :: (c.tcp.step i).pc.phase.pending := by
      generalize c.tcp.pc.phase = ph at hphase ⊢
      generalize (c.tcp.step i).pc.phase = ph' at hphase ⊢
      cases hphase <;> rfl
    unfold Controller.backlog
    rw [hmoved, toAxis_cons, ← List.append_assoc, ← hqueued]
    congr 1
  have haxis : ({ c' with tcp := c.tcp.step i } : Controller).axis ax = c'.axis ax := axis_congr rfl rfl ax
  rcases htasks with htasks | ⟨offset, htasks⟩
  · exact .still (haxis.trans htasks) hbacklog
  · exact .offset offset (haxis.trans htasks) hbacklog

/-- A step of the thread. -/
theorem axisTurn_tcp (c : Controller) (i : TcpInput) (ax : Axis) : c.AxisTurn ax (.tcp i) (c.tcpStep i) := by
  rcases tcpStep_cases c i with heq | ⟨heffect, heq⟩ | ⟨e, c', heffect, hperform, heq⟩ <;> rw [heq]
  · exact .still rfl rfl
  · exact axisTurn_quiet c heffect ax
  · exact axisTurn_perform heffect hperform ax

/-- A step of the tasks of one axis, for either axis. -/
theorem axisTurn_setAxis (c : Controller) {l : ControllerLabel} (ax ax' : Axis) (t : AxisTasks)
    (h : (c.setAxis ax t).axis ax = t → (c.setAxis ax t).backlog ax = c.backlog ax → c.AxisTurn ax l (c.setAxis ax t)) :
    c.AxisTurn ax' l (c.setAxis ax t) := by
  by_cases hax : ax' = ax
  · subst hax
    exact h (axis_setAxis_self c ax' t) (backlog_setAxis c ax' ax' t)
  · exact .still (axis_setAxis_ne c t hax) (backlog_setAxis c ax ax' t)

/-- A message taken. -/
theorem axisTurn_receive (c : Controller) (ax ax' : Axis) (heap : MotPapMsg) (raw : UInt16) :
    c.AxisTurn ax' (.receive ax heap raw) (c.step (.receive ax heap raw)) := by
  rcases receive_cases c ax heap raw with heq | ⟨b, c', hidle, hdeq, heq⟩ <;> rw [heq]
  · exact .still rfl rfl
  · obtain ⟨hqueued, hothers, haxis, htcp, -⟩ := dequeue_eq_some hdeq
    by_cases hax : ax' = ax
    · subst hax
      refine .receive heap raw b hidle (axis_setAxis_self c' ax' _) ?_
      unfold Controller.backlog
      rw [hqueued, queued_setAxis, tcp_setAxis, htcp]
      rfl
    · refine .still ((axis_setAxis_ne c' _ hax).trans (haxis ax')) ?_
      exact backlog_congr ((queued_setAxis c' ax ax' _).trans (hothers ax' hax)) ((tcp_setAxis c' ax _).trans htcp)

end BacklogAux

open BacklogAux

/-- A supervision leaves the other axis, and what is on its way to either. -/
theorem supervise_frame (c : Controller) (ax : Axis) (raw : UInt16) :
    (c.step (.supervise ax raw)).axis ax = (c.axis ax).supervise raw c.stallDetection ∧
      (∀ ax', ax' ≠ ax → (c.step (.supervise ax raw)).axis ax' = c.axis ax') ∧
      ∀ ax', (c.step (.supervise ax raw)).backlog ax' = c.backlog ax' := by
  obtain ⟨mainPwr, -, heq⟩ := supervise_eq c ax raw
  rw [heq]
  refine ⟨?_, ?_, ?_⟩
  · exact (axis_congr rfl rfl ax).trans (axis_setAxis_self c ax _)
  · exact fun ax' hne => (axis_congr rfl rfl ax').trans (axis_setAxis_ne c _ hne)
  · exact fun ax' => (backlog_congr (queued_congr rfl rfl ax') rfl).trans (backlog_setAxis c ax ax' _)

/-- What any step does to an axis. -/
theorem axisTurn (c : Controller) (l : ControllerLabel) (ax : Axis) : c.AxisTurn ax l (c.step l) := by
  cases l with
  | tcp i => exact axisTurn_tcp c i ax
  | receive ax' heap raw => exact axisTurn_receive c ax' ax heap raw
  | cmdResume ax' => exact axisTurn_setAxis c ax' ax _ .cmdResume
  | supervise ax' raw =>
    obtain ⟨hself, hother, hbacklog⟩ := supervise_frame c ax' raw
    by_cases hax : ax = ax'
    · subst hax
      exact .supervise raw hself (hbacklog ax)
    · exact .still (hother ax hax) (hbacklog ax)
  | supResume ax' => exact axisTurn_setAxis c ax' ax _ (.supResume rfl)
  | status ax' raw => exact axisTurn_setAxis c ax' ax _ (.status raw)
  | liftReceive heap =>
    obtain ⟨_, _, _, heq⟩ := liftReceive_eq c heap
    rw [heq]
    exact .still (axis_congr rfl rfl ax) (backlog_congr (queued_congr rfl rfl ax) rfl)
  | liftResume =>
    obtain ⟨_, _, heq⟩ := liftResume_eq c
    rw [heq]
    exact .still (axis_congr rfl rfl ax) (backlog_congr (queued_congr rfl rfl ax) rfl)

/-- A step that enters no producer brings no newer message. -/
theorem Controller.AxisTurn.newest {c c' : Controller} {ax : Axis} {l : ControllerLabel} (h : c.AxisTurn ax l c')
    (hquiet : ∀ i es, l = .tcp i → c.tcp.entered i = some es → toAxis ax es = []) {b : MotPapBlock}
    (hb : (c'.backlog ax).getLast? = some b) : (c.backlog ax).getLast? = some b := by
  cases h with
  | enter i es hl henter _ hbacklog =>
    rw [hquiet i es hl henter, List.append_nil] at hbacklog
    rwa [← hbacklog]
  | receive heap raw b' _ _ hbacklog =>
    rw [hbacklog]
    cases hrest : c'.backlog ax with
    | nil => simp [hrest] at hb
    | cons r rest => rwa [List.getLast?_cons_cons, ← hrest]
  | still _ hbacklog | offset _ _ hbacklog | cmdResume _ hbacklog | supervise _ _ hbacklog | supResume _ _ hbacklog
  | status _ _ hbacklog => rwa [← hbacklog]

/-! ## The converters -/

/-- The converters are as they were configured. -/
def Controller.RdcOk (c : Controller) : Prop := ∀ ax, (c.axis ax).me.rdc = axisRdc

theorem rdcOk_boot (stack : HMICmdVar) (rate : UInt32) : (Controller.boot stack rate).RdcOk := by
  intro ax
  cases ax <;> rfl

/-- No step configures a converter. -/
theorem rdcOk_step {c : Controller} (h : c.RdcOk) (l : ControllerLabel) : (c.step l).RdcOk := by
  intro ax
  cases axisTurn c l ax with
  | still htasks _ | offset _ htasks _ | enter _ _ _ _ htasks _ | status _ htasks _ =>
    rw [htasks]
    exact h ax
  | receive heap raw b _ htasks _ =>
    rw [htasks]
    exact (rdc_axisStep (c.axis ax) (.receive (b.read heap) raw)).trans (h ax)
  | cmdResume htasks _ =>
    rw [htasks]
    exact (rdc_axisStep (c.axis ax) .cmdResume).trans (h ax)
  | supervise raw htasks _ =>
    rw [htasks]
    exact (rdc_axisStep (c.axis ax) (.supervise raw c.stallDetection)).trans (h ax)
  | supResume _ htasks _ =>
    rw [htasks]
    exact (rdc_axisStep (c.axis ax) .supResume).trans (h ax)

/-! ## The command task of an axis goes on -/

/-- A step of the command task of an axis. -/
def ControllerLabel.OfCommandTask (ax : Axis) : ControllerLabel → Prop
  | .receive ax' _ _ | .cmdResume ax' => ax' = ax
  | .tcp _ | .supervise .. | .supResume _ | .status .. | .liftReceive _ | .liftResume => False

/-- What the command task of an axis leaves alone. -/
structure Controller.CommandFrame (ax : Axis) (c c' : Controller) : Prop where
  tcp : c'.tcp = c.tcp
  sup : (c'.axis ax).sup = (c.axis ax).sup
  axis : ∀ ax', ax' ≠ ax → c'.axis ax' = c.axis ax'
  queued : ∀ ax', ax' ≠ ax → c'.queued ax' = c.queued ax'

theorem commandFrame_refl (ax : Axis) (c : Controller) : c.CommandFrame ax c := ⟨rfl, rfl, fun _ _ => rfl, fun _ _ => rfl⟩

theorem commandFrame_setAxis {ax : Axis} (c : Controller) {t : AxisTasks} (h : t.sup = (c.axis ax).sup) :
    c.CommandFrame ax (c.setAxis ax t) :=
  ⟨tcp_setAxis c ax t, (congrArg AxisTasks.sup (axis_setAxis_self c ax t)).trans h, fun _ hne => axis_setAxis_ne c t hne,
    fun ax' _ => queued_setAxis c ax ax' t⟩

/-- A step of the command task. -/
theorem commandFrame_step (c : Controller) {ax : Axis} {l : ControllerLabel} (h : l.OfCommandTask ax) :
    c.CommandFrame ax (c.step l) := by
  cases l with
  | receive ax' heap raw =>
    obtain rfl : ax' = ax := h
    rcases receive_cases c ax' heap raw with heq | ⟨b, c', hidle, hdeq, heq⟩ <;> rw [heq]
    · exact commandFrame_refl ax' c
    · obtain ⟨-, hothers, haxis, htcp, -⟩ := dequeue_eq_some hdeq
      have hsup : ((c.axis ax').receive (b.read heap) raw).sup = (c'.axis ax').sup := by
        rw [haxis]
        unfold AxisTasks.receive
        split <;> rfl
      obtain ⟨htcp', hsup', haxis', hqueued'⟩ := commandFrame_setAxis c' hsup
      exact ⟨htcp'.trans htcp, hsup'.trans (congrArg AxisTasks.sup (haxis ax')), fun _ hne => (haxis' _ hne).trans (haxis _),
        fun _ hne => (hqueued' _ hne).trans (hothers _ hne)⟩
  | cmdResume ax' =>
    obtain rfl : ax' = ax := h
    refine commandFrame_setAxis c ?_
    unfold AxisTasks.cmdResume
    split <;> rfl
  | tcp | supervise | supResume | status | liftReceive | liftResume => exact absurd h id

/-- A run of the command task. -/
theorem commandFrame_run (c : Controller) {ax : Axis} {sched : List ControllerLabel} (h : ∀ l ∈ sched, l.OfCommandTask ax) :
    c.CommandFrame ax (run Controller.step c sched) := by
  induction sched generalizing c with
  | nil => exact commandFrame_refl ax c
  | cons l sched ih =>
    obtain ⟨htcp, hsup, haxis, hqueued⟩ := commandFrame_step c (h l List.mem_cons_self)
    obtain ⟨htcp', hsup', haxis', hqueued'⟩ := ih (c.step l) fun l' hl' => h l' (List.mem_cons_of_mem l hl')
    exact ⟨htcp'.trans htcp, hsup'.trans hsup, fun ax' hne => (haxis' ax' hne).trans (haxis ax' hne),
      fun ax' hne => (hqueued' ax' hne).trans (hqueued ax' hne)⟩

theorem cmd_cmdResume (t : AxisTasks) : t.cmdResume.cmd = none := by
  unfold AxisTasks.cmdResume
  split
  · assumption
  · rfl

/-- A command task at its queue takes the oldest message. -/
theorem receive_of_queued {c : Controller} {ax : Axis} {b : MotPapBlock} {rest : List MotPapBlock} (hidle : (c.axis ax).cmd = none)
    (h : c.queued ax = b :: rest) (heap : MotPapMsg) (raw : UInt16) :
    (c.step (.receive ax heap raw)).queued ax = rest ∧
      (c.step (.receive ax heap raw)).axis ax = (c.axis ax).receive (b.read heap) raw := by
  obtain ⟨c', hdeq⟩ := exists_dequeue h
  rw [receive_of_dequeue hidle hdeq, queued_setAxis, axis_setAxis_self]
  exact ⟨(List.cons.inj ((dequeue_eq_some hdeq).1.symm.trans h)).2, rfl⟩

/-- The command task can take the messages at the head of its queue, and come back to it. -/
theorem exists_taken {ax : Axis} {items rest : List MotPapBlock} {c : Controller} (h : c.queued ax = items ++ rest) :
    ∃ sched : List ControllerLabel, (∀ l ∈ sched, l.OfCommandTask ax) ∧ (run Controller.step c sched).queued ax = rest ∧
      ((run Controller.step c sched).axis ax).cmd = none := by
  induction items generalizing c with
  | nil =>
    refine ⟨[.cmdResume ax], ?_, (queued_setAxis c ax ax _).trans h, ?_⟩
    · intro l hl
      rw [List.mem_singleton.mp hl]
      rfl
    · show ((c.setAxis ax _).axis ax).cmd = none
      rw [axis_setAxis_self]
      exact cmd_cmdResume _
  | cons b items ih =>
    have hidle : ((c.step (.cmdResume ax)).axis ax).cmd = none := by
      show ((c.setAxis ax _).axis ax).cmd = none
      rw [axis_setAxis_self]
      exact cmd_cmdResume _
    have hqueued : (c.step (.cmdResume ax)).queued ax = b :: (items ++ rest) := (queued_setAxis c ax ax _).trans h
    obtain ⟨sched, hsched, hrest, hdone⟩ := ih (receive_of_queued hidle hqueued ⟨.stop, .cw, 0, 0⟩ 0).1
    refine ⟨.cmdResume ax :: .receive ax ⟨.stop, .cw, 0, 0⟩ 0 :: sched, ?_, hrest, hdone⟩
    intro l hl
    rcases List.mem_cons.mp hl with rfl | hl
    · rfl
    · rcases List.mem_cons.mp hl with rfl | hl
      · rfl
      · exact hsched l hl

/-! ## Calls -/

/-- What a step of the thread does to its producers: it calls `TaskTriggerMsg`, it enters `prvEmergencyStop`, or it makes at most the
next call that remains. -/
theorem called_cases (s : TcpState) (i : TcpInput) :
    (∃ cmd, s.called i = some cmd ∧ s.effect i = none ∧ (s.step i).statics = (taskTriggerMsg s.statics cmd).1 ∧
        s.entered i = some (taskTriggerMsg s.statics cmd).2 ∧ (s.step i).pc.phase = .calling (taskTriggerMsg s.statics cmd).2) ∨
      (s.called i = none ∧ (s.step i).statics = s.statics ∧ s.entered i = some prvEmergencyStop ∧
        (s.step i).pc.phase = .stopping prvEmergencyStop) ∨
      (s.called i = none ∧ (s.step i).statics = s.statics ∧ s.entered i = none ∧
        s.pc.phase.pending = (s.effect i).toList ++ (s.step i).pc.phase.pending) := by
  have hmove := s.move i
  unfold TcpState.called TcpState.entered
  generalize s.step i = s' at hmove ⊢
  generalize s.effect i = e at hmove ⊢
  generalize s.events i = evs at hmove ⊢
  cases hmove with
  | accepted st v status mem len cmd hok => exact Or.inl ⟨cmd, rfl, rfl, rfl, rfl, rfl⟩
  | recvError st v status herr | fail st v hstatus => exact Or.inr (Or.inl ⟨rfl, rfl, rfl, rfl⟩)
  | skip =>
    refine Or.inr (Or.inr ⟨rfl, rfl, ?_, rfl⟩)
    cases s.pc.phase <;> rfl
  | _ => exact Or.inr (Or.inr ⟨rfl, rfl, rfl, rfl⟩)

/-- A call that sends an axis, if anything, a message of a type. -/
def SendsType (t : MotPapType) (e : Effect) : Prop := ∀ ax b, e.toAxis ax = some b → b.type = some t

theorem sendsType_arm {t : MotPapType} {msg : MotPapBlock} (h : msg.type = some t) : SendsType t (.armQueueSend msg) := by
  intro ax b hb
  simp only [Effect.toAxis, Option.ite_none_right_eq_some] at hb
  rw [← Option.some_inj.mp hb.2]
  exact h

theorem sendsType_pole {t : MotPapType} {msg : MotPapBlock} (h : msg.type = some t) : SendsType t (.poleQueueSend msg) := by
  intro ax b hb
  simp only [Effect.toAxis, Option.ite_none_right_eq_some] at hb
  rw [← Option.some_inj.mp hb.2]
  exact h

/-- A call that sends nothing to the axes. -/
theorem sendsType_none (t : MotPapType) {e : Effect} (h : ∀ ax, e.toAxis ax = none) : SendsType t e := by
  intro ax b hb
  rw [h ax] at hb
  cases hb

theorem sendsType_stopSend (cmd : HMICmd) (dev : Device) : SendsType .stop (stopSend cmd dev) := by
  cases dev with
  | arm => exact sendsType_arm rfl
  | pole => exact sendsType_pole rfl
  | lift => exact sendsType_none .stop fun _ => rfl

/-- What a mode sends to the axes is of one type. -/
theorem exists_type_modeSends (prev cmd : HMICmd) : ∃ t, ∀ e ∈ modeSends prev cmd, SendsType t e := by
  unfold modeSends
  cases cmd.mode with
  | eStop =>
    refine ⟨.stop, ?_⟩
    intro e he
    obtain ⟨dev, -, rfl⟩ := List.mem_map.mp he
    exact sendsType_stopSend cmd dev
  | eFreeRun =>
    refine ⟨.freeRunning, ?_⟩
    intro e he
    cases hax : cmd.freeRunAxis with
    | eArm =>
      simp only [hax, List.mem_singleton] at he
      exact he ▸ sendsType_arm rfl
    | ePole =>
      simp only [hax, List.mem_singleton] at he
      exact he ▸ sendsType_pole rfl
  | eAuto =>
    refine ⟨.closedLoop, ?_⟩
    intro e he
    rcases List.mem_cons.mp he with rfl | he
    · exact sendsType_arm rfl
    · rw [List.mem_singleton.mp he]
      exact sendsType_pole rfl
  | eLift =>
    refine ⟨.stop, ?_⟩
    intro e he
    rw [List.mem_singleton.mp he]
    exact sendsType_none .stop fun _ => rfl

/-- So is what a frame sends. -/
theorem exists_type_dispatch (prev cmd : HMICmd) : ∃ t, ∀ e ∈ dispatch prev cmd, SendsType t e := by
  unfold dispatch
  cases prev.ctrlEn <;> cases cmd.ctrlEn
  · exact ⟨.stop, fun e he => by cases he⟩
  · obtain ⟨t, ht⟩ := exists_type_modeSends prev cmd
    refine ⟨t, ?_⟩
    intro e he
    rcases List.mem_cons.mp he with rfl | he
    · exact sendsType_none t fun _ => rfl
    · exact ht e he
  · refine ⟨.stop, ?_⟩
    intro e he
    rcases List.mem_cons.mp he with rfl | he
    · exact sendsType_none .stop fun _ => rfl
    · obtain ⟨dev, -, rfl⟩ := List.mem_map.mp he
      exact sendsType_stopSend cmd dev
  · dsimp only
    split
    · exact ⟨.stop, fun e he => by cases he⟩
    · exact exists_type_modeSends prev cmd

/-- All messages of one call to the axes are of one type. -/
theorem exists_type_entered {s : TcpState} {prev : HMICmd} (hst : s.statics = .of prev) {i : TcpInput} {es : List Effect}
    (henter : s.entered i = some es) : ∃ t, ∀ ax, ∀ b ∈ toAxis ax es, b.type = some t := by
  rcases called_cases s i with ⟨cmd, -, -, -, hcall, -⟩ | ⟨-, -, hstop, -⟩ | ⟨-, -, hnone, -⟩
  · rw [hst, taskTriggerMsg_eq, henter] at hcall
    obtain rfl := Option.some_inj.mp hcall
    obtain ⟨t, ht⟩ := exists_type_dispatch prev cmd
    refine ⟨t, ?_⟩
    intro ax b hb
    rw [toAxis_append, toAxis_settings, List.nil_append] at hb
    obtain ⟨e, he, hmsg⟩ := List.mem_filterMap.mp hb
    exact ht e he ax b hmsg
  · rw [henter] at hstop
    obtain rfl := Option.some_inj.mp hstop
    refine ⟨.stop, ?_⟩
    intro ax b hb
    cases ax <;> obtain rfl := List.mem_singleton.mp hb <;> rfl
  · rw [henter] at hnone
    cases hnone

end Rtu

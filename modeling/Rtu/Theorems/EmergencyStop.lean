import Rtu.Lemmas.Backlog

/-!
# Motion after the end of a connection

`prvEmergencyStop` sends its three STOPs and cuts the relay last, and each send waits for room in its queue. Until the relay is cut a
command task goes on with what it holds: a reversal it is in the delay of, or a motion that is queued before the STOP. A motion can
be started in that time exactly when there is something of the kind as the receive loop ends.
-/

namespace Rtu

open Runs

/-! ## The property and the condition -/

/-- A step of a command task that starts a motion. -/
def Controller.Starts (c : Controller) (l : ControllerLabel) : Prop :=
  match l with
  | .receive ax _ _ | .cmdResume ax => (c.axis ax).me.starts < ((c.step l).axis ax).me.starts
  | _ => False

/-- Outside the receive loop, no command task starts a motion while the relay is on. -/
def Controller.StopFirst (c : Controller) (l : ControllerLabel) : Prop :=
  c.tcp.pc.phase.LoopEnded → c.mainPwr = true → ¬c.Starts l

/-- No command task is in the delay of a reversal, and every message queued for an axis is a STOP or a free run at a rejected
speed. -/
def Controller.Quiet (c : Controller) : Prop := ∀ ax, (c.axis ax).cmd = none ∧ ∀ b ∈ c.queued ax, b.Harmless

/-- A step that ends the receive loop is taken with the relay off, or with nothing on its way to a motion. -/
def Controller.EndsQuiet (c : Controller) : ControllerLabel → Prop
  | .tcp i => ¬c.tcp.pc.phase.LoopEnded → (c.tcp.step i).pc.phase.LoopEnded → c.mainPwr = true → c.Quiet
  | _ => True

namespace EmergencyStopAux

/-! ## Nothing on its way to a motion -/

theorem Quiet.congr {c c' : Controller} (h : c.Quiet) (hcmd : ∀ ax, (c'.axis ax).cmd = (c.axis ax).cmd)
    (hqueued : ∀ ax, c'.queued ax = c.queued ax) : c'.Quiet := by
  intro ax
  rw [hcmd, hqueued]
  exact h ax

/-- A change of anything but the tasks and the queues of the axes. -/
theorem Quiet.frame {c c' : Controller} (h : c.Quiet) (harm : c'.arm = c.arm) (hpole : c'.pole = c.pole)
    (harmQueue : c'.armQueue = c.armQueue) (hpoleQueue : c'.poleQueue = c.poleQueue) : c'.Quiet :=
  Quiet.congr h (fun ax => congrArg AxisTasks.cmd (axis_congr harm hpole ax)) (queued_congr harmQueue hpoleQueue)

/-- A step of the tasks of an axis that leaves what its command task holds. -/
theorem Quiet.setAxis {c : Controller} (h : c.Quiet) (ax : Axis) {t : AxisTasks} (ht : t.cmd = (c.axis ax).cmd) :
    (c.setAxis ax t).Quiet := by
  refine Quiet.congr h ?_ (fun ax' => queued_setAxis c ax ax' t)
  intro ax'
  by_cases hax : ax' = ax
  · subst hax
    rw [axis_setAxis_self, ht]
  · rw [axis_setAxis_ne c t hax]

/-- A message received while nothing is on its way to a motion is harmless: it is handled at once and starts nothing. -/
theorem Quiet.receive {c : Controller} (h : c.Quiet) (ax : Axis) (heap : MotPapMsg) (raw : UInt16) :
    (c.receive ax heap raw).Quiet ∧ ((c.receive ax heap raw).axis ax).me.starts = (c.axis ax).me.starts := by
  unfold Controller.receive
  rw [if_pos (h ax).1]
  cases hdeq : c.dequeue ax with
  | none => exact ⟨h, rfl⟩
  | some p =>
    obtain ⟨b, c'⟩ := p
    obtain ⟨hqueued, hothers, haxis, -, -⟩ := dequeue_eq_some hdeq
    have hb : b.Harmless := (h ax).2 b (by rw [hqueued]; exact List.mem_cons_self)
    obtain ⟨hstarts, hcmd⟩ := axisTask_harmless (read_harmless hb heap) (c.axis ax).me raw
    have hreceive : (c.axis ax).receive (b.read heap) raw =
        { c.axis ax with me := (axisTask (c.axis ax).me (b.read heap) raw).1, cmd := none } := by
      simp [AxisTasks.receive, (h ax).1, hcmd]
    have hquiet' : c'.Quiet := by
      intro ax'
      rw [haxis ax']
      refine ⟨(h ax').1, ?_⟩
      intro x hx
      by_cases hax : ax' = ax
      · subst hax
        exact (h ax').2 x (by rw [hqueued]; exact List.mem_cons_of_mem b hx)
      · exact (h ax').2 x (by rw [← hothers ax' hax]; exact hx)
    refine ⟨Quiet.setAxis hquiet' ax ?_, ?_⟩
    · rw [hreceive, haxis ax, (h ax).1]
    · simp only [axis_setAxis_self, hreceive, hstarts]

/-- A step that is not the thread's leaves nothing on its way to a motion if there was nothing. -/
theorem Quiet.device {c : Controller} (h : c.Quiet) {l : ControllerLabel} (hl : ∀ i, l ≠ .tcp i) : (c.step l).Quiet := by
  cases l with
  | tcp i => exact absurd rfl (hl i)
  | receive ax heap raw => exact (Quiet.receive h ax heap raw).1
  | cmdResume ax =>
    refine Quiet.setAxis h ax ?_
    simp [AxisTasks.cmdResume, (h ax).1]
  | supervise ax raw =>
    have hset : (c.setAxis ax ((c.axis ax).supervise raw c.stallDetection)).Quiet := by
      refine Quiet.setAxis h ax ?_
      unfold AxisTasks.supervise
      cases (c.axis ax).sup <;> rfl
    obtain ⟨mainPwr, -, heq⟩ := supervise_eq c ax raw
    rw [heq]
    exact Quiet.frame hset rfl rfl rfl rfl
  | supResume ax =>
    refine Quiet.setAxis h ax ?_
    unfold AxisTasks.supResume
    cases (c.axis ax).sup <;> rfl
  | status ax raw => exact Quiet.setAxis h ax rfl
  | liftReceive heap =>
    obtain ⟨_, _, _, heq⟩ := liftReceive_eq c heap
    rw [heq]
    exact Quiet.frame h rfl rfl rfl rfl
  | liftResume =>
    obtain ⟨_, _, heq⟩ := liftResume_eq c
    rw [heq]
    exact Quiet.frame h rfl rfl rfl rfl

/-- A call of a producer queues harmless messages only, if the one it sends is harmless. -/
theorem harmless_perform {c c' : Controller} {e : Effect} (hperform : c.perform e = some c')
    (he : ∀ b, e = .armQueueSend b ∨ e = .poleQueueSend b → b.Harmless) {ax : Axis} (h : ∀ b ∈ c.queued ax, b.Harmless) :
    ∀ b ∈ c'.queued ax, b.Harmless := by
  cases e with
  | armQueueSend msg =>
    obtain ⟨q, hq, rfl⟩ := Option.map_eq_some_iff.mp hperform
    cases ax with
    | arm => exact Fifo.Queue.forall_send hq h (he msg (Or.inl rfl))
    | pole => exact h
  | poleQueueSend msg =>
    obtain ⟨q, hq, rfl⟩ := Option.map_eq_some_iff.mp hperform
    cases ax with
    | arm => exact h
    | pole => exact Fifo.Queue.forall_send hq h (he msg (Or.inr rfl))
  | liftQueueSend msg =>
    obtain ⟨q, -, rfl⟩ := Option.map_eq_some_iff.mp hperform
    rw [queued_congr rfl rfl]
    exact h
  | setStallDetection _ | armSetOffset _ | poleSetOffset _ | relayMainPwr _ =>
    rw [← Option.some_inj.mp hperform, queued_congr rfl rfl]
    exact h

/-- A call of `prvEmergencyStop` puts nothing on its way to a motion. -/
theorem Quiet.perform {c c' : Controller} {e : Effect} (h : c.Quiet) (he : e ∈ prvEmergencyStop)
    (hperform : c.perform e = some c') : c'.Quiet := by
  have hstop : ∀ b, e = .armQueueSend b ∨ e = .poleQueueSend b → b.Harmless := by
    intro b hb
    simp only [prvEmergencyStop, List.mem_cons, List.not_mem_nil, or_false] at he
    rcases he with rfl | rfl | rfl | rfl <;> simp at hb <;> exact Or.inl (by rw [← hb])
  intro ax
  exact ⟨(cmd_perform hperform ax).trans (h ax).1, harmless_perform hperform hstop (h ax).2⟩

/-- Only one call of `prvEmergencyStop` is on the relay: it cuts it. -/
theorem mainPwr_perform {c c' : Controller} {e : Effect} (he : e ∈ prvEmergencyStop) (hperform : c.perform e = some c') :
    e = .relayMainPwr false ∧ c'.mainPwr = false ∨ e ≠ .relayMainPwr false ∧ c'.mainPwr = c.mainPwr := by
  simp only [prvEmergencyStop, List.mem_cons, List.not_mem_nil, or_false] at he
  rcases he with rfl | rfl | rfl | rfl
  · obtain ⟨q, -, rfl⟩ := Option.map_eq_some_iff.mp hperform
    exact Or.inr ⟨nofun, rfl⟩
  · obtain ⟨q, -, rfl⟩ := Option.map_eq_some_iff.mp hperform
    exact Or.inr ⟨nofun, rfl⟩
  · obtain ⟨q, -, rfl⟩ := Option.map_eq_some_iff.mp hperform
    exact Or.inr ⟨nofun, rfl⟩
  · rw [← Option.some_inj.mp hperform]
    exact Or.inl ⟨rfl, rfl⟩

/-! ## The invariant -/

/-- Outside the receive loop: what is left of `prvEmergencyStop` is an end of it; once it is over the relay is off; and until then,
while the relay is on, nothing is on its way to a motion. -/
structure Contained (c : Controller) : Prop where
  pending : ∀ es, c.tcp.pc.phase = .stopping es → es <:+ prvEmergencyStop
  off : c.tcp.pc.phase.LoopEnded → c.tcp.pc.phase.pending = [] → c.mainPwr = false
  quiet : c.tcp.pc.phase.LoopEnded → c.mainPwr = true → c.Quiet

theorem contained_boot (stack : HMICmdVar) (rate : UInt32) : Contained (.boot stack rate) := by
  refine ⟨?_, fun _ _ => rfl, ?_⟩
  · intro es hes
    cases hes
  · intro _ hmain
    cases hmain

/-- Within the receive loop there is nothing to show. -/
theorem contained_of_loop {c : Controller} (h : ¬c.tcp.pc.phase.LoopEnded) : Contained c := by
  refine ⟨?_, fun hended => absurd hended h, fun hended => absurd hended h⟩
  intro es hes
  rw [hes] at h
  exact absurd trivial h

/-- A step of the thread that makes no call. -/
theorem contained_quietStep {c : Controller} {i : TcpInput} (h : Contained c) (hends : c.EndsQuiet (.tcp i))
    (heffect : c.tcp.effect i = none) : Contained { c with tcp := c.tcp.step i } := by
  have hphase := phase_step c.tcp i
  rw [heffect] at hphase
  have hframe : c.Quiet → ({ c with tcp := c.tcp.step i } : Controller).Quiet := fun hq => Quiet.frame hq rfl rfl rfl rfl
  generalize hnext : (c.tcp.step i).pc.phase = ph' at hphase
  generalize hcur : c.tcp.pc.phase = ph at hphase
  cases hphase with
  | skip =>
    refine ⟨?_, ?_, ?_⟩
    · intro es hes
      exact h.pending es (hcur.trans (hnext.symm.trans hes))
    · intro hended hpending
      simp only [hnext, ← hcur] at hended hpending
      exact h.off hended hpending
    · intro hended hmain
      simp only [hnext, ← hcur] at hended
      exact hframe (h.quiet hended hmain)
  | accept | call | triggered =>
    refine contained_of_loop ?_
    simp only [hnext]
    exact id
  | fail =>
    refine ⟨?_, ?_, ?_⟩
    · intro es hes
      simp only [hnext, Phase.stopping.injEq] at hes
      exact hes ▸ List.suffix_refl _
    · intro _ hpending
      simp only [hnext, Phase.pending] at hpending
      cases hpending
    · intro _ hmain
      have hloop : ¬c.tcp.pc.phase.LoopEnded := by
        rw [hcur]
        exact id
      have hended : (c.tcp.step i).pc.phase.LoopEnded := by
        rw [hnext]
        trivial
      exact hframe (hends hloop hended hmain)
  | stopped | close =>
    have hoff : c.mainPwr = false := by
      refine h.off ?_ ?_ <;> rw [hcur]
      · trivial
      · rfl
    refine ⟨?_, fun _ _ => hoff, ?_⟩
    · intro es hes
      simp only [hnext] at hes
      cases hes
    · intro _ hmain
      simp only [hoff] at hmain
      cases hmain

/-- A step of the thread that makes its call. -/
theorem contained_perform {c c' : Controller} {i : TcpInput} {e : Effect} (h : Contained c)
    (heffect : c.tcp.effect i = some e) (hperform : c.perform e = some c') :
    Contained { c' with tcp := c.tcp.step i } := by
  have hphase := phase_step c.tcp i
  rw [heffect] at hphase
  generalize hnext : (c.tcp.step i).pc.phase = ph' at hphase
  generalize hcur : c.tcp.pc.phase = ph at hphase
  cases hphase with
  | trigger e es =>
    refine contained_of_loop ?_
    simp only [hnext]
    exact id
  | stop e es =>
    have hsuffix := h.pending (e :: es) hcur
    have he : e ∈ prvEmergencyStop := hsuffix.subset List.mem_cons_self
    have hrelay := mainPwr_perform he hperform
    have hended : c.tcp.pc.phase.LoopEnded := by
      rw [hcur]
      trivial
    refine ⟨?_, ?_, ?_⟩
    · intro es' hes'
      simp only [hnext, Phase.stopping.injEq] at hes'
      subst hes'
      exact (List.suffix_cons e es).trans hsuffix
    · intro _ hpending
      simp only [hnext, Phase.pending] at hpending
      subst hpending
      rcases hrelay with ⟨-, hoff⟩ | ⟨hne, -⟩
      · exact hoff
      · -- only the cut of the relay comes last
        have hlast : prvEmergencyStop.getLast? = some e := by
          obtain ⟨pre, hpre⟩ := hsuffix
          rw [← hpre]
          simp
        exact absurd (Option.some_inj.mp hlast).symm hne
    · intro _ hmain
      rcases hrelay with ⟨-, hoff⟩ | ⟨-, hsame⟩
      · simp only [hoff] at hmain
        cases hmain
      · exact Quiet.frame (Quiet.perform (h.quiet hended (hsame ▸ hmain)) he hperform) rfl rfl rfl rfl

/-- A step that meets the condition keeps the invariant. -/
theorem contained_step {c : Controller} {l : ControllerLabel} (h : Contained c) (hends : c.EndsQuiet l) :
    Contained (c.step l) := by
  by_cases hl : ∃ i, l = .tcp i
  · obtain ⟨i, rfl⟩ := hl
    show Contained (c.tcpStep i)
    rcases tcpStep_cases c i with heq | ⟨heffect, heq⟩ | ⟨e, c', heffect, hperform, heq⟩ <;> rw [heq]
    · exact h
    · exact contained_quietStep h hends heffect
    · exact contained_perform h heffect hperform
  · have hdevice : ∀ i, l ≠ .tcp i := fun i heq => hl ⟨i, heq⟩
    obtain ⟨htcp, hmain⟩ := device_frame c hdevice
    refine ⟨?_, ?_, ?_⟩ <;> rw [htcp]
    · exact h.pending
    · intro hended hpending
      have hoff := h.off hended hpending
      cases hm : (c.step l).mainPwr with
      | false => rfl
      | true => rw [hmain hm] at hoff; cases hoff
    · intro hended hon
      exact Quiet.device (h.quiet hended (hmain hon)) hdevice

/-- Where nothing is on its way to a motion, none is started. -/
theorem stopFirst_of_contained {c : Controller} (h : Contained c) (l : ControllerLabel) : c.StopFirst l := by
  intro hended hmain hstarts
  have hq := h.quiet hended hmain
  cases l with
  | receive ax heap raw =>
    have hsame := (Quiet.receive hq ax heap raw).2
    unfold Controller.Starts at hstarts
    have hlt : (c.axis ax).me.starts < ((c.receive ax heap raw).axis ax).me.starts := hstarts
    omega
  | cmdResume ax =>
    have hlt : (c.axis ax).me.starts < ((c.setAxis ax (c.axis ax).cmdResume).axis ax).me.starts := hstarts
    simp only [axis_setAxis_self, AxisTasks.cmdResume, (hq ax).1] at hlt
    omega
  | _ => exact hstarts

/-! ## The condition is needed -/

/-- A command task in the delay of a reversal goes on. -/
theorem not_stopFirst_of_delay {c : Controller} {ax : Axis} {k : CmdDelay} (hended : c.tcp.pc.phase.LoopEnded)
    (hmain : c.mainPwr = true) (hcmd : (c.axis ax).cmd = some k) : ¬Steps Controller.step Controller.StopFirst c [.cmdResume ax] := by
  intro hsteps
  have hstep := (steps_cons.mp hsteps).1 hended hmain
  apply hstep
  show (c.axis ax).me.starts < ((c.setAxis ax (c.axis ax).cmdResume).axis ax).me.starts
  simp only [axis_setAxis_self, AxisTasks.cmdResume, hcmd]
  exact starts_resume k (c.axis ax).me

/-- A command task at its queue works through it, up to the first message that is not harmless. -/
theorem not_stopFirst_of_queued {c : Controller} {ax : Axis} {items : List MotPapBlock}
    (hended : c.tcp.pc.phase.LoopEnded) (hmain : c.mainPwr = true) (hrdc : c.RdcOk) (hcmd : (c.axis ax).cmd = none)
    (hitems : c.queued ax = items) (hb : ∃ b ∈ items, ¬b.Harmless) :
    ∃ rest, ¬Steps Controller.step Controller.StopFirst c rest := by
  induction items generalizing c with
  | nil =>
    obtain ⟨b, hmem, -⟩ := hb
    cases hmem
  | cons b items ih =>
    obtain ⟨c', hdeq⟩ := exists_dequeue hitems
    obtain ⟨hqueued, -, haxis, htcp, hmain'⟩ := dequeue_eq_some hdeq
    rw [hitems] at hqueued
    have hqueued' : c'.queued ax = items := (List.cons.inj hqueued).2.symm
    have hstep : ∀ heap raw, c.step (.receive ax heap raw) =
        c'.setAxis ax { c.axis ax with me := (axisTask (c.axis ax).me (b.read heap) raw).1
                                       cmd := (axisTask (c.axis ax).me (b.read heap) raw).2 } := by
      intro heap raw
      rw [receive_of_dequeue hcmd hdeq]
      unfold AxisTasks.receive
      rw [hcmd]
    have hended' : ∀ heap raw, (c.step (.receive ax heap raw)).tcp.pc.phase.LoopEnded := by
      intro heap raw
      rw [hstep, tcp_setAxis, htcp]
      exact hended
    have hon : ∀ heap raw, (c.step (.receive ax heap raw)).mainPwr = true := by
      intro heap raw
      rw [hstep, mainPwr_setAxis, hmain', hmain]
    by_cases hharmless : b.Harmless
    · have hnone := (axisTask_harmless (read_harmless hharmless ⟨.stop, .cw, 0, 0⟩) (c.axis ax).me 0).2
      obtain ⟨rest, hrest⟩ := ih (hended' ⟨.stop, .cw, 0, 0⟩ 0) (hon ⟨.stop, .cw, 0, 0⟩ 0) (rdcOk_step hrdc _)
        (by rw [hstep, axis_setAxis_self]; exact hnone) (by rw [hstep, queued_setAxis, hqueued'])
        (by
          obtain ⟨b', hmem, hb'⟩ := hb
          rcases List.mem_cons.mp hmem with rfl | hmem
          · exact absurd hharmless hb'
          · exact ⟨b', hmem, hb'⟩)
      exact ⟨.receive ax ⟨.stop, .cw, 0, 0⟩ 0 :: rest, fun hsteps => hrest (steps_cons.mp hsteps).2⟩
    · obtain ⟨heap, hheap⟩ := exists_not_harmless hharmless
      obtain ⟨raw, hmotion⟩ := axisTask_motion hheap (c.axis ax).me (hrdc ax)
      rcases hmotion with hstarts | ⟨k, hk⟩
      · refine ⟨[.receive ax heap raw], ?_⟩
        intro hsteps
        refine (steps_cons.mp hsteps).1 hended hmain ?_
        show (c.axis ax).me.starts < ((c.step (.receive ax heap raw)).axis ax).me.starts
        rw [hstep, axis_setAxis_self]
        exact hstarts
      · refine ⟨[.receive ax heap raw, .cmdResume ax], ?_⟩
        intro hsteps
        have hdelay : ((c.step (.receive ax heap raw)).axis ax).cmd = some k := by
          rw [hstep, axis_setAxis_self]
          exact hk
        exact not_stopFirst_of_delay (hended' heap raw) (hon heap raw) hdelay (steps_cons.mp hsteps).2

/-- With something on its way to a motion and the relay on, a motion can be started. -/
theorem not_stopFirst_of_not_quiet {c : Controller} (hended : c.tcp.pc.phase.LoopEnded) (hmain : c.mainPwr = true)
    (hrdc : c.RdcOk) (hquiet : ¬c.Quiet) : ∃ rest, ¬Steps Controller.step Controller.StopFirst c rest := by
  obtain ⟨ax, hax⟩ := Classical.not_forall.mp hquiet
  cases hcmd : (c.axis ax).cmd with
  | some k => exact ⟨[.cmdResume ax], not_stopFirst_of_delay hended hmain hcmd⟩
  | none =>
    refine not_stopFirst_of_queued hended hmain hrdc hcmd rfl ?_
    refine Classical.not_not.mp (fun hnone => hax ⟨hcmd, ?_⟩)
    intro b hb
    exact Classical.not_not.mp (fun hharmless => hnone ⟨b, hb, hharmless⟩)

/-- A step that ends the receive loop and does not meet the condition. -/
theorem not_quiet_of_not_endsQuiet {c : Controller} {l : ControllerLabel} (h : ¬c.EndsQuiet l) :
    (c.step l).tcp.pc.phase.LoopEnded ∧ (c.step l).mainPwr = true ∧ ¬(c.step l).Quiet := by
  cases l with
  | tcp i =>
    simp only [Controller.EndsQuiet, Classical.not_imp] at h
    obtain ⟨hloop, hended, hmain, hquiet⟩ := h
    have heffect : c.tcp.effect i = none := by
      have hphase := phase_step c.tcp i
      generalize (c.tcp.step i).pc.phase = ph' at hphase hended
      generalize c.tcp.pc.phase = ph at hphase hloop
      generalize c.tcp.effect i = e at hphase
      cases hphase with
      | trigger e es => exact absurd hended id
      | stop e es => exact absurd trivial hloop
      | _ => rfl
    rw [step_tcp_quiet heffect]
    refine ⟨hended, hmain, ?_⟩
    intro hq
    exact hquiet (Quiet.frame hq rfl rfl rfl rfl)
  | _ => exact absurd trivial h

/-! ## A run -/

/-- A free run of the pole, enabled, in a direction. -/
def poleFrame (freeRunDir : FreeRunDir) : HMICmd :=
  { bootCmd with
      mode := .eFreeRun, freeRunAxis := .ePole, freeRunDir, velCmdPole := 3, ctrlEn := .eEnable, clientID := .eSigned }

/-- A frame accepted on the open connection, with the calls it makes and the telemetry after it. -/
def accepted (cmd : HMICmd) (calls : Nat) : List ControllerLabel :=
  [.tcp (.recv 0), .tcp (.data 0 cmd.memory 51)] ++ List.replicate (calls + 1) (.tcp .run) ++
    [.tcp (.write 0), .tcp (.next (-1)), .tcp .run]

/-- The pole takes a message. -/
def poleReceive : ControllerLabel := .receive .pole ⟨.stop, .cw, 0, 0⟩ 0

/-- The pole starts a free run and is told to reverse; within the delay of the reversal two more messages fill its queue and the
connection is lost. The arm and the pole are still to be sent their STOPs: the second send blocks. -/
def lostInReversal : List ControllerLabel :=
  [.tcp (.accept 0 bootCmd.stored)] ++ accepted (poleFrame .eCW) 3 ++ [poleReceive] ++ accepted (poleFrame .eCCW) 2 ++
    [poleReceive] ++ accepted (poleFrame .eCW) 2 ++ accepted (poleFrame .eCCW) 2 ++
    [.tcp (.recv (-13)), .tcp .run, .tcp .run]

end EmergencyStopAux

open EmergencyStopAux

/-- In every run whose receive loops all end with the relay off or with nothing on its way to a motion, no command task starts a
motion outside the receive loop while the relay is on. A run with a step that ends a receive loop otherwise can go on, after that
step, to start one. -/
theorem emergency_stop_first (stack : HMICmdVar) (rate : UInt32) (sched : List ControllerLabel) :
    (Steps Controller.step Controller.EndsQuiet (.boot stack rate) sched →
        Steps Controller.step Controller.StopFirst (.boot stack rate) sched) ∧
      (¬Steps Controller.step Controller.EndsQuiet (.boot stack rate) sched →
        ∃ pre rest, pre <+: sched ∧ ¬Steps Controller.step Controller.StopFirst (.boot stack rate) (pre ++ rest)) := by
  constructor
  · intro hends
    have hcontained := always_of_steps Contained (fun c l h hl => contained_step h hl) (contained_boot stack rate) hends
    exact steps_of_always (fun c l h _ => stopFirst_of_contained h l) hcontained hends
  · refine exists_not_steps Controller.RdcOk (fun c l h => rdcOk_step h l) ?_ (rdcOk_boot stack rate)
    intro c l hrdc hends
    obtain ⟨hended, hmain, hquiet⟩ := not_quiet_of_not_endsQuiet hends
    exact not_stopFirst_of_not_quiet hended hmain (rdcOk_step hrdc l) hquiet

/-- The connection is lost while the pole waits for a reversal behind a full queue: `prvEmergencyStop` blocks in its second send,
and the pole starts with the relay on. -/
theorem emergency_stop_not_first :
    ¬∀ (stack : HMICmdVar) (rate : UInt32) (sched : List ControllerLabel),
      Steps Controller.step Controller.StopFirst (.boot stack rate) sched := by
  intro h
  have hstep := h bootCmd.stored 204000000 (lostInReversal ++ [.cmdResume .pole]) lostInReversal (.cmdResume .pole)
    (List.prefix_refl _)
  have hpc : (run Controller.step (.boot bootCmd.stored 204000000) lostInReversal).tcp.pc = .stop prvEmergencyStop.tail := by
    decide +kernel
  refine hstep ?_ ?_ ?_
  · rw [hpc]
    trivial
  · decide +kernel
  · show (MotPap.starts _ < MotPap.starts _)
    decide +kernel

end Rtu

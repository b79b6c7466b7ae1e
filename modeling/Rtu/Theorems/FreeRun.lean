import Mathlib.Logic.Basic
import Rtu.Lemmas.Dispatch
import Rtu.Lemmas.NetValues
import Rtu.Lemmas.Pace

/-!
# Free runs

A free run passes three layers: the parser accepts a velocity from 0 to 8, the event byte watches the flags and the set points but
not the velocities, and `mot_pap_move_free_run` accepts a speed from 1 to 8. So a frame with velocity 0, or one that changes
nothing but the velocity, leaves the axis in its earlier motion. A third way to lose a free run is that of
`lastCommandWins_iff`: the supervisor ends a reversal that it began before.
-/

namespace Rtu

open Runs

/-- The axis that a `freeRunAxis` names. -/
def FreeRunAxis.axis : FreeRunAxis → Axis
  | .eArm => .arm
  | .ePole => .pole

/-- The velocity that a frame carries for an axis. -/
def HMICmd.velCmd (cmd : HMICmd) : Axis → UInt8
  | .arm => cmd.velCmdArm
  | .pole => cmd.velCmdPole

/-- An enabled frame in free run mode that names an axis. -/
def HMICmd.FreeRuns (cmd : HMICmd) (ax : Axis) : Prop :=
  cmd.ctrlEn = .eEnable ∧ cmd.mode = .eFreeRun ∧ cmd.freeRunAxis.axis = ax

/-- An axis that runs freely in a direction at a frequency. -/
structure MotPap.RunsFreely (me : MotPap) (dir : MotPapDirection) (freq : UInt32) : Prop where
  type : me.type = .freeRunning
  started : me.tmr.started = true
  dir : me.dir = dir
  freq : me.freq = freq

/-! ## The frames and what becomes of them -/

/-- The controller, with an observer of the frames it has accepted. -/
structure Operated where
  controller : Controller
  last : Option HMICmd

/-- Boot. -/
def Operated.boot (stack : HMICmdVar) (rate : UInt32) : Operated := { controller := .boot stack rate, last := none }

/-- One step. -/
def Operated.step (o : Operated) (l : ControllerLabel) : Operated :=
  { controller := o.controller.step l
    last := match l with
      | .tcp i => (o.controller.tcp.called i).or o.last
      | _ => o.last }

/-- If the last frame is a free run of an axis, and the axis has taken what was on its way to it and is back at its queue, it runs as
the frame says. -/
def Operated.TakesEffect (o : Operated) : Prop :=
  ∀ cmd ax, o.last = some cmd → cmd.FreeRuns ax → o.controller.backlog ax = [] → (o.controller.axis ax).cmd = none →
    (o.controller.axis ax).me.RunsFreely cmd.freeRunDir.toMotPapDirection (freeRunFreq (cmd.velCmd ax).toUInt32)

/-- The connection is not lost, and no frame enables the stall detection. -/
def Operated.Undisturbed (o : Operated) : ControllerLabel → Prop
  | .tcp i => (∀ es, (o.controller.tcp.step i).pc.phase ≠ .stopping es) ∧
      ∀ cmd, o.controller.tcp.called i = some cmd → cmd.stallEn = .eDisable
  | _ => True

/-- Within `prvEmergencyStop`. -/
def Phase.isStopping : Phase → Bool
  | .stopping _ => true
  | .idle | .receiving | .calling _ | .closing => false

theorem isStopping_eq_false_iff (ph : Phase) : ph.isStopping = false ↔ ∀ es, ph ≠ .stopping es := by
  cases ph <;> simp [Phase.isStopping]

instance (o : Operated) (l : ControllerLabel) : Decidable (o.Undisturbed l) :=
  match l with
  | .tcp i =>
    have := decidable_of_iff _ (isStopping_eq_false_iff (o.controller.tcp.step i).pc.phase)
    inferInstanceAs (Decidable (_ ∧ ∀ cmd ∈ o.controller.tcp.called i, cmd.stallEn = .eDisable))
  | .receive .. | .cmdResume _ | .supervise .. | .supResume _ | .status .. | .liftReceive _ | .liftResume => isTrue trivial

/-- A free run that is accepted carries a speed that the move accepts, and the same frequency as the frame before if nothing that the
event byte watches has changed; and the supervisor does not end a reversal, in another direction, after the axis has
taken it. -/
def Operated.Effective (o : Operated) : ControllerLabel → Prop
  | .tcp i => ∀ cmd ax, o.controller.tcp.called i = some cmd → cmd.FreeRuns ax →
      motPapFreeRunSpeedOk (cmd.velCmd ax).toUInt32 = true ∧
        ∀ prev, o.last = some prev → prev.Unchanged cmd →
          freeRunFreq (cmd.velCmd ax).toUInt32 = freeRunFreq (prev.velCmd ax).toUInt32
  | .supResume ax => ∀ cmd dir, o.last = some cmd → cmd.FreeRuns ax → o.controller.backlog ax = [] →
      (o.controller.axis ax).cmd = none → (o.controller.axis ax).sup = some dir → dir = cmd.freeRunDir.toMotPapDirection
  | _ => True

namespace FreeRunAux

/-! ## A free run on its way -/

/-- A message that orders a free run in a direction at a frequency. -/
def Orders (b : MotPapBlock) (dir : MotPapDirection) (freq : UInt32) : Prop :=
  b.type = some .freeRunning ∧ b.freeRunDirection = some dir ∧
    ∃ speed, b.freeRunSpeed = some speed ∧ motPapFreeRunSpeedOk speed = true ∧ freeRunFreq speed = freq

/-- The tasks of an axis that has taken the order: it runs so, or its command task waits to run it so. -/
def Taken (t : AxisTasks) (dir : MotPapDirection) (freq : UInt32) : Prop :=
  match t.cmd with
  | none => t.me.RunsFreely dir freq
  | some (.freeRun direction speed) => direction = dir ∧ freeRunFreq speed = freq
  | some (.closedLoop _) => False

/-- The newest order to an axis is a free run. -/
structure Due (c : Controller) (ax : Axis) (dir : MotPapDirection) (freq : UInt32) : Prop where
  ordered : ∀ b, (c.backlog ax).getLast? = some b → Orders b dir freq
  taken : c.backlog ax = [] → Taken (c.axis ax) dir freq

variable {dir : MotPapDirection} {freq : UInt32}

theorem runsFreely_moveFreeRunEnd (me : MotPap) (dir : MotPapDirection) (speed : UInt32) :
    (motPapMoveFreeRunEnd me dir speed).RunsFreely dir (freeRunFreq speed) :=
  ⟨rfl, rfl, rfl, rfl⟩

/-- The order taken from the queue. -/
theorem taken_receive {t : AxisTasks} (hidle : t.cmd = none) {b : MotPapBlock} (hb : Orders b dir freq) (heap : MotPapMsg)
    (raw : UInt16) : Taken (t.receive (b.read heap) raw) dir freq := by
  obtain ⟨htype, hdir, speed, hspeed, hok, hfreq⟩ := hb
  have hread : b.read heap = { b.read heap with type := .freeRunning, freeRunDirection := dir, freeRunSpeed := speed } := by
    simp [MotPapBlock.read, htype, hdir, hspeed]
  rw [hread]
  unfold AxisTasks.receive
  rw [hidle]
  simp only [axisTask, motPapMoveFreeRun, hok, if_true]
  split
  · exact ⟨rfl, hfreq⟩
  · exact hfreq ▸ runsFreely_moveFreeRunEnd _ dir speed

/-- The order carried out after the delay. -/
theorem taken_cmdResume {t : AxisTasks} (h : Taken t dir freq) : Taken t.cmdResume dir freq := by
  unfold Taken at h
  unfold AxisTasks.cmdResume
  split at h
  · rename_i hcmd
    simpa only [hcmd, Taken] using h
  · rename_i direction speed hcmd
    obtain ⟨rfl, rfl⟩ := h
    simp only [hcmd]
    exact runsFreely_moveFreeRunEnd t.me direction speed
  · exact absurd h id

/-- A step that is not the command task's keeps what that waits for; if it waits for nothing, the motion has to be kept. -/
theorem Taken.of_cmd {t t' : AxisTasks} (h : Taken t dir freq) (hcmd : t'.cmd = t.cmd)
    (hme : t.cmd = none → t.me.RunsFreely dir freq → t'.me.RunsFreely dir freq) : Taken t' dir freq := by
  unfold Taken at h ⊢
  rw [hcmd]
  cases hk : t.cmd with
  | none =>
    rw [hk] at h
    exact hme hk h
  | some k =>
    rw [hk] at h
    cases k <;> exact h

/-- A supervision without stall detection leaves a free run. -/
theorem taken_supervise {t : AxisTasks} (h : Taken t dir freq) (raw : UInt16) : Taken (t.supervise raw false) dir freq := by
  unfold AxisTasks.supervise
  cases hsup : t.sup with
  | some dir' => exact h
  | none =>
    refine h.of_cmd rfl fun _ hruns => ?_
    have hne : (motPapReadCorrectedPos t.me raw).type ≠ .closedLoop := by simp [motPapReadCorrectedPos, hruns.type]
    have hme : (motPapSupervise t.me raw false).1 = (motPapReadCorrectedPos t.me raw).cont := by
      simp [motPapSupervise, motPapStallCheck, motPapFollow, hne]
    simp only [hme]
    exact ⟨hruns.type, hruns.started, hruns.dir, hruns.freq⟩

/-- The supervisor ends a reversal in the direction of the free run. -/
theorem taken_supResume {t : AxisTasks} (h : Taken t dir freq) (hdir : t.cmd = none → ∀ dir', t.sup = some dir' → dir' = dir) :
    Taken t.supResume dir freq := by
  unfold AxisTasks.supResume
  cases hsup : t.sup with
  | none => exact h
  | some dir' => exact h.of_cmd rfl fun hcmd hruns => ⟨hruns.type, rfl, hdir hcmd dir' hsup, hruns.freq⟩

/-- A free run that is due stays due, unless a producer is called or the supervisor ends a reversal in another direction. -/
theorem Due.turn {c c' : Controller} {ax : Axis} {l : ControllerLabel} (h : Due c ax dir freq) (hturn : c.AxisTurn ax l c')
    (hstall : c.stallDetection = false) (hquiet : ∀ i es, l = .tcp i → c.tcp.entered i = some es → toAxis ax es = [])
    (hdir : l = .supResume ax → c.backlog ax = [] → (c.axis ax).cmd = none → ∀ dir', (c.axis ax).sup = some dir' → dir' = dir) :
    Due c' ax dir freq := by
  refine ⟨fun b hb => h.ordered b (hturn.newest hquiet hb), ?_⟩
  have hkeep : c'.backlog ax = c.backlog ax → (c.backlog ax = [] → Taken (c.axis ax) dir freq → Taken (c'.axis ax) dir freq) →
      c'.backlog ax = [] → Taken (c'.axis ax) dir freq := by
    intro hbacklog htaken hempty
    rw [hbacklog] at hempty
    exact htaken hempty (h.taken hempty)
  cases hturn with
  | still htasks hbacklog => exact hkeep hbacklog fun _ ht => htasks ▸ ht
  | offset offset htasks hbacklog =>
    refine hkeep hbacklog fun _ ht => ?_
    rw [htasks]
    exact ht.of_cmd rfl fun _ hruns => ⟨hruns.type, hruns.started, hruns.dir, hruns.freq⟩
  | enter i es hl henter htasks hbacklog =>
    rw [hquiet i es hl henter, List.append_nil] at hbacklog
    exact hkeep hbacklog fun _ ht => htasks ▸ ht
  | receive heap raw b hidle htasks hbacklog =>
    intro hempty
    rw [htasks]
    refine taken_receive hidle (h.ordered b ?_) heap raw
    simp [hbacklog, hempty]
  | cmdResume htasks hbacklog => exact hkeep hbacklog fun _ ht => htasks ▸ taken_cmdResume ht
  | supervise raw htasks hbacklog =>
    rw [hstall] at htasks
    exact hkeep hbacklog fun _ ht => htasks ▸ taken_supervise ht raw
  | supResume hl htasks hbacklog =>
    exact hkeep hbacklog fun hempty ht => htasks ▸ taken_supResume ht fun hcmd dir' => hdir hl hempty hcmd dir'
  | status raw htasks hbacklog =>
    refine hkeep hbacklog fun _ ht => ?_
    rw [htasks]
    exact ht.of_cmd rfl fun _ hruns => ⟨hruns.type, hruns.started, hruns.dir, hruns.freq⟩

/-! ## What a frame orders -/

/-- A free run that is no repetition sends one message to its axis. -/
theorem toAxis_modeSends {cmd : HMICmd} {ax : Axis} (h : cmd.FreeRuns ax) (prev : HMICmd) :
    ∃ b, toAxis ax (modeSends prev cmd) = [b] ∧ b.type = some .freeRunning ∧
      b.freeRunDirection = some cmd.freeRunDir.toMotPapDirection ∧ b.freeRunSpeed = some (cmd.velCmd ax).toUInt32 := by
  obtain ⟨-, hmode, rfl⟩ := h
  unfold modeSends
  rw [hmode]
  cases cmd.freeRunAxis with
  | eArm => exact ⟨armBlock .freeRunning cmd, rfl, rfl, rfl, rfl⟩
  | ePole => exact ⟨poleBlock .freeRunning cmd, rfl, rfl, rfl, rfl⟩

/-- A free run sends one message to its axis, or it repeats the frame before. -/
theorem toAxis_dispatch {cmd : HMICmd} {ax : Axis} (h : cmd.FreeRuns ax) (prev : HMICmd) :
    prev.ctrlEn = .eEnable ∧ prev.Unchanged cmd ∧ toAxis ax (settings cmd ++ dispatch prev cmd) = [] ∨
      ¬(prev.ctrlEn = .eEnable ∧ prev.Unchanged cmd) ∧
        ∃ b, toAxis ax (settings cmd ++ dispatch prev cmd) = [b] ∧ b.type = some .freeRunning ∧
          b.freeRunDirection = some cmd.freeRunDir.toMotPapDirection ∧ b.freeRunSpeed = some (cmd.velCmd ax).toUInt32 := by
  rw [toAxis_append, toAxis_settings, List.nil_append]
  unfold dispatch
  rw [h.1]
  cases hprev : prev.ctrlEn with
  | eDisable => exact Or.inr ⟨nofun, toAxis_modeSends h prev⟩
  | eEnable =>
    by_cases hun : prev.Unchanged cmd
    · exact Or.inl ⟨rfl, hun, by simp [hun]⟩
    · refine Or.inr ⟨fun hboth => hun hboth.2, ?_⟩
      simpa only [if_neg hun] using toAxis_modeSends h prev

/-- A repetition of a free run is one of the same axis in the same direction. -/
theorem freeRuns_of_unchanged {prev cmd : HMICmd} {ax : Axis} (hun : prev.Unchanged cmd) (h : cmd.FreeRuns ax) :
    prev.FreeRuns ax ∧ prev.freeRunDir = cmd.freeRunDir := by
  obtain ⟨hen, hmode, hax⟩ := h
  exact ⟨⟨hun.ctrlEn ▸ hen, hun.mode ▸ hmode, by rw [← hun.freeRunAxis, hax]⟩, hun.freeRunDir.symm⟩

/-! ## The invariant -/

/-- The stall detection is off, and no call that remains turns it on. -/
def StallOff (c : Controller) : Prop :=
  c.stallDetection = false ∧ ∀ e ∈ c.tcp.pc.phase.pending, e ≠ .setStallDetection true

/-- The static variables hold the last frame, and the stall detection is off. -/
structure Operated.Followed (o : Operated) : Prop where
  tracked : o.controller.tcp.statics = .of (o.last.getD bootCmd)
  stall : StallOff o.controller

/-- And the axis that the last frame runs freely is ordered to. -/
structure Operated.Ordered (o : Operated) : Prop extends Operated.Followed o where
  due : ∀ cmd ax, o.last = some cmd → cmd.FreeRuns ax →
    Due o.controller ax cmd.freeRunDir.toMotPapDirection (freeRunFreq (cmd.velCmd ax).toUInt32)

theorem ordered_boot (stack : HMICmdVar) (rate : UInt32) : Operated.Ordered (.boot stack rate) := by
  refine ⟨⟨statics_boot, rfl, ?_⟩, ?_⟩
  · intro e he
    cases he
  · intro cmd ax h
    cases h

/-! ## One step -/

/-- Only the settings of a call set the stall detection. -/
theorem not_stall_dispatch (prev cmd : HMICmd) (stallDetection : Bool) : .setStallDetection stallDetection ∉ dispatch prev cmd := by
  have hstops : ∀ devs : List Device, .setStallDetection stallDetection ∉ devs.map (stopSend cmd) := by
    intro devs he
    obtain ⟨dev, -, heq⟩ := List.mem_map.mp he
    cases dev <;> cases heq
  have hsends : .setStallDetection stallDetection ∉ modeSends prev cmd := by
    unfold modeSends
    cases cmd.mode with
    | eStop => exact hstops _
    | eFreeRun => cases cmd.freeRunAxis <;> simp
    | eAuto => simp
    | eLift => simp
  unfold dispatch
  cases prev.ctrlEn <;> cases cmd.ctrlEn
  · simp
  · simpa using hsends
  · simpa only [List.mem_cons, reduceCtorEq, false_or] using hstops [.arm, .pole, .lift]
  · dsimp only
    split
    · simp
    · exact hsends

/-- A frame without stall detection leaves it off. -/
theorem not_stall_call {cmd : HMICmd} (h : cmd.stallEn = .eDisable) (prev : HMICmd) :
    ∀ e ∈ settings cmd ++ dispatch prev cmd, e ≠ .setStallDetection true := by
  rintro e he rfl
  rcases List.mem_append.mp he with he | he
  · unfold settings at he
    rw [h] at he
    split at he <;> simp at he
  · exact not_stall_dispatch prev cmd true he

theorem stallDetection_perform {c c' : Controller} {e : Effect} (h : c.perform e = some c') :
    c'.stallDetection = c.stallDetection ∨ e = .setStallDetection c'.stallDetection := by
  cases e with
  | setStallDetection stallDetection =>
    rw [← Option.some_inj.mp h]
    exact Or.inr rfl
  | armSetOffset _ | poleSetOffset _ | relayMainPwr _ =>
    rw [← Option.some_inj.mp h]
    exact Or.inl rfl
  | armQueueSend _ | poleQueueSend _ | liftQueueSend _ =>
    obtain ⟨q, -, rfl⟩ := Option.map_eq_some_iff.mp h
    exact Or.inl rfl

/-- The static variables and the stall detection after a step. -/
theorem followed_step {o : Operated} (h : Operated.Followed o) {l : ControllerLabel} (hun : o.Undisturbed l) :
    Operated.Followed (o.step l) := by
  suffices hboth : (o.step l).controller.tcp.statics = .of ((o.step l).last.getD bootCmd) ∧ StallOff (o.step l).controller from
    ⟨hboth.1, hboth.2⟩
  by_cases hl : ∃ i, l = .tcp i
  · obtain ⟨i, rfl⟩ := hl
    obtain ⟨hconn, hstall⟩ := hun
    show (o.controller.tcpStep i).tcp.statics = .of (((o.controller.tcp.called i).or o.last).getD bootCmd) ∧
      StallOff (o.controller.tcpStep i)
    rcases called_cases o.controller.tcp i with ⟨cmd, hcalled, heffect, hstatics, -, hphase⟩ | ⟨-, -, -, hphase⟩ |
      ⟨hcalled, hstatics, -, hpending⟩
    · have hstep : o.controller.tcpStep i = { o.controller with tcp := o.controller.tcp.step i } := step_tcp_quiet heffect
      rw [h.tracked, taskTriggerMsg_eq] at hstatics hphase
      rw [hstep, hcalled]
      refine ⟨hstatics, h.stall.1, ?_⟩
      simp only [hphase, Phase.pending]
      exact not_stall_call (hstall cmd hcalled) _
    · exact absurd hphase (hconn prvEmergencyStop)
    · rw [hcalled, Option.none_or]
      have hrest : ∀ e ∈ (o.controller.tcp.step i).pc.phase.pending, e ≠ .setStallDetection true := by
        intro e he
        refine h.stall.2 e ?_
        rw [hpending]
        exact List.mem_append_right _ he
      rcases tcpStep_cases o.controller i with heq | ⟨heffect, heq⟩ | ⟨e, c', heffect, hperform, heq⟩ <;> rw [heq]
      · exact ⟨h.tracked, h.stall⟩
      · exact ⟨hstatics.trans h.tracked, h.stall.1, hrest⟩
      · refine ⟨hstatics.trans h.tracked, ?_, hrest⟩
        have he : e ∈ o.controller.tcp.pc.phase.pending := by simp [hpending, heffect]
        rcases stallDetection_perform hperform with hsame | rfl
        · exact hsame.trans h.stall.1
        · cases hoff : c'.stallDetection with
          | false => rfl
          | true => exact absurd (congrArg Effect.setStallDetection hoff) (h.stall.2 _ he)
  · have hdevice : ∀ i, l ≠ .tcp i := fun i heq => hl ⟨i, heq⟩
    have hlast : (o.step l).last = o.last := by
      cases l with
      | tcp i => exact absurd rfl (hdevice i)
      | _ => rfl
    have htcp : (o.step l).controller.tcp = o.controller.tcp := (device_frame o.controller hdevice).1
    rw [hlast]
    refine ⟨htcp ▸ h.tracked, ?_, ?_⟩
    · exact (stallDetection_device o.controller hdevice).trans h.stall.1
    · rw [htcp]
      exact h.stall.2

/-- A frame enters `TaskTriggerMsg` with the calls of `dispatch`. -/
theorem entered_of_called {o : Operated} (h : Operated.Followed o) {i : TcpInput} {cmd : HMICmd}
    (hcalled : o.controller.tcp.called i = some cmd) :
    o.controller.tcp.entered i = some (settings cmd ++ dispatch (o.last.getD bootCmd) cmd) ∧
      (o.step (.tcp i)).controller.tcp.pc = .trigger (settings cmd ++ dispatch (o.last.getD bootCmd) cmd) := by
  rcases called_cases o.controller.tcp i with ⟨cmd', hcalled', heffect, -, henter, hphase⟩ | ⟨hnone, -⟩ | ⟨hnone, -⟩
  · obtain rfl : cmd' = cmd := Option.some_inj.mp (hcalled'.symm.trans hcalled)
    rw [h.tracked, taskTriggerMsg_eq] at henter hphase
    refine ⟨henter, ?_⟩
    show (o.controller.step (.tcp i)).tcp.pc = _
    rw [step_tcp_quiet heffect]
    show (o.controller.tcp.step i).pc = _
    cases hpc : (o.controller.tcp.step i).pc with
    | trigger es =>
      rw [hpc] at hphase
      exact congrArg TcpPc.trigger (Phase.calling.inj hphase)
    | _ =>
      rw [hpc] at hphase
      cases hphase
  · rw [hcalled] at hnone
    cases hnone
  · rw [hcalled] at hnone
    cases hnone

/-- A frame that repeats a free run leaves due what was due. -/
theorem due_of_repeated {o : Operated} (h : Operated.Ordered o) {i : TcpInput} {cmd prev : HMICmd}
    (hcalled : o.controller.tcp.called i = some cmd) {ax : Axis} (hfree : cmd.FreeRuns ax) (hlast : o.last = some prev)
    (hun : prev.Unchanged cmd) :
    Due (o.controller.step (.tcp i)) ax cmd.freeRunDir.toMotPapDirection (freeRunFreq (prev.velCmd ax).toUInt32) := by
  obtain ⟨htasks, hbacklog⟩ := enter_step o.controller (entered_of_called h.toFollowed hcalled).1 ax
  obtain ⟨hprev, hdir⟩ := freeRuns_of_unchanged hun hfree
  have hdue := h.due prev ax hlast hprev
  rw [hlast, Option.getD_some] at hbacklog
  rcases toAxis_dispatch hfree prev with ⟨-, -, hnone⟩ | ⟨hnew, -⟩
  · rw [hnone, List.append_nil] at hbacklog
    rw [← hdir]
    exact ⟨hbacklog ▸ hdue.ordered, hbacklog ▸ htasks ▸ hdue.taken⟩
  · exact absurd ⟨hprev.1, hun⟩ hnew

/-- A frame that orders a free run, and meets the condition, makes it due. -/
theorem due_of_called {o : Operated} (h : Operated.Ordered o) {i : TcpInput} {cmd : HMICmd}
    (hcalled : o.controller.tcp.called i = some cmd) {ax : Axis} (hfree : cmd.FreeRuns ax)
    (hspeed : motPapFreeRunSpeedOk (cmd.velCmd ax).toUInt32 = true)
    (hsame : ∀ prev, o.last = some prev → prev.Unchanged cmd →
      freeRunFreq (cmd.velCmd ax).toUInt32 = freeRunFreq (prev.velCmd ax).toUInt32) :
    Due (o.controller.step (.tcp i)) ax cmd.freeRunDir.toMotPapDirection (freeRunFreq (cmd.velCmd ax).toUInt32) := by
  obtain ⟨htasks, hbacklog⟩ := enter_step o.controller (entered_of_called h.toFollowed hcalled).1 ax
  rcases toAxis_dispatch hfree (o.last.getD bootCmd) with ⟨hen, hun, -⟩ | ⟨-, b, hb, htype, hdir, hvel⟩
  · cases hlast : o.last with
    | none =>
      rw [hlast] at hen
      cases hen
    | some prev =>
      rw [hlast, Option.getD_some] at hun
      rw [hsame prev hlast hun]
      exact due_of_repeated h hcalled hfree hlast hun
  · rw [hb] at hbacklog
    refine ⟨?_, ?_⟩
    · intro b' hb'
      rw [hbacklog, List.getLast?_append] at hb'
      cases hb'
      exact ⟨htype, hdir, _, hvel, hspeed, rfl⟩
    · intro hempty
      rw [hbacklog] at hempty
      simp at hempty

/-- A step that meets the condition keeps what is due. -/
theorem ordered_step {o : Operated} (h : Operated.Ordered o) {l : ControllerLabel} (hun : o.Undisturbed l) (heff : o.Effective l) :
    Operated.Ordered (o.step l) := by
  refine ⟨followed_step h.toFollowed hun, ?_⟩
  intro cmd ax hlast hfree
  by_cases hcalled : ∃ i, l = .tcp i ∧ o.controller.tcp.called i = some cmd
  · obtain ⟨i, rfl, hcalled⟩ := hcalled
    obtain ⟨hspeed, hsame⟩ := heff cmd ax hcalled hfree
    exact due_of_called h hcalled hfree hspeed hsame
  · have hquiet : ∀ i es, l = .tcp i → o.controller.tcp.entered i = some es → toAxis ax es = [] := by
      rintro i es rfl henter
      rcases called_cases o.controller.tcp i with ⟨cmd', hcalled', -⟩ | ⟨-, -, -, hphase⟩ | ⟨-, -, hnone, -⟩
      · have hcmd : (o.controller.tcp.called i).or o.last = some cmd := hlast
        rw [hcalled', Option.some_or] at hcmd
        exact absurd ⟨i, rfl, hcalled'.trans hcmd⟩ hcalled
      · exact absurd hphase (hun.1 prvEmergencyStop)
      · rw [henter] at hnone
        cases hnone
    have hsame : o.last = some cmd := by
      cases l with
      | tcp i =>
        rcases Option.or_eq_some_iff.mp hlast with hcalled' | ⟨-, hsame⟩
        · exact absurd ⟨i, rfl, hcalled'⟩ hcalled
        · exact hsame
      | _ => exact hlast
    refine (h.due cmd ax hsame hfree).turn (axisTurn o.controller l ax) h.stall.1 hquiet ?_
    rintro rfl hempty hidle dir' hsup
    exact heff cmd dir' hsame hfree hempty hidle hsup

/-! ## The condition is needed -/

/-- The steps that take what is on its way to an axis: its command task goes on, or the thread makes the next of its calls. -/
def Drains (ax : Axis) (c : Controller) : ControllerLabel → Prop
  | .receive ax' _ _ | .cmdResume ax' => ax' = ax
  | .tcp i => i = .run ∧ ∃ e es, c.tcp.pc = .trigger (e :: es)
  | _ => False

/-- A call that waits for no queue but that of an axis. -/
def SendsOnlyTo (ax : Axis) : Effect → Prop
  | .armQueueSend _ => ax = .arm
  | .poleQueueSend _ => ax = .pole
  | .liftQueueSend _ => False
  | _ => True

/-- The command task of an axis empties its queue. -/
theorem exists_drained_queue (c : Controller) (ax : Axis) :
    ∃ rest, Steps Controller.step (Drains ax) c rest ∧ (run Controller.step c rest).queued ax = [] ∧
      ((run Controller.step c rest).axis ax).cmd = none ∧ (run Controller.step c rest).tcp = c.tcp := by
  obtain ⟨rest, hrest, hempty, hdone⟩ := exists_taken (List.append_nil (c.queued ax)).symm
  refine ⟨rest, ?_, hempty, hdone, (commandFrame_run c hrest).tcp⟩
  intro pre l hpre
  have hl := hrest l (hpre.subset (List.mem_append_right pre List.mem_cons_self))
  cases l with
  | receive | cmdResume => exact hl
  | tcp | supervise | supResume | status | liftReceive | liftResume => exact absurd hl id

/-- A call that waits for the queue of an axis only is made once that is empty. -/
theorem exists_perform {ax : Axis} {c : Controller} {e : Effect} (he : SendsOnlyTo ax e) (hqueue : c.queued ax = []) :
    ∃ c', c.perform e = some c' := by
  cases e with
  | setStallDetection _ | armSetOffset _ | poleSetOffset _ | relayMainPwr _ => exact ⟨_, rfl⟩
  | armQueueSend b =>
    obtain rfl : ax = .arm := he
    have hroom : c.armQueue.items.length < 5 := by
      rw [show c.armQueue.items = [] from hqueue]
      decide
    obtain ⟨q, hq⟩ := Fifo.Queue.exists_send hroom b
    exact ⟨{ c with armQueue := q }, by simp [Controller.perform, hq]⟩
  | poleQueueSend b =>
    obtain rfl : ax = .pole := he
    have hroom : c.poleQueue.items.length < 2 := by
      rw [show c.poleQueue.items = [] from hqueue]
      decide
    obtain ⟨q, hq⟩ := Fifo.Queue.exists_send hroom b
    exact ⟨{ c with poleQueue := q }, by simp [Controller.perform, hq]⟩
  | liftQueueSend _ => exact absurd he id

/-- The thread makes the calls that remain, the command task of the axis empties its queue, and nothing is left on its way. -/
theorem exists_drained {ax : Axis} {es : List Effect} {c : Controller} (hpc : c.tcp.pc = .trigger es)
    (hes : ∀ e ∈ es, SendsOnlyTo ax e) :
    ∃ rest, Steps Controller.step (Drains ax) c rest ∧ (run Controller.step c rest).backlog ax = [] ∧
      ((run Controller.step c rest).axis ax).cmd = none := by
  induction es generalizing c with
  | nil =>
    obtain ⟨rest, hsteps, hempty, hdone, htcp⟩ := exists_drained_queue c ax
    refine ⟨rest, hsteps, ?_, hdone⟩
    unfold Controller.backlog
    rw [hempty, htcp, hpc]
    rfl
  | cons e es ih =>
    obtain ⟨first, hfirst, hempty, -, htcp⟩ := exists_drained_queue c ax
    rw [← htcp] at hpc
    obtain ⟨c', hperform⟩ := exists_perform (hes e List.mem_cons_self) hempty
    have hstep : (run Controller.step c first).step (.tcp .run) =
        { c' with tcp := (run Controller.step c first).tcp.step .run } :=
      step_tcp_perform (by simp only [TcpState.effect, hpc]) hperform
    have hpc' : ((run Controller.step c first).step (.tcp .run)).tcp.pc = .trigger es := by
      rw [hstep]
      simp only [TcpState.step, hpc]
    obtain ⟨rest, hsteps, hbacklog, hdone⟩ := ih hpc' fun e' he' => hes e' (List.mem_cons_of_mem e he')
    refine ⟨first ++ .tcp .run :: rest, ?_, ?_, ?_⟩
    · exact steps_append.mpr ⟨hfirst, steps_cons.mpr ⟨⟨rfl, e, es, hpc⟩, hsteps⟩⟩
    · rw [run_append, run_cons]
      exact hbacklog
    · rw [run_append, run_cons]
      exact hdone

/-- Such steps disturb nothing and bring no frame. -/
theorem undisturbed_of_drains {ax : Axis} {o : Operated} {l : ControllerLabel} (h : Drains ax o.controller l) :
    o.Undisturbed l ∧ (o.step l).last = o.last ∧ ∀ i es, l = .tcp i → o.controller.tcp.entered i ≠ some es := by
  cases l with
  | tcp i =>
    obtain ⟨rfl, e, es, hpc⟩ := h
    have hnone : o.controller.tcp.called .run = none := by simp [TcpState.called, TcpState.events, hpc]
    refine ⟨⟨?_, ?_⟩, ?_, ?_⟩
    · intro es'
      simp [TcpState.step, hpc]
    · intro cmd hcalled
      rw [hnone] at hcalled
      cases hcalled
    · show (o.controller.tcp.called .run).or o.last = o.last
      rw [hnone, Option.none_or]
    · rintro i es' hi
      cases hi
      simp [TcpState.entered, hpc]
  | receive | cmdResume =>
    refine ⟨trivial, rfl, ?_⟩
    intro i es hi
    cases hi
  | supervise | supResume | status | liftReceive | liftResume => exact absurd h id

/-- A run of such steps. -/
theorem run_drains {ax : Axis} {o : Operated} {rest : List ControllerLabel} (h : Steps Controller.step (Drains ax) o.controller rest) :
    Steps Operated.step (fun o l => Drains ax o.controller l) o rest ∧
      run Operated.step o rest = { controller := run Controller.step o.controller rest, last := o.last } := by
  induction rest generalizing o with
  | nil => exact ⟨steps_nil, rfl⟩
  | cons l rest ih =>
    obtain ⟨hl, hrest⟩ := steps_cons.mp h
    obtain ⟨hsteps, hrun⟩ := ih (o := o.step l) hrest
    rw [run_cons, hrun, (undisturbed_of_drains hl).2.1]
    exact ⟨steps_cons.mpr ⟨hl, hsteps⟩, rfl⟩

/-- The calls of a free run wait for the queue of its axis only. -/
theorem sendsOnlyTo_call {cmd : HMICmd} {ax : Axis} (h : cmd.FreeRuns ax) (prev : HMICmd) :
    ∀ e ∈ settings cmd ++ dispatch prev cmd, SendsOnlyTo ax e := by
  obtain ⟨hen, hmode, rfl⟩ := h
  have hsends : ∀ e ∈ modeSends prev cmd, SendsOnlyTo cmd.freeRunAxis.axis e := by
    intro e he
    unfold modeSends at he
    rw [hmode] at he
    cases hax : cmd.freeRunAxis <;> simp only [hax, List.mem_singleton] at he <;> subst he <;> rfl
  intro e he
  rcases List.mem_append.mp he with he | he
  · rcases settings_cases he with ⟨_, rfl⟩ | ⟨_, rfl⟩ | ⟨_, rfl⟩ <;> trivial
  · unfold dispatch at he
    rw [hen] at he
    cases hprev : prev.ctrlEn with
    | eDisable =>
      rw [hprev] at he
      rcases List.mem_cons.mp he with rfl | he
      · trivial
      · exact hsends e he
    | eEnable =>
      rw [hprev] at he
      dsimp only at he
      split at he
      · cases he
      · exact hsends e he

/-- A speed that the move rejects stands for no frequency. -/
theorem freeRunFreq_of_rejected {speed : UInt32} (h : ¬motPapFreeRunSpeedOk speed = true) : freeRunFreq speed = 0 := by
  have hspeed : speed.toNat = 0 ∨ 8 < speed.toNat := by
    rw [freeRunSpeedOk_iff] at h
    omega
  unfold freeRunFreq
  rcases hspeed with hzero | hlarge
  · rw [hzero]
    rfl
  · have hlength : motPapFreeRunFreqs.length ≤ speed.toNat := hlarge
    rw [List.getD_eq_getElem?_getD, List.getElem?_eq_none hlength]
    rfl

/-- After a frame that does not meet the condition, the axis can come to rest without running as the frame says. -/
theorem exists_not_effect_of_called {o : Operated} (h : Operated.Ordered o) (hpaced : ∀ ax, (o.controller.axis ax).Paced) {i : TcpInput}
    (hun : o.Undisturbed (.tcp i)) {cmd : HMICmd} {ax : Axis} (hcalled : o.controller.tcp.called i = some cmd)
    (hfree : cmd.FreeRuns ax)
    (hbad : motPapFreeRunSpeedOk (cmd.velCmd ax).toUInt32 = true →
      ∃ prev, o.last = some prev ∧ prev.Unchanged cmd ∧
        freeRunFreq (cmd.velCmd ax).toUInt32 ≠ freeRunFreq (prev.velCmd ax).toUInt32) :
    ∃ rest, Steps Operated.step Operated.Undisturbed (o.step (.tcp i)) rest ∧
      ¬(run Operated.step (o.step (.tcp i)) rest).TakesEffect := by
  have hfollowed := followed_step h.toFollowed hun
  have hlast : (o.step (.tcp i)).last = some cmd := by
    show (o.controller.tcp.called i).or o.last = some cmd
    rw [hcalled, Option.some_or]
  obtain ⟨rest, hsteps, hempty, hidle⟩ :=
    exists_drained (entered_of_called h.toFollowed hcalled).2 (sendsOnlyTo_call hfree _)
  obtain ⟨hdrains, hrun⟩ := run_drains hsteps
  refine ⟨rest, fun pre l hpre => (undisturbed_of_drains (hdrains pre l hpre)).1, ?_⟩
  rw [hrun]
  intro heffect
  have hruns := heffect cmd ax hlast hfree hempty hidle
  by_cases hspeed : motPapFreeRunSpeedOk (cmd.velCmd ax).toUInt32 = true
  · -- the axis runs at the frequency of the frame before
    obtain ⟨prev, hprev, hsame, hne⟩ := hbad hspeed
    have hall := always_of_steps (Q := fun o l => Drains ax o.controller l)
      (fun o => Operated.Followed o ∧
        Due o.controller ax cmd.freeRunDir.toMotPapDirection (freeRunFreq (prev.velCmd ax).toUInt32)) ?_
      ⟨hfollowed, due_of_repeated h hcalled hfree hprev hsame⟩ hdrains
    · have htaken := hall.last.2
      rw [hrun] at htaken
      have htaken := htaken.taken hempty
      unfold Taken at htaken
      rw [hidle] at htaken
      exact hne (hruns.freq.symm.trans htaken.freq)
    · rintro o' l ⟨hfollowed', hdue⟩ hl
      obtain ⟨hun', -, hquiet⟩ := undisturbed_of_drains hl
      refine ⟨followed_step hfollowed' hun', hdue.turn (axisTurn o'.controller l ax) hfollowed'.stall.1 ?_ ?_⟩
      · intro i' es hi henter
        exact absurd henter (hquiet i' es hi)
      · rintro rfl
        exact absurd hl id
  · -- the frequency of the frame is none of a motor
    have hpaced' := run_inv (fun c : Controller => ∀ ax, (c.axis ax).Paced) (fun c l hc => paced_step hc l) (paced_step hpaced (.tcp i)) rest
    have htype : ((run Controller.step (o.controller.step (.tcp i)) rest).axis ax).me.type = .freeRunning := hruns.type
    have hfreq : ((run Controller.step (o.controller.step (.tcp i)) rest).axis ax).me.freq =
        freeRunFreq (cmd.velCmd ax).toUInt32 := hruns.freq
    have hge := ((hpaced' ax).me (by rw [htype]; decide)).1
    rw [hfreq, freeRunFreq_of_rejected hspeed] at hge
    exact absurd hge (by decide)

/-- The supervisor that ends a reversal in another direction turns the free run around. -/
theorem not_effect_of_supResume {o : Operated} {ax : Axis} {cmd : HMICmd} {dir : MotPapDirection} (hlast : o.last = some cmd)
    (hfree : cmd.FreeRuns ax) (hempty : o.controller.backlog ax = []) (hidle : (o.controller.axis ax).cmd = none)
    (hsup : (o.controller.axis ax).sup = some dir) (hdir : dir ≠ cmd.freeRunDir.toMotPapDirection) :
    ¬(o.step (.supResume ax)).TakesEffect := by
  intro heffect
  have haxis : (o.step (.supResume ax)).controller.axis ax = (o.controller.axis ax).supResume := axis_setAxis_self _ ax _
  have hcmd : ((o.step (.supResume ax)).controller.axis ax).cmd = none := by
    rw [haxis]
    simp only [AxisTasks.supResume, hsup, hidle]
  have hbacklog : (o.step (.supResume ax)).controller.backlog ax = [] := by
    show (o.controller.setAxis ax _).backlog ax = []
    rw [backlog_setAxis]
    exact hempty
  have hruns := heffect cmd ax hlast hfree hbacklog hcmd
  rw [haxis] at hruns
  have hturned := hruns.dir
  simp only [AxisTasks.supResume, hsup] at hturned
  exact hdir hturned

/-- After a step that does not meet the condition, the run can go on to an axis at rest that does not run as the frame says. -/
theorem exists_not_effect {o : Operated} (h : Operated.Ordered o) (hpaced : ∀ ax, (o.controller.axis ax).Paced)
    {l : ControllerLabel} (hun : o.Undisturbed l) (heff : ¬o.Effective l) :
    ∃ rest, Steps Operated.step Operated.Undisturbed (o.step l) rest ∧ ¬(run Operated.step (o.step l) rest).TakesEffect := by
  cases l with
  | tcp i =>
    simp only [Operated.Effective, not_forall] at heff
    obtain ⟨cmd, ax, hcalled, hfree, hbad⟩ := heff
    refine exists_not_effect_of_called h hpaced hun hcalled hfree fun hspeed => ?_
    simp only [hspeed, true_and, not_forall] at hbad
    obtain ⟨prev, hprev, hsame, hne⟩ := hbad
    exact ⟨prev, hprev, hsame, hne⟩
  | supResume ax =>
    simp only [Operated.Effective, not_forall] at heff
    obtain ⟨cmd, dir, hlast, hfree, hempty, hidle, hsup, hdir⟩ := heff
    exact ⟨[], steps_nil, not_effect_of_supResume hlast hfree hempty hidle hsup hdir⟩
  | receive | cmdResume | supervise | status | liftReceive | liftResume => exact absurd trivial heff

/-! ## A run -/

/-- A free run of the arm, enabled, at a velocity. -/
def armFrame (velCmdArm : UInt8) : HMICmd :=
  { bootCmd with mode := .eFreeRun, velCmdArm, ctrlEn := .eEnable, clientID := .eSigned }

/-- The arm runs freely at velocity 3, and a frame asks for velocity 8. -/
def faster : List ControllerLabel :=
  [.tcp (.accept 0 bootCmd.stored), .tcp (.recv 0), .tcp (.data 0 (armFrame 3).memory 51)] ++ List.replicate 4 (.tcp .run) ++
    [.receive .arm ⟨.stop, .cw, 0, 0⟩ 0, .tcp (.write 0), .tcp (.next (-1)), .tcp .run, .tcp (.recv 0),
      .tcp (.data 0 (armFrame 8).memory 51)]

end FreeRunAux

open FreeRunAux

/-- In every run without loss of the connection and without stall detection, whose steps all meet the condition, free runs take
effect as sent. A run with a step that does not can go on, after that step, to a free run that does not take effect. -/
theorem free_run_takes_effect (stack : HMICmdVar) (rate : UInt32) (sched : List ControllerLabel) :
    (Steps Operated.step (fun o l => o.Undisturbed l ∧ o.Effective l) (.boot stack rate) sched →
        Always Operated.step Operated.TakesEffect (.boot stack rate) sched) ∧
      (Steps Operated.step Operated.Undisturbed (.boot stack rate) sched →
        ¬Steps Operated.step Operated.Effective (.boot stack rate) sched →
        ∃ pre rest, pre <+: sched ∧ Steps Operated.step Operated.Undisturbed (.boot stack rate) (pre ++ rest) ∧
          ¬Always Operated.step Operated.TakesEffect (.boot stack rate) (pre ++ rest)) := by
  have hordered : ∀ {sched}, Steps Operated.step (fun o l => o.Undisturbed l ∧ o.Effective l) (.boot stack rate) sched →
      Always Operated.step Operated.Ordered (.boot stack rate) sched :=
    fun h => always_of_steps Operated.Ordered (fun _ _ h hl => ordered_step h hl.1 hl.2) (ordered_boot stack rate) h
  constructor
  · intro h
    refine (hordered h).imp ?_
    intro o ho cmd ax hlast hfree hempty hidle
    have htaken := (ho.due cmd ax hlast hfree).taken hempty
    unfold Taken at htaken
    rwa [hidle] at htaken
  · intro hun hnot
    obtain ⟨pre, l, hpre, hgood, hbad⟩ := exists_first_failure hnot
    have hunpre : Steps Operated.step Operated.Undisturbed (.boot stack rate) (pre ++ [l]) := by
      obtain ⟨rest, rfl⟩ := hpre
      exact (steps_append.mp hun).1
    obtain ⟨hunpre', hunl⟩ := steps_append.mp hunpre
    have hall := hordered (fun pre' l' hpre' => ⟨hunpre' pre' l' hpre', hgood pre' l' hpre'⟩)
    have hpaced : ∀ ax, ((run Operated.step (.boot stack rate) pre).controller.axis ax).Paced :=
      run_inv (fun o : Operated => ∀ ax, (o.controller.axis ax).Paced) (fun _ l hp => paced_step hp l) (paced_boot stack rate) pre
    obtain ⟨rest, hsteps, heffect⟩ := exists_not_effect hall.last hpaced (steps_cons.mp hunl).1 hbad
    refine ⟨pre ++ [l], rest, hpre, ?_, ?_⟩
    · refine steps_append.mpr ⟨hunpre, ?_⟩
      rw [run_append]
      exact hsteps
    · intro hallways
      have hend := hallways.last
      rw [run_append, run_append] at hend
      exact heffect hend

/-- A frame that changes nothing but the velocity leaves the arm at the frequency of the frame before. -/
theorem free_run_ignored :
    ¬∀ (stack : HMICmdVar) (rate : UInt32) (sched : List ControllerLabel),
      Steps Operated.step Operated.Undisturbed (.boot stack rate) sched →
        Always Operated.step Operated.TakesEffect (.boot stack rate) sched := by
  intro h
  have heffect := (h bootCmd.stored 204000000 faster (by decide +kernel)).last
  have hruns := heffect (armFrame 8) .arm (by decide +kernel) ⟨rfl, rfl, rfl⟩ (by decide +kernel) (by decide +kernel)
  exact absurd hruns.freq (by decide +kernel)

end Rtu

import Rtu.Lemmas.Backlog
import Rtu.Lemmas.Supervise

/-!
# Axes that have arrived

`already_there` is cleared when the command task takes a message, and set when the axis is at the set point; nothing else writes it. So
an axis that has arrived stays there until it is sent a message (`Controller.Arrived.turn`), and one that has been sent a
positioning can arrive, or be under way, as the readings are (`exists_arrived`, `exists_underWay`).
-/

namespace Rtu

open Runs

/-! ## The flag -/

/-- The axis has taken what was on its way to it, and its flag is set. -/
def Controller.Arrived (c : Controller) (ax : Axis) : Prop := c.backlog ax = [] ∧ (c.axis ax).me.alreadyThere = true

/-- A supervision sets the flag or leaves it. -/
theorem alreadyThere_supervise {t : AxisTasks} (h : t.me.alreadyThere = true) (raw : UInt16) (stallDetection : Bool) :
    (t.supervise raw stallDetection).me.alreadyThere = true := by
  have hcheck : (motPapStallCheck (motPapReadCorrectedPos t.me raw) stallDetection).1.alreadyThere = true := by
    rcases stallCheck_cases (motPapReadCorrectedPos t.me raw) stallDetection with ⟨-, heq⟩ | ⟨-, heq⟩ <;> rw [heq] <;> exact h
  have hfollow : ∀ me : MotPap, me.alreadyThere = true → (motPapFollow me).1.alreadyThere = true := by
    intro me hme
    have hslow : me.slowDown.alreadyThere = true := (slowDown_frame me).2.2.2.2.2.1.trans hme
    unfold motPapFollow
    split
    · split
      · rfl
      · split
        · exact hslow
        · exact hslow
    · exact hme
  unfold AxisTasks.supervise motPapSupervise
  cases t.sup with
  | some dir => exact h
  | none =>
    dsimp only
    split
    · exact hcheck
    · exact hfollow _ hcheck

/-- The resumption of a command leaves the flag. -/
theorem alreadyThere_cmdResume {t : AxisTasks} (h : t.me.alreadyThere = true) : t.cmdResume.me.alreadyThere = true := by
  unfold AxisTasks.cmdResume
  split
  · exact h
  · rename_i k hk
    cases k <;> exact h

/-- So does that of the supervisor. -/
theorem alreadyThere_supResume {t : AxisTasks} (h : t.me.alreadyThere = true) : t.supResume.me.alreadyThere = true := by
  unfold AxisTasks.supResume
  split <;> exact h

/-- An axis that has arrived stays there until it is sent a message. -/
theorem Controller.Arrived.turn {c c' : Controller} {ax : Axis} {l : ControllerLabel} (h : c.Arrived ax) (hturn : c.AxisTurn ax l c')
    (hquiet : ∀ i es, l = .tcp i → c.tcp.entered i = some es → toAxis ax es = []) : c'.Arrived ax := by
  obtain ⟨hempty, hthere⟩ := h
  cases hturn with
  | still htasks hbacklog => exact ⟨hbacklog.trans hempty, htasks ▸ hthere⟩
  | offset offset htasks hbacklog =>
    refine ⟨hbacklog.trans hempty, ?_⟩
    rw [htasks]
    exact hthere
  | enter i es hl henter htasks hbacklog =>
    rw [hquiet i es hl henter, List.append_nil] at hbacklog
    exact ⟨hbacklog.trans hempty, htasks ▸ hthere⟩
  | receive heap raw b hidle htasks hbacklog =>
    rw [hempty] at hbacklog
    cases hbacklog
  | cmdResume htasks hbacklog => exact ⟨hbacklog.trans hempty, htasks ▸ alreadyThere_cmdResume hthere⟩
  | supervise raw htasks hbacklog => exact ⟨hbacklog.trans hempty, htasks ▸ alreadyThere_supervise hthere raw _⟩
  | supResume hl htasks hbacklog => exact ⟨hbacklog.trans hempty, htasks ▸ alreadyThere_supResume hthere⟩
  | status raw htasks hbacklog =>
    refine ⟨hbacklog.trans hempty, ?_⟩
    rw [htasks]
    exact hthere

/-! ## Readings that decide -/

/-- At the set point. -/
theorem error_of_posAct {me : MotPap} (h : me.posAct = me.posCmd) : me.error.natAbs < motPapPosThreshold := by
  unfold MotPap.error
  rw [h]
  simp [motPapPosThreshold]

/-- A positioning taken at its set point. -/
theorem exists_receive_there {t : AxisTasks} (hidle : t.cmd = none) (hrdc : t.me.rdc = axisRdc) {msg : MotPapMsg}
    (htype : msg.type = .closedLoop) : ∃ raw, (t.receive msg raw).me.alreadyThere = true := by
  obtain ⟨raw, hpos⟩ := exists_at { t.me with stalled := false, stalledCounter := 0, alreadyThere := false } hrdc msg.closedLoopSetpoint
  refine ⟨raw, ?_⟩
  have hnear : ({ motPapReadCorrectedPos { t.me with stalled := false, stalledCounter := 0, alreadyThere := false } raw with
      posCmd := msg.closedLoopSetpoint } : MotPap).error.natAbs < motPapPosThreshold := error_of_posAct hpos
  unfold AxisTasks.receive axisTask
  rw [hidle, htype]
  dsimp only
  unfold motPapMoveClosedLoop MotPap.moveToPosCmd
  rw [if_pos hnear]
  rfl

/-- An axis under way to a set point. -/
structure AxisTasks.UnderWay (t : AxisTasks) : Prop where
  type : t.me.type = .closedLoop
  notThere : t.me.alreadyThere = false
  rdc : t.me.rdc = axisRdc

/-- A positioning taken away from its set point. -/
theorem exists_receive_away {t : AxisTasks} (hidle : t.cmd = none) (hrdc : t.me.rdc = axisRdc) {msg : MotPapMsg}
    (htype : msg.type = .closedLoop) : ∃ raw, (t.receive msg raw).cmdResume.UnderWay := by
  obtain ⟨raw, haway⟩ := exists_away { t.me with stalled := false, stalledCounter := 0, alreadyThere := false } hrdc msg.closedLoopSetpoint
  refine ⟨raw, ?_⟩
  unfold AxisTasks.receive axisTask
  rw [hidle, htype]
  dsimp only
  unfold motPapMoveClosedLoop MotPap.moveToPosCmd
  rw [if_neg haway]
  split
  · exact ⟨rfl, rfl, hrdc⟩
  · exact ⟨rfl, rfl, hrdc⟩

/-- A supervision at the set point. -/
theorem exists_supervise_there {t : AxisTasks} (h : t.UnderWay) (hsup : t.sup = none) :
    ∃ raw, (t.supervise raw false).me.alreadyThere = true := by
  obtain ⟨raw, hpos⟩ := exists_at t.me h.rdc t.me.posCmd
  refine ⟨raw, ?_⟩
  have hnear : (motPapReadCorrectedPos t.me raw).error.natAbs < motPapPosThreshold := error_of_posAct hpos
  have htype : (motPapReadCorrectedPos t.me raw).type = .closedLoop := h.type
  unfold AxisTasks.supervise motPapSupervise motPapStallCheck motPapFollow
  rw [hsup]
  simp only [Bool.false_eq_true, if_false, if_pos htype, if_pos hnear]
  rfl

/-! ## Runs of the command task -/

/-- Where the thread is in no producer, what is on its way to an axis is in its queue. -/
theorem backlog_eq_queued {c : Controller} (h : c.tcp.pc.phase.pending = []) (ax : Axis) : c.backlog ax = c.queued ax := by
  unfold Controller.backlog
  rw [h, toAxis_nil, List.append_nil]

theorem type_read {b : MotPapBlock} {t : MotPapType} (h : b.type = some t) (heap : MotPapMsg) : (b.read heap).type = t := by
  simp [MotPapBlock.read, h]

section NewestTaken

variable {c : Controller} {ax : Axis}

/-- The command task comes to the newest of its messages, and takes that at any reading. -/
theorem exists_newest_taken (hpending : c.tcp.pc.phase.pending = []) (hrdc : c.RdcOk) {b : MotPapBlock}
    (hlast : (c.backlog ax).getLast? = some b) :
    ∃ (sched : List ControllerLabel) (t : AxisTasks), t.cmd = none ∧ t.me.rdc = axisRdc ∧
      ∀ raw, (∀ l ∈ sched ++ [.receive ax ⟨.stop, .cw, 0, 0⟩ raw], l.OfCommandTask ax) ∧
        (run Controller.step c (sched ++ [.receive ax ⟨.stop, .cw, 0, 0⟩ raw])).backlog ax = [] ∧
        (run Controller.step c (sched ++ [.receive ax ⟨.stop, .cw, 0, 0⟩ raw])).axis ax =
          t.receive (b.read ⟨.stop, .cw, 0, 0⟩) raw := by
  rw [backlog_eq_queued hpending] at hlast
  obtain ⟨items, hitems⟩ := List.getLast?_eq_some_iff.mp hlast
  obtain ⟨sched, hsched, hone, hidle⟩ := exists_taken hitems
  have hrdc' : (run Controller.step c sched).RdcOk := run_inv Controller.RdcOk (fun _ l h => rdcOk_step h l) hrdc sched
  refine ⟨sched, (run Controller.step c sched).axis ax, hidle, hrdc' ax, ?_⟩
  intro raw
  have hall : ∀ l ∈ sched ++ [.receive ax ⟨.stop, .cw, 0, 0⟩ raw], l.OfCommandTask ax := by
    intro l hl
    rcases List.mem_append.mp hl with hmem | hmem
    · exact hsched l hmem
    · rw [List.mem_singleton.mp hmem]
      rfl
  have hpending' : (run Controller.step c (sched ++ [.receive ax ⟨.stop, .cw, 0, 0⟩ raw])).tcp.pc.phase.pending = [] := by
    rw [(commandFrame_run c hall).tcp]
    exact hpending
  obtain ⟨hempty, haxis⟩ := receive_of_queued hidle hone ⟨.stop, .cw, 0, 0⟩ raw
  refine ⟨hall, ?_, ?_⟩
  · rw [backlog_eq_queued hpending', run_snoc]
    exact hempty
  · rw [run_snoc]
    exact haxis

/-- An axis whose newest message is a positioning, or whose flag is set, can arrive. -/
theorem exists_arrived (hpending : c.tcp.pc.phase.pending = []) (hrdc : c.RdcOk)
    (hlast : ∀ b, (c.backlog ax).getLast? = some b → b.type = some .closedLoop)
    (hthere : c.backlog ax = [] → (c.axis ax).me.alreadyThere = true) :
    ∃ sched : List ControllerLabel, (∀ l ∈ sched, l.OfCommandTask ax) ∧ (run Controller.step c sched).Arrived ax := by
  cases hb : (c.backlog ax).getLast? with
  | none =>
    have hempty : c.backlog ax = [] := List.getLast?_eq_none_iff.mp hb
    refine ⟨[], ?_, hempty, hthere hempty⟩
    intro l hl
    cases hl
  | some b =>
    obtain ⟨sched, t, hidle, hrdc', htaken⟩ := exists_newest_taken hpending hrdc hb
    obtain ⟨raw, hflag⟩ := exists_receive_there hidle hrdc' (type_read (hlast b hb) ⟨.stop, .cw, 0, 0⟩)
    obtain ⟨hall, hempty, haxis⟩ := htaken raw
    refine ⟨_, hall, hempty, ?_⟩
    rw [haxis]
    exact hflag

/-- An axis whose newest message is a positioning can be brought under way. -/
theorem exists_underWay (hpending : c.tcp.pc.phase.pending = []) (hrdc : c.RdcOk) {b : MotPapBlock}
    (hlast : (c.backlog ax).getLast? = some b) (htype : b.type = some .closedLoop) :
    ∃ sched : List ControllerLabel, (∀ l ∈ sched, l.OfCommandTask ax) ∧ (run Controller.step c sched).backlog ax = [] ∧
      ((run Controller.step c sched).axis ax).UnderWay := by
  obtain ⟨sched, t, hidle, hrdc', htaken⟩ := exists_newest_taken hpending hrdc hlast
  obtain ⟨raw, haway⟩ := exists_receive_away hidle hrdc' (type_read htype ⟨.stop, .cw, 0, 0⟩)
  obtain ⟨hall, hempty, haxis⟩ := htaken raw
  have hrun : run Controller.step c (sched ++ [.receive ax ⟨.stop, .cw, 0, 0⟩ raw] ++ [.cmdResume ax]) =
      (run Controller.step c (sched ++ [.receive ax ⟨.stop, .cw, 0, 0⟩ raw])).setAxis ax
        (t.receive (b.read ⟨.stop, .cw, 0, 0⟩) raw).cmdResume := by
    rw [← haxis]
    exact run_snoc Controller.step c _ _
  refine ⟨sched ++ [.receive ax ⟨.stop, .cw, 0, 0⟩ raw] ++ [.cmdResume ax], ?_, ?_, ?_⟩
  · intro l hl
    rcases List.mem_append.mp hl with hmem | hmem
    · exact hall l hmem
    · rw [List.mem_singleton.mp hmem]
      rfl
  · rw [hrun, backlog_setAxis]
    exact hempty
  · rw [hrun, axis_setAxis_self]
    exact haway

end NewestTaken

/-! ## Two axes apart -/

theorem sup_supResume (t : AxisTasks) : t.supResume.sup = none := by
  unfold AxisTasks.supResume
  split
  · assumption
  · rfl

theorem not_tcp_of_commandTask {ax : Axis} {l : ControllerLabel} (h : l.OfCommandTask ax) (i : TcpInput) : l ≠ .tcp i := by
  rintro rfl
  exact h

/-- One axis has arrived, and the other is under way, its supervisor at its semaphore. -/
structure Controller.Apart (c : Controller) (ax bx : Axis) : Prop where
  arrived : c.Arrived bx
  empty : c.backlog ax = []
  underWay : (c.axis ax).UnderWay
  sup : (c.axis ax).sup = none

/-- Two axes whose newest messages are positionings can be brought apart. -/
theorem exists_apart {c : Controller} {ax bx : Axis} (hne : bx ≠ ax) (hpending : c.tcp.pc.phase.pending = []) (hrdc : c.RdcOk)
    (hlast : ∀ ax b, (c.backlog ax).getLast? = some b → b.type = some .closedLoop) (hbacklog : c.backlog ax ≠ [])
    (hthere : (c.axis bx).me.alreadyThere = true) :
    ∃ sched : List ControllerLabel, (∀ l ∈ sched, ∀ i, l ≠ .tcp i) ∧ (run Controller.step c sched).Apart ax bx := by
  -- the supervisor goes on, then the other axis arrives, then this one is brought under way
  have hresumed : ∀ ax', (c.step (.supResume ax)).backlog ax' = c.backlog ax' := fun ax' => backlog_setAxis c ax ax' _
  have hpending₁ : (c.step (.supResume ax)).tcp.pc.phase.pending = [] := by
    show (c.setAxis ax _).tcp.pc.phase.pending = []
    rw [tcp_setAxis]
    exact hpending
  have hthere₁ : ((c.step (.supResume ax)).axis bx).me.alreadyThere = true := by
    show ((c.setAxis ax _).axis bx).me.alreadyThere = true
    rw [axis_setAxis_ne c _ hne]
    exact hthere
  have hsup₁ : ((c.step (.supResume ax)).axis ax).sup = none := by
    show ((c.setAxis ax _).axis ax).sup = none
    rw [axis_setAxis_self]
    exact sup_supResume _
  obtain ⟨first, hfirst, harrived⟩ := exists_arrived hpending₁ (rdcOk_step hrdc (.supResume ax))
    (fun b hb => hlast bx b (hresumed bx ▸ hb)) (fun _ => hthere₁)
  obtain ⟨htcp₂, -, haxis₂, hqueued₂⟩ := commandFrame_run (c.step (.supResume ax)) hfirst
  have hpending₂ : (run Controller.step (c.step (.supResume ax)) first).tcp.pc.phase.pending = [] := htcp₂ ▸ hpending₁
  have hbacklog₂ : (run Controller.step (c.step (.supResume ax)) first).backlog ax = c.backlog ax := by
    rw [← hresumed ax, backlog_eq_queued hpending₂, backlog_eq_queued hpending₁]
    exact hqueued₂ ax hne.symm
  obtain ⟨b, hb⟩ : ∃ b, (c.backlog ax).getLast? = some b := ⟨_, List.getLast?_eq_some_getLast hbacklog⟩
  have hrdc₂ : (run Controller.step (c.step (.supResume ax)) first).RdcOk :=
    run_inv Controller.RdcOk (fun _ l h => rdcOk_step h l) (rdcOk_step hrdc (.supResume ax)) first
  obtain ⟨second, hsecond, hempty, hunderWay⟩ := exists_underWay hpending₂ hrdc₂ (hbacklog₂ ▸ hb) (hlast ax b hb)
  obtain ⟨htcp₃, hsup₃, haxis₃, hqueued₃⟩ := commandFrame_run (run Controller.step (c.step (.supResume ax)) first) hsecond
  have hpending₃ : (run Controller.step (run Controller.step (c.step (.supResume ax)) first) second).tcp.pc.phase.pending = [] :=
    htcp₃ ▸ hpending₂
  refine ⟨.supResume ax :: (first ++ second), ?_, ?_⟩
  · intro l hl i
    rcases List.mem_cons.mp hl with rfl | hl
    · intro h
      cases h
    · rcases List.mem_append.mp hl with hmem | hmem
      · exact not_tcp_of_commandTask (hfirst l hmem) i
      · exact not_tcp_of_commandTask (hsecond l hmem) i
  · rw [run_cons, run_append]
    refine ⟨⟨?_, ?_⟩, hempty, hunderWay, ?_⟩
    · rw [backlog_eq_queued hpending₃, hqueued₃ bx hne, ← backlog_eq_queued hpending₂]
      exact harrived.1
    · rw [haxis₃ bx hne]
      exact harrived.2
    · rw [hsup₃, haxis₂ ax hne.symm]
      exact hsup₁

/-- The supervisor of the one finds it at its set point: both have arrived. -/
theorem Controller.Apart.exists_supervise {c : Controller} {ax bx : Axis} (h : c.Apart ax bx) (hne : bx ≠ ax)
    (hstall : c.stallDetection = false) :
    ∃ raw, (c.step (.supervise ax raw)).Arrived ax ∧ (c.step (.supervise ax raw)).Arrived bx := by
  obtain ⟨raw, hthere⟩ := exists_supervise_there h.underWay h.sup
  obtain ⟨hself, hother, hbacklog⟩ := supervise_frame c ax raw
  rw [hstall] at hself
  refine ⟨raw, ⟨(hbacklog ax).trans h.empty, hself ▸ hthere⟩, (hbacklog bx).trans h.arrived.1, ?_⟩
  rw [hother bx hne]
  exact h.arrived.2

end Rtu

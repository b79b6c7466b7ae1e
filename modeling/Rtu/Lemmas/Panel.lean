import Rtu.Lemmas.Dispatch
import Rtu.Lemmas.NetValues
import Rtu.Lemmas.TcpThread
import Rtu.Panel

/-!
# The panel refines the abstract connection

`panel_refines` says once what a step of the panel can do; every invariant of the panel is one of `Conn.Step`.
-/

namespace Rtu

/-- The static variables hold the last call. -/
def Panel.Tracked (p : Panel) : Prop := p.tcp.statics = .of p.conn.prev

@[simp] theorem conn_phase (p : Panel) : p.conn.phase = p.tcp.pc.phase := rfl

/-- What a step of the thread does to the devices. -/
theorem sent_tcp (p : Panel) (i : TcpInput) : (p.step (.tcp i)).sent = p.sent.perform (p.tcp.effect i) := rfl

/-- A step of the panel is one of the abstract connection, and the static variables hold the last call after it. -/
def Panel.Refines (p : Panel) (l : PanelLabel) : Prop := p.conn.Step (p.observe l) (p.step l).conn ∧ (p.step l).Tracked

/-- Every step of the thread is one of the abstract connection. -/
theorem refines_tcp {p : Panel} (h : p.Tracked) (i : TcpInput) : p.Refines (.tcp i) := by
  obtain ⟨s, sent, call, frame⟩ := p
  have hmove := s.move i
  unfold Panel.Refines Panel.observe Panel.step TcpState.called
  dsimp only
  generalize s.step i = s' at hmove ⊢
  generalize s.effect i = e at hmove ⊢
  generalize s.events i = evs at hmove ⊢
  cases hmove with
  | accept st v stack status => exact ⟨.accept rfl, h⟩
  | accepted st v status mem len cmd hok =>
    have htrigger : taskTriggerMsg st cmd = (.of cmd, settings cmd ++ dispatch (call.getD bootCmd) cmd) := by
      rw [show st = .of (call.getD bootCmd) from h, taskTriggerMsg_eq]
    rw [htrigger]
    exact ⟨.call cmd rfl, rfl⟩
  | trigger e es st v status => exact ⟨.trigger e es rfl, h⟩
  | triggered st v status => exact ⟨.triggered rfl, h⟩
  | recvError st v status herr | fail st v hstatus => exact ⟨.fail rfl, h⟩
  | stop e es st v status => exact ⟨.stop e es rfl, h⟩
  | stopped st v status => exact ⟨.stopped rfl, h⟩
  | close st v status => exact ⟨.close rfl, h⟩
  | _ => exact ⟨.skip, h⟩

/-- Every step of the panel is one of the abstract connection. -/
theorem panel_refines {p : Panel} (h : p.Tracked) (l : PanelLabel) : p.Refines l := by
  cases l with
  | tcp i => exact refines_tcp h i
  | stallTrip => exact ⟨.stallTrip, h⟩

theorem tracked_boot (stack : HMICmdVar) : (Panel.boot stack).Tracked := statics_boot

/-! ## Calls -/

/-- A step that calls `TaskTriggerMsg` makes no call on the devices yet. -/
theorem effect_of_called {p : Panel} {i : TcpInput} {cmd : HMICmd} (h : p.tcp.called i = some cmd) :
    p.tcp.effect i = none := by
  cases he : p.tcp.effect i with
  | none => rfl
  | some e =>
    have hevents : p.tcp.events i = [] := TcpState.events_of_effect he
    simp [TcpState.called, hevents] at h

/-- A step that calls `TaskTriggerMsg` is seen as that. -/
theorem observe_called {p : Panel} {i : TcpInput} {cmd : HMICmd} (h : p.tcp.called i = some cmd) :
    p.observe (.tcp i) = .call cmd := by
  simp [Panel.observe, effect_of_called h, h]

/-- After a call of `TaskTriggerMsg`, the thread has the calls of `dispatch` before it. -/
theorem calling_of_call {p : Panel} {l : PanelLabel} {cmd : HMICmd} (h : p.conn.Step (.call cmd) (p.step l).conn) :
    ∃ es, (p.step l).tcp.pc = .trigger es ∧ es = settings cmd ++ dispatch p.conn.prev cmd := by
  generalize hc : (p.step l).conn = c at h
  cases h with
  | call _ hphase =>
    have hp : (p.step l).tcp.pc.phase = .calling (settings cmd ++ dispatch p.conn.prev cmd) := by
      rw [← conn_phase, hc]
    cases hpc : (p.step l).tcp.pc <;> simp [hpc] at hp
    exact ⟨_, rfl, hp⟩

/-- A step that is seen as a call of `TaskTriggerMsg` is one. -/
theorem called_of_observe {p : Panel} {l : PanelLabel} {cmd : HMICmd} (h : p.observe l = .call cmd) :
    ∃ i, l = .tcp i ∧ p.tcp.called i = some cmd := by
  cases l with
  | stallTrip => cases h
  | tcp i =>
    refine ⟨i, rfl, ?_⟩
    unfold Panel.observe at h
    cases he : p.tcp.effect i <;> cases hcalled : p.tcp.called i <;> simp [he, hcalled] at h
    rw [h]

theorem stallTrip_of_observe {p : Panel} {l : PanelLabel} (h : p.observe l = .stallTrip) : l = .stallTrip := by
  cases l with
  | stallTrip => rfl
  | tcp i =>
    unfold Panel.observe at h
    cases he : p.tcp.effect i <;> cases hcalled : p.tcp.called i <;> simp [he, hcalled] at h

end Rtu

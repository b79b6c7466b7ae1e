import Rtu.Lemmas.Panel

/-!
# Motion and power

`TaskTriggerMsg` powers the drives on a rising edge of the enable, seen against its static variables. `prvEmergencyStop` and a
stall trip cut the power and leave the static variables, so that an enabled frame after one of them is no edge: it may send a motion
with the relay off. The condition below is on what has come since the last edge, and says nothing of the relay. That the relay is on
where it matters is proved from it, by an invariant that ties the relay to that history in every phase of a connection.
-/

namespace Rtu

/-! ## Motion -/

/-- A message of type FREE_RUNNING or CLOSED_LOOP to an axis. -/
def Effect.Motion : Effect → Prop
  | .armQueueSend m | .poleQueueSend m => m.type = some .freeRunning ∨ m.type = some .closedLoop
  | _ => False

/-- An enabled frame whose mode moves an axis. -/
def HMICmd.MovesAxis (cmd : HMICmd) : Prop := cmd.ctrlEn = .eEnable ∧ (cmd.mode = .eFreeRun ∨ cmd.mode = .eAuto)

/-- The relay after a call. -/
def relayAfter (relay : Bool) : Effect → Bool
  | .relayMainPwr state => state
  | _ => relay

/-- Each motion among some calls is sent with the relay on, given how the relay is before them. -/
def PoweredCalls (relay : Bool) : List Effect → Prop
  | [] => True
  | e :: es => (e.Motion → relay = true) ∧ PoweredCalls (relayAfter relay e) es

/-- A step that sends a motion is taken with the relay on. -/
def Panel.UnderPower (p : Panel) : PanelLabel → Prop
  | .tcp i => ∀ e, p.tcp.effect i = some e → e.Motion → p.sent.relay = true
  | .stallTrip => True

/-! ## What has come since the last edge -/

/-- The panel, and whether a stall trip or the end of a connection has come since the last disabled-to-enabled frame. -/
structure PowerWatch where
  panel : Panel
  cut : Bool

/-- Boot. -/
def PowerWatch.boot (stack : HMICmdVar) : PowerWatch := { panel := .boot stack, cut := false }

/-- What an event changes: a disabled-to-enabled frame starts afresh, and a connection ends. -/
@[simp] def cutAfter (prev : HMICmd) (cut : Bool) : TcpEvent → Bool
  | .trigger cmd => if prev.ctrlEn = .eDisable ∧ cmd.ctrlEn = .eEnable then false else cut
  | .closed => true
  | _ => cut

/-- One step. A stall that trips within a call, before its call on the relay, has come before the edge. -/
def PowerWatch.step (w : PowerWatch) : PanelLabel → PowerWatch
  | .tcp i =>
    { panel := w.panel.step (.tcp i), cut := (w.panel.tcp.events i).foldl (cutAfter w.panel.conn.prev) w.cut }
  | .stallTrip =>
    { panel := w.panel.step .stallTrip, cut := w.cut || decide (.relayMainPwr true ∉ w.panel.tcp.pc.phase.pending) }

/-- `TaskTriggerMsg` is called with a changed frame that moves an axis, after a call with an enabled frame, only if no stall has
tripped and no connection has ended since the last disabled-to-enabled frame; and a stall trips within a call that has a motion
still to send only before its call on the relay. -/
def PowerWatch.Kept (w : PowerWatch) : PanelLabel → Prop
  | .tcp i => ∀ cmd, w.panel.tcp.called i = some cmd → cmd.MovesAxis → w.panel.conn.prev.ctrlEn = .eEnable →
      ¬w.panel.conn.prev.Unchanged cmd → w.cut = false
  | .stallTrip => (∃ e ∈ w.panel.tcp.pc.phase.pending, e.Motion) → .relayMainPwr true ∈ w.panel.tcp.pc.phase.pending

/-- No stall trips and no connection ends. -/
def Panel.Undisturbed (p : Panel) : PanelLabel → Prop
  | .tcp i => .closed ∉ p.tcp.events i
  | .stallTrip => False

namespace UnderPowerAux

/-- Calls without a motion. -/
theorem powered_of_still {es : List Effect} (h : ∀ e ∈ es, ¬e.Motion) (relay : Bool) : PoweredCalls relay es := by
  induction es generalizing relay with
  | nil => trivial
  | cons e es ih =>
    exact ⟨fun hm => absurd hm (h e List.mem_cons_self), ih (fun e' he' => h e' (List.mem_cons_of_mem e he')) _⟩

theorem still_stopSends (cmd : HMICmd) (devs : List Device) : ∀ e ∈ devs.map (stopSend cmd), ¬e.Motion := by
  intro e he
  obtain ⟨dev, -, rfl⟩ := List.mem_map.mp he
  cases dev <;> simp [stopSend, Effect.Motion, armBlock, poleBlock]

theorem still_emergencyStop : ∀ e ∈ prvEmergencyStop, ¬e.Motion := by
  intro e he
  simp only [prvEmergencyStop, List.mem_cons, List.not_mem_nil, or_false] at he
  rcases he with rfl | rfl | rfl | rfl <;> simp [Effect.Motion]

/-- The settings send nothing and do not touch the relay. -/
theorem powered_settings (cmd : HMICmd) (relay : Bool) (es : List Effect) :
    PoweredCalls relay (settings cmd ++ es) ↔ PoweredCalls relay es := by
  unfold settings
  split <;> simp [PoweredCalls, Effect.Motion, relayAfter]

/-- What a mode sends is sent with the relay on if it is, and if it is off only a mode that moves an axis sends a motion. -/
theorem powered_modeSends (prev cmd : HMICmd) (relay : Bool) :
    PoweredCalls relay (modeSends prev cmd) ↔ (cmd.mode = .eFreeRun ∨ cmd.mode = .eAuto → relay = true) := by
  unfold modeSends
  cases hm : cmd.mode with
  | eStop => simp [powered_of_still (still_stopSends cmd _)]
  | eFreeRun => cases cmd.freeRunAxis <;> simp [PoweredCalls, Effect.Motion, armBlock, poleBlock]
  | eAuto => simp [PoweredCalls, Effect.Motion, armBlock, poleBlock, relayAfter]
  | eLift => simp [PoweredCalls, Effect.Motion]

/-- A call of `TaskTriggerMsg` sends each motion with the relay on exactly when it does not have to rely on it, or it is on. -/
theorem powered_dispatch (prev cmd : HMICmd) (relay : Bool) :
    PoweredCalls relay (settings cmd ++ dispatch prev cmd) ↔
      (cmd.MovesAxis → prev.ctrlEn = .eEnable → ¬prev.Unchanged cmd → relay = true) := by
  rw [powered_settings]
  unfold dispatch HMICmd.MovesAxis
  cases hp : prev.ctrlEn <;> cases hc : cmd.ctrlEn
  · simp [PoweredCalls]
  · simp [PoweredCalls, Effect.Motion, relayAfter, powered_modeSends]
  · have hstill : ∀ e ∈ [Device.arm, .pole, .lift].map (stopSend cmd), ¬e.Motion := still_stopSends cmd _
    simp only [PoweredCalls, powered_of_still hstill]
    simp [Effect.Motion]
  · by_cases hun : prev.Unchanged cmd
    · simp [hun, PoweredCalls]
    · simp [hun, powered_modeSends]

/-! ### By the relay -/

/-- The relay is on where a motion will rely on it. -/
def PowerKept (p : Panel) : PanelLabel → Prop
  | .tcp i => ∀ cmd, p.tcp.called i = some cmd → cmd.MovesAxis → p.conn.prev.ctrlEn = .eEnable →
      ¬p.conn.prev.Unchanged cmd → p.sent.relay = true
  | .stallTrip => PoweredCalls false p.tcp.pc.phase.pending

/-- The calls that the thread has still to make send each motion with the relay on. -/
def Ready (p : Panel) : Prop := p.Tracked ∧ PoweredCalls p.sent.relay p.tcp.pc.phase.pending

theorem relay_call (s : Sent) (e : Effect) : (s.call e).relay = relayAfter s.relay e := by
  cases e <;> rfl

/-- A step that meets the condition keeps it. -/
theorem ready_step {p : Panel} {l : PanelLabel} (h : Ready p) (hkept : PowerKept p l) : Ready (p.step l) := by
  obtain ⟨htracked, hpowered⟩ := h
  obtain ⟨hstep, htracked'⟩ := panel_refines htracked l
  refine ⟨htracked', ?_⟩
  show PoweredCalls (p.step l).conn.sent.relay (p.step l).conn.phase.pending
  have hpowered' : PoweredCalls p.conn.sent.relay p.conn.phase.pending := hpowered
  generalize hobserve : p.observe l = ev at hstep
  generalize (p.step l).conn = c' at hstep
  cases hstep with
  | skip => exact hpowered'
  | accept _ | triggered _ | stopped _ | close _ => trivial
  | call cmd hphase =>
    obtain ⟨i, rfl, hcalled⟩ := called_of_observe hobserve
    exact (powered_dispatch p.conn.prev cmd p.sent.relay).mpr (hkept cmd hcalled)
  | trigger e es hphase | stop e es hphase =>
    rw [hphase] at hpowered'
    show PoweredCalls (p.conn.sent.call e).relay es
    rw [relay_call]
    exact hpowered'.2
  | fail hphase => exact powered_of_still still_emergencyStop _
  | stallTrip =>
    have hl : l = .stallTrip := stallTrip_of_observe hobserve
    subst hl
    exact hkept

/-- Ready calls are made under power. -/
theorem underPower_of_ready {p : Panel} (h : Ready p) (l : PanelLabel) : p.UnderPower l := by
  cases l with
  | stallTrip => trivial
  | tcp i =>
    intro e he hm
    obtain ⟨es, hes⟩ := TcpState.pending_of_effect he
    have hpowered := h.2
    rw [hes] at hpowered
    exact hpowered.1 hm

theorem ready_boot (stack : HMICmdVar) : Ready (.boot stack) := ⟨tracked_boot stack, trivial⟩

/-- A step that does not meet the condition leaves calls that send a motion with the relay off. -/
theorem not_powered_of_not_kept {p : Panel} {l : PanelLabel} (htracked : p.Tracked) (hkept : ¬PowerKept p l) :
    ¬PoweredCalls (p.step l).sent.relay (p.step l).tcp.pc.phase.pending := by
  cases l with
  | stallTrip => exact hkept
  | tcp i =>
    intro hpowered
    apply hkept
    intro cmd hcalled
    obtain ⟨hstep, -⟩ := panel_refines htracked (.tcp i)
    rw [observe_called hcalled] at hstep
    obtain ⟨es, hpc, hes⟩ := calling_of_call hstep
    have hrelay : (p.step (.tcp i)).sent.relay = p.sent.relay := by
      rw [sent_tcp, effect_of_called hcalled]
      rfl
    rw [hrelay, hpc, hes] at hpowered
    exact (powered_dispatch p.conn.prev cmd p.sent.relay).mp hpowered

/-- The calls that remain of a producer, made one after the other. -/
theorem not_underPower_of_pending {p : Panel} {es : List Effect} (hpending : p.tcp.pc.phase.pending = es)
    (h : ¬PoweredCalls p.sent.relay es) : ∃ rest, ¬Runs.Steps Panel.step Panel.UnderPower p rest := by
  induction es generalizing p with
  | nil => exact absurd trivial h
  | cons e es ih =>
    obtain ⟨heffect, hnext⟩ := TcpState.run_of_pending hpending
    by_cases hm : e.Motion → p.sent.relay = true
    · have hrest : ¬PoweredCalls (p.step (.tcp .run)).sent.relay es := by
        have hrelay : (p.step (.tcp .run)).sent.relay = relayAfter p.sent.relay e := by
          rw [sent_tcp, heffect]
          exact relay_call p.sent e
        rw [hrelay]
        exact fun hpowered => h ⟨hm, hpowered⟩
      obtain ⟨rest, hsteps⟩ := ih (p := p.step (.tcp .run)) hnext hrest
      exact ⟨.tcp .run :: rest, fun hall => hsteps (Runs.steps_cons.mp hall).2⟩
    · refine ⟨[.tcp .run], ?_⟩
      intro hall
      exact hm ((Runs.steps_cons.mp hall).1 e heffect)

/-! ### From the history to the relay -/

/-- The calls for an enabled frame: at most one on the relay, which switches it on, with no motion before it. -/
def Enabling : List Effect → Prop
  | [] => True
  | .relayMainPwr state :: es => state = true ∧ ∀ b, .relayMainPwr b ∉ es
  | e :: es => (e.Motion → ∀ b, .relayMainPwr b ∉ es) ∧ Enabling es

theorem enabling_of_no_relay {es : List Effect} (h : ∀ b, .relayMainPwr b ∉ es) : Enabling es := by
  induction es with
  | nil => trivial
  | cons e es ih =>
    have hrest : ∀ b, .relayMainPwr b ∉ es := fun b hb => h b (List.mem_cons_of_mem e hb)
    cases e with
    | relayMainPwr state => exact absurd List.mem_cons_self (h state)
    | _ => exact ⟨fun _ => hrest, ih hrest⟩

theorem Enabling.tail {e : Effect} {es : List Effect} (h : Enabling (e :: es)) : Enabling es := by
  cases e with
  | relayMainPwr state => exact enabling_of_no_relay h.2
  | _ => exact h.2

/-- Such a call leaves the relay on if it was, or if the call switches it on. -/
theorem Enabling.head {e : Effect} {es : List Effect} (h : Enabling (e :: es)) (relay : Bool) :
    (relayAfter relay e = true ∨ .relayMainPwr true ∈ es) ↔ (relay = true ∨ .relayMainPwr true ∈ e :: es) := by
  cases e with
  | relayMainPwr state =>
    obtain ⟨rfl, -⟩ := h
    simp [relayAfter]
  | _ => simp [relayAfter]

/-- Such calls send each motion with the relay on exactly when it is on, or they switch it on, if they send a motion at all. -/
theorem Enabling.powered {es : List Effect} (h : Enabling es) (relay : Bool) :
    PoweredCalls relay es ↔ ((∃ e ∈ es, e.Motion) → relay = true ∨ .relayMainPwr true ∈ es) := by
  induction es generalizing relay with
  | nil => simp [PoweredCalls]
  | cons e es ih =>
    rw [PoweredCalls, ih h.tail, h.head relay]
    by_cases hm : e.Motion
    · -- no call on the relay comes after a motion, and the motion is none
      have hoff : ∀ b, .relayMainPwr b ∉ e :: es := by
        cases e with
        | relayMainPwr state => exact absurd hm id
        | _ => simpa using h.1 hm
      simpa [hm, hoff] using fun hrelay _ _ _ => hrelay
    · simp [hm]

theorem no_relay_stopSends (cmd : HMICmd) (devs : List Device) (b : Bool) : .relayMainPwr b ∉ devs.map (stopSend cmd) := by
  intro h
  obtain ⟨dev, -, heq⟩ := List.mem_map.mp h
  cases dev <;> cases heq

theorem no_relay_modeSends (prev cmd : HMICmd) (b : Bool) : .relayMainPwr b ∉ modeSends prev cmd := by
  unfold modeSends
  cases cmd.mode with
  | eStop => exact no_relay_stopSends cmd _ b
  | eFreeRun => cases cmd.freeRunAxis <;> simp
  | eAuto => simp
  | eLift => simp

theorem no_relay_settings (cmd : HMICmd) (b : Bool) : .relayMainPwr b ∉ settings cmd := by
  unfold settings
  split <;> simp

theorem enabling_settings {cmd : HMICmd} {es : List Effect} (h : Enabling es) : Enabling (settings cmd ++ es) := by
  unfold settings
  split <;> simpa [Enabling, Effect.Motion] using h

/-- The calls for an enabled frame are such. -/
theorem enabling_dispatch (prev : HMICmd) {cmd : HMICmd} (h : cmd.ctrlEn = .eEnable) :
    Enabling (settings cmd ++ dispatch prev cmd) := by
  refine enabling_settings ?_
  unfold dispatch
  cases prev.ctrlEn with
  | eDisable =>
    rw [h]
    exact ⟨rfl, no_relay_modeSends prev cmd⟩
  | eEnable =>
    rw [h]
    refine enabling_of_no_relay fun b => ?_
    dsimp only
    split
    · exact List.not_mem_nil
    · exact no_relay_modeSends prev cmd b

/-- They switch the relay on exactly if the frame before was disabled. -/
theorem on_mem_dispatch (prev : HMICmd) {cmd : HMICmd} (h : cmd.ctrlEn = .eEnable) :
    .relayMainPwr true ∈ settings cmd ++ dispatch prev cmd ↔ prev.ctrlEn = .eDisable := by
  unfold dispatch
  rw [List.mem_append, or_iff_right (no_relay_settings cmd true), h]
  cases prev.ctrlEn with
  | eDisable => simp
  | eEnable =>
    dsimp only
    split <;> simp [no_relay_modeSends]

theorem still_dispatch (prev : HMICmd) {cmd : HMICmd} (h : cmd.ctrlEn = .eDisable) :
    ∀ e ∈ settings cmd ++ dispatch prev cmd, ¬e.Motion := by
  have hsettings : ∀ e ∈ settings cmd, ¬e.Motion := by
    unfold settings
    split <;> simp [Effect.Motion]
  intro e he
  rcases List.mem_append.mp he with he | he
  · exact hsettings e he
  · unfold dispatch at he
    rw [h] at he
    cases hp : prev.ctrlEn with
    | eDisable => simp [hp] at he
    | eEnable =>
      rw [hp] at he
      rcases List.mem_cons.mp he with rfl | he
      · exact id
      · exact still_stopSends cmd _ e he

/-- How the relay stands against the history, phase by phase. In the receive loop, after an enabled frame, it is on exactly if
nothing has come since the last edge; within a call for an enabled frame the same holds of what the call will leave. -/
def Held (prev : HMICmd) (relay cut : Bool) : Phase → Prop
  | .idle => relay = false ∧ (prev.ctrlEn = .eEnable → cut = true)
  | .receiving => prev.ctrlEn = .eEnable → (relay = true ↔ cut = false)
  | .calling es =>
    (prev.ctrlEn = .eEnable → Enabling es ∧ ((relay = true ∨ .relayMainPwr true ∈ es) ↔ cut = false)) ∧
      (prev.ctrlEn = .eDisable → ∀ e ∈ es, ¬e.Motion)
  | .stopping es => es <:+ prvEmergencyStop ∧ (es = [] → relay = false)
  | .closing => relay = false

/-- The static variables hold the last call, and the relay stands as it should. -/
structure Watched (w : PowerWatch) : Prop where
  tracked : w.panel.Tracked
  held : Held w.panel.conn.prev w.panel.sent.relay w.cut w.panel.tcp.pc.phase

theorem watched_boot (stack : HMICmdVar) : Watched (.boot stack) :=
  ⟨tracked_boot stack, rfl, fun h : bootCmd.ctrlEn = .eEnable => absurd h (by decide)⟩

/-- A call of `TaskTriggerMsg`. -/
theorem held_call {prev cmd : HMICmd} {relay cut : Bool} (h : Held prev relay cut .receiving) :
    Held cmd relay (if prev.ctrlEn = .eDisable ∧ cmd.ctrlEn = .eEnable then false else cut)
      (.calling (settings cmd ++ dispatch prev cmd)) := by
  refine ⟨fun hcmd => ⟨enabling_dispatch prev hcmd, ?_⟩, still_dispatch prev⟩
  rw [on_mem_dispatch prev hcmd]
  cases hp : prev.ctrlEn with
  | eDisable => simp [hcmd]
  | eEnable => simpa using h hp

/-- A call on the devices, within `TaskTriggerMsg`. -/
theorem held_trigger {prev : HMICmd} {sent : Sent} {cut : Bool} {e : Effect} {es : List Effect}
    (h : Held prev sent.relay cut (.calling (e :: es))) : Held prev (sent.call e).relay cut (.calling es) := by
  obtain ⟨henable, hdisable⟩ := h
  rw [relay_call]
  refine ⟨fun hp => ?_, fun hp e' he' => hdisable hp e' (List.mem_cons_of_mem e he')⟩
  obtain ⟨hes, hcut⟩ := henable hp
  exact ⟨hes.tail, (hes.head sent.relay).trans hcut⟩

/-- A call on the devices, within `prvEmergencyStop`. -/
theorem held_stop {prev : HMICmd} {sent : Sent} {cut : Bool} {e : Effect} {es : List Effect}
    (h : Held prev sent.relay cut (.stopping (e :: es))) : Held prev (sent.call e).relay cut (.stopping es) := by
  refine ⟨(List.suffix_cons e es).trans h.1, ?_⟩
  rintro rfl
  -- the last call is the one that cuts the power
  have hlast : e = .relayMainPwr false := by
    have hsuffix := List.suffix_iff_eq_drop.mp h.1
    simpa [prvEmergencyStop] using hsuffix
  rw [hlast]
  rfl

/-- A stall trip. -/
theorem held_stallTrip {prev : HMICmd} {relay cut : Bool} {ph : Phase} (h : Held prev relay cut ph) :
    Held prev false (cut || decide (.relayMainPwr true ∉ ph.pending)) ph := by
  cases ph with
  | idle => exact ⟨rfl, fun _ => by simp [Phase.pending]⟩
  | receiving => exact fun _ => by simp [Phase.pending]
  | calling es =>
    refine ⟨fun hp => ?_, h.2⟩
    obtain ⟨hes, hcut⟩ := h.1 hp
    refine ⟨hes, ?_⟩
    by_cases hon : .relayMainPwr true ∈ es
    · simpa [Phase.pending, hon] using hcut
    · simp [Phase.pending, hon]
  | stopping es => exact ⟨h.1, fun _ => rfl⟩
  | closing => rfl

/-- Every step of the thread keeps the relay as it should stand. -/
theorem watched_tcp {w : PowerWatch} (h : Watched w) (i : TcpInput) : Watched (w.step (.tcp i)) := by
  obtain ⟨htracked, hheld⟩ := h
  refine ⟨(panel_refines htracked (.tcp i)).2, ?_⟩
  obtain ⟨⟨s, sent, call, frame⟩, cut⟩ := w
  have hmove := s.move i
  unfold PowerWatch.step Panel.step Panel.conn
  dsimp only
  generalize s.step i = s' at hmove ⊢
  generalize s.effect i = e at hmove ⊢
  generalize s.events i = evs at hmove ⊢
  cases hmove with
  | accept st v stack status =>
    intro hp
    simp [show sent.relay = false from hheld.1, show cut = true from hheld.2 hp]
  | accepted st v status mem len cmd hok =>
    have hcalls : (taskTriggerMsg st cmd).2 = settings cmd ++ dispatch (call.getD bootCmd) cmd := by
      rw [show st = .of (call.getD bootCmd) from htracked, taskTriggerMsg_eq]
    rw [hcalls]
    exact held_call hheld
  | trigger e es st v status => exact held_trigger hheld
  | triggered st v status => exact fun hp => by simpa using (hheld.1 hp).2
  | recvError st v status herr | fail st v hstatus => exact ⟨List.suffix_refl _, fun hnil => absurd hnil (by decide)⟩
  | stop e es st v status => exact held_stop hheld
  | stopped st v status => exact hheld.2 rfl
  | close st v status => exact ⟨hheld, fun _ => rfl⟩
  | _ => exact hheld

theorem watched_step {w : PowerWatch} (h : Watched w) (l : PanelLabel) : Watched (w.step l) := by
  cases l with
  | tcp i => exact watched_tcp h i
  | stallTrip => exact ⟨h.tracked, held_stallTrip h.held⟩

/-- A step that calls `TaskTriggerMsg` is taken in the receive loop. -/
theorem receiving_of_called {s : TcpState} {i : TcpInput} {cmd : HMICmd} (h : s.called i = some cmd) : s.pc.phase = .receiving := by
  have hmove := s.move i
  unfold TcpState.called at h
  generalize s.step i = s' at hmove
  generalize s.effect i = e at hmove
  generalize s.events i = evs at hmove h
  cases hmove with
  | accepted st v status mem len cmd hok => rfl
  | _ => simp at h

/-- The condition on the history is the one on the relay. -/
theorem kept_iff {w : PowerWatch} (h : Watched w) (l : PanelLabel) : w.Kept l ↔ PowerKept w.panel l := by
  have hheld := h.held
  cases l with
  | tcp i =>
    refine forall_congr' fun cmd => forall_congr' fun hcalled => forall_congr' fun _ => forall_congr' fun hp => ?_
    rw [receiving_of_called hcalled] at hheld
    rw [show w.panel.sent.relay = true ↔ w.cut = false from hheld hp]
  | stallTrip =>
    simp only [PowerWatch.Kept, PowerKept]
    have hstill : (∀ e ∈ w.panel.tcp.pc.phase.pending, ¬e.Motion) →
        (((∃ e ∈ w.panel.tcp.pc.phase.pending, e.Motion) → .relayMainPwr true ∈ w.panel.tcp.pc.phase.pending) ↔
          PoweredCalls false w.panel.tcp.pc.phase.pending) := by
      intro hes
      exact iff_of_true (fun ⟨e, he, hm⟩ => absurd hm (hes e he)) (powered_of_still hes _)
    cases hph : w.panel.tcp.pc.phase with
    | idle | receiving | closing => exact iff_of_true (by simp [Phase.pending]) trivial
    | calling es =>
      rw [hph] at hheld hstill
      cases hp : w.panel.conn.prev.ctrlEn with
      | eDisable => exact hstill (hheld.2 hp)
      | eEnable => simpa [Phase.pending] using ((hheld.1 hp).1.powered false).symm
    | stopping es =>
      rw [hph] at hheld hstill
      exact hstill fun e he => still_emergencyStop e (hheld.1.subset he)

/-- The panel goes its way whatever is watched of it. -/
theorem panel_step (w : PowerWatch) (l : PanelLabel) : (w.step l).panel = w.panel.step l := by
  cases l <;> rfl

/-- The same of runs. -/
theorem steps_kept_iff (stack : HMICmdVar) (sched : List PanelLabel) :
    Runs.Steps PowerWatch.step PowerWatch.Kept (.boot stack) sched ↔ Runs.Steps Panel.step PowerKept (.boot stack) sched := by
  rw [Runs.steps_congr Watched (fun w l h _ => watched_step h l) (fun w l h => kept_iff h l) (watched_boot stack) sched]
  refine Runs.steps_iff_of_sim (fun w p => w.panel = p) ?_ ?_ rfl sched
  · rintro w p l rfl
    exact panel_step w l
  · rintro w p l rfl
    rfl

/-- Under the condition, every motion is sent with the relay on. -/
theorem underPower_of_kept {stack : HMICmdVar} {sched : List PanelLabel}
    (h : Runs.Steps PowerWatch.step PowerWatch.Kept (.boot stack) sched) :
    Runs.Steps Panel.step Panel.UnderPower (.boot stack) sched := by
  have hkept := (steps_kept_iff stack sched).mp h
  have hready := Runs.always_of_steps Ready (fun p l h hl => ready_step h hl) (ready_boot stack) hkept
  exact Runs.steps_of_always (fun p l h _ => underPower_of_ready h l) hready hkept

/-- A step without a stall trip and without the end of a connection leaves nothing in the history. -/
theorem uncut_step {w : PowerWatch} {l : PanelLabel} (h : w.cut = false) (hl : w.panel.Undisturbed l) : (w.step l).cut = false := by
  cases l with
  | stallTrip => exact hl.elim
  | tcp i =>
    have hfold : ∀ evs : List TcpEvent, .closed ∉ evs → evs.foldl (cutAfter w.panel.conn.prev) false = false := by
      intro evs hevs
      induction evs with
      | nil => rfl
      | cons ev evs ih =>
        have hfalse : cutAfter w.panel.conn.prev false ev = false := by
          cases ev <;> simp at hevs ⊢
        rw [List.foldl_cons, hfalse]
        exact ih fun hmem => hevs (List.mem_cons_of_mem ev hmem)
    simp only [PowerWatch.step, h]
    exact hfold _ hl

/-- Where nothing has come since the last edge, every step but a stall trip meets the condition. -/
theorem kept_of_uncut {w : PowerWatch} {l : PanelLabel} (h : w.cut = false) (hl : w.panel.Undisturbed l) : w.Kept l := by
  cases l with
  | stallTrip => exact hl.elim
  | tcp i => exact fun _ _ _ _ _ => h

/-- A free run of the arm, enabled, in a direction. -/
def freeRunFrame (freeRunDir : FreeRunDir) : HMICmd :=
  { bootCmd with mode := .eFreeRun, freeRunDir, velCmdArm := 3, ctrlEn := .eEnable, clientID := .eSigned }

/-- A connection that starts a free run and is lost, and another that reverses it, up to the call that sends the message. -/
def lostAndBack : List PanelLabel :=
  [.tcp (.accept 0 bootCmd.stored), .tcp (.recv 0), .tcp (.data 0 (freeRunFrame .eCW).memory 51)] ++
    List.replicate 4 (.tcp .run) ++ [.tcp (.write 0), .tcp (.next (-1)), .tcp .run, .tcp (.recv (-13))] ++
    List.replicate 6 (.tcp .run) ++
    [.tcp (.accept 0 bootCmd.stored), .tcp (.recv 0), .tcp (.data 0 (freeRunFrame .eCCW).memory 51), .tcp .run]

end UnderPowerAux

open UnderPowerAux

/-- In every run, with any number of connections and stall trips anywhere, whose steps all meet the condition, every motion is
sent with the relay on. A run with a step that does not can go on, after that step, to send a motion with the relay off. -/
theorem motion_under_power (stack : HMICmdVar) (sched : List PanelLabel) :
    (Runs.Steps PowerWatch.step PowerWatch.Kept (.boot stack) sched →
        Runs.Steps Panel.step Panel.UnderPower (.boot stack) sched) ∧
      (¬Runs.Steps PowerWatch.step PowerWatch.Kept (.boot stack) sched →
        ∃ pre rest, pre <+: sched ∧ ¬Runs.Steps Panel.step Panel.UnderPower (.boot stack) (pre ++ rest)) := by
  constructor
  · intro hkept
    exact underPower_of_kept hkept
  · intro hnot
    rw [steps_kept_iff] at hnot
    refine Runs.exists_not_steps Panel.Tracked (fun p l h => (panel_refines h l).2) ?_ (tracked_boot stack) hnot
    intro p l htracked hkept
    exact not_underPower_of_pending rfl (not_powered_of_not_kept htracked hkept)

/-- In particular, a run in which no stall trips and no connection ends sends every motion with the relay on. -/
theorem underPower_of_undisturbed (stack : HMICmdVar) {sched : List PanelLabel}
    (h : Runs.Steps Panel.step Panel.Undisturbed (.boot stack) sched) :
    Runs.Steps Panel.step Panel.UnderPower (.boot stack) sched := by
  have hwatch : Runs.Steps PowerWatch.step (fun w l => w.panel.Undisturbed l) (.boot stack) sched := by
    refine (Runs.steps_iff_of_sim (fun w p => w.panel = p) ?_ ?_ rfl sched).mpr h
    · rintro w p l rfl
      exact panel_step w l
    · rintro w p l rfl
      rfl
  have huncut := Runs.always_of_steps (fun w : PowerWatch => w.cut = false) (fun w l hw hl => uncut_step hw hl) rfl hwatch
  have hkept : Runs.Steps PowerWatch.step PowerWatch.Kept (.boot stack) sched := by
    intro pre l hpre
    exact kept_of_uncut (huncut pre ((List.prefix_append pre [l]).trans hpre)) (hwatch pre l hpre)
  exact underPower_of_kept hkept

/-- A connection is lost within a free run, and the next one opens with an enabled free run in the other direction: the message is
sent with the relay off. -/
theorem motion_not_under_power :
    ¬∀ (stack : HMICmdVar) (sched : List PanelLabel), Runs.Steps Panel.step Panel.UnderPower (.boot stack) sched := by
  intro h
  have hstep := h bootCmd.stored (lostAndBack ++ [.tcp .run]) lostAndBack (.tcp .run) (List.prefix_refl _)
  have hrelay := hstep (.armQueueSend (armBlock .freeRunning (freeRunFrame .eCCW))) (by decide) (by simp [Effect.Motion, armBlock])
  exact absurd hrelay (by decide)

end Rtu

import Rtu.Lemmas.Panel

/-!
# The safe state

Whenever no enabled frame rules, nothing is commanded and the power is off: before and between connections, before the first frame
of one, and after a disabled frame. The invariant speaks about what the pending calls of a producer will leave, so that it holds
within a call as well.
-/

namespace Rtu

/-- The call is neither a message nor a call on the relay. -/
def Effect.Silent : Effect → Prop
  | .setStallDetection _ | .armSetOffset _ | .poleSetOffset _ => True
  | _ => False

/-- The thread is in no producer. -/
def TcpPc.Between : TcpPc → Prop
  | .trigger _ | .stop _ => False
  | _ => True

/-- No connection is open, or no frame has been accepted on the open one, or the last one was disabled. -/
def Panel.Ruleless (p : Panel) : Prop :=
  p.tcp.pc = .accept ∨ p.frame = none ∨ ∃ f, p.frame = some f ∧ f.ctrlEn = .eDisable

namespace SafeStateAux

/-- What the pending calls will leave. -/
def settled (c : Conn) : Sent := c.sent.calls c.phase.pending

/-- A relay cut before some calls makes no difference after them, or leaves the relay off. -/
theorem calls_relayOff (s : Sent) (es : List Effect) :
    ({ s with relay := false } : Sent).calls es = s.calls es ∨
      ({ s with relay := false } : Sent).calls es = { s.calls es with relay := false } := by
  induction es generalizing s with
  | nil => exact Or.inr rfl
  | cons e es ih =>
    rw [calls_cons, calls_cons]
    cases e with
    | relayMainPwr state => exact Or.inl rfl
    | setStallDetection _ | armSetOffset _ | poleSetOffset _ => exact ih s
    | armQueueSend msg => exact ih (s.call (.armQueueSend msg))
    | poleQueueSend msg => exact ih (s.call (.poleQueueSend msg))
    | liftQueueSend msg => exact ih (s.call (.liftQueueSend msg))

/-- A relay cut keeps the safe state. -/
theorem safe_relayOff {s : Sent} {es : List Effect} (h : (s.calls es).Safe) :
    (({ s with relay := false } : Sent).calls es).Safe := by
  rcases calls_relayOff s es with heq | heq
  · rw [heq]
    exact h
  · rw [heq]
    exact ⟨⟨h.stopped.arm, h.stopped.pole, h.stopped.lift⟩, rfl⟩

/-- `prvEmergencyStop` leaves the safe state. -/
theorem safe_emergencyStop (s : Sent) : (s.calls prvEmergencyStop).Safe := by
  refine ⟨⟨?_, ?_, ?_⟩, rfl⟩ <;>
    · intro m hm
      have heq := Option.some_inj.mp hm
      rw [← heq]

/-- A disabled frame leaves the safe state, if it was there when the frame before was disabled too. -/
theorem safe_disabled {prev cmd : HMICmd} (hcmd : cmd.ctrlEn = .eDisable) {s : Sent}
    (h : prev.ctrlEn = .eDisable → s.Safe) : (s.calls (settings cmd ++ dispatch prev cmd)).Safe := by
  rw [calls_append, calls_settings]
  unfold dispatch
  rw [hcmd]
  cases hp : prev.ctrlEn with
  | eDisable => exact h hp
  | eEnable =>
    have hstopped : ∀ dev, (s.calls (.relayMainPwr false :: [Device.arm, .pole, .lift].map (stopSend cmd))).Stopped dev := by
      intro dev
      rw [calls_cons, stopped_stopSends]
      cases dev <;> simp
    refine ⟨(allStopped_iff _).mpr hstopped, ?_⟩
    rw [calls_cons, relay_stopSends]
    rfl

/-- What rules is the last frame accepted, which is the last call; where none rules, the pending calls leave the safe state. -/
structure SafeInv (c : Conn) : Prop where
  frame : ∀ f, c.frame = some f → c.prev = f
  disabled : c.prev.ctrlEn = .eDisable → (settled c).Safe
  noFrame : c.frame = none → (settled c).Safe
  notReceiving : (∀ es, c.phase ≠ .calling es) → c.phase ≠ .receiving → (settled c).Safe

/-- A step that leaves the last call, and what the pending calls will leave, keeps the invariant if it neither forgets a frame nor
leaves the loop. -/
theorem SafeInv.congr {c c' : Conn} (h : SafeInv c) (hprev : c'.prev = c.prev) (hframe : c'.frame = c.frame)
    (hsettled : settled c' = settled c)
    (hphase : (∀ es, c'.phase ≠ .calling es) → c'.phase ≠ .receiving → (settled c).Safe) : SafeInv c' := by
  refine ⟨?_, ?_, ?_, ?_⟩
  · rw [hprev, hframe]
    exact h.frame
  · rw [hprev, hsettled]
    exact h.disabled
  · rw [hframe, hsettled]
    exact h.noFrame
  · rw [hsettled]
    exact hphase

theorem safeInv_boot (stack : HMICmdVar) : SafeInv (Panel.boot stack).conn := by
  have hsafe : (settled (Panel.boot stack).conn).Safe := by
    refine ⟨⟨?_, ?_, ?_⟩, rfl⟩ <;>
      · intro m hm
        cases hm
  refine ⟨?_, fun _ => hsafe, fun _ => hsafe, fun _ _ => hsafe⟩
  intro f hf
  cases hf

/-- Every step of the connection keeps the invariant. -/
theorem safeInv_step {c c' : Conn} {ev : ConnEvent} (h : SafeInv c) (hstep : c.Step ev c') : SafeInv c' := by
  cases hstep with
  | skip => exact h
  | accept hphase =>
    have hsafe : (settled c).Safe := h.notReceiving (by simp [hphase]) (by simp [hphase])
    simp only [settled, hphase, Phase.pending] at hsafe
    exact ⟨by simp, fun _ => hsafe, fun _ => hsafe, by simp⟩
  | call cmd hphase =>
    refine ⟨?_, ?_, by simp, by simp⟩
    · intro f hf
      exact Option.some_inj.mp hf
    · intro hcmd
      refine safe_disabled hcmd ?_
      intro hprev
      have hsafe := h.disabled hprev
      simp only [settled, hphase, Phase.pending] at hsafe
      exact hsafe
  | trigger e es hphase =>
    refine h.congr rfl rfl ?_ (by simp)
    simp [settled, hphase, Phase.pending]
  | triggered hphase =>
    refine h.congr rfl rfl ?_ (by simp)
    simp [settled, hphase, Phase.pending]
  | fail hphase =>
    have hsafe := safe_emergencyStop c.sent
    exact ⟨h.frame, fun _ => hsafe, fun _ => hsafe, fun _ _ => hsafe⟩
  | stop e es hphase =>
    have hsafe : (settled c).Safe := h.notReceiving (by simp [hphase]) (by simp [hphase])
    refine h.congr rfl rfl ?_ (fun _ _ => hsafe)
    simp [settled, hphase, Phase.pending]
  | stopped hphase =>
    have hsafe : (settled c).Safe := h.notReceiving (by simp [hphase]) (by simp [hphase])
    refine h.congr rfl rfl ?_ (fun _ _ => hsafe)
    simp [settled, hphase, Phase.pending]
  | close hphase =>
    have hsafe : (settled c).Safe := h.notReceiving (by simp [hphase]) (by simp [hphase])
    simp only [settled, hphase, Phase.pending] at hsafe
    exact ⟨by simp, fun _ => hsafe, fun _ => hsafe, fun _ _ => hsafe⟩
  | stallTrip =>
    exact ⟨h.frame, fun hp => safe_relayOff (h.disabled hp), fun hf => safe_relayOff (h.noFrame hf),
      fun hcalling hreceiving => safe_relayOff (h.notReceiving hcalling hreceiving)⟩

theorem silent_settings (cmd : HMICmd) : ∀ e ∈ settings cmd, e.Silent := by
  intro e he
  rcases settings_cases he with ⟨_, rfl⟩ | ⟨_, rfl⟩ | ⟨_, rfl⟩ <;> trivial

/-- The invariant holds after every run. -/
theorem safeInv_run (stack : HMICmdVar) (sched : List PanelLabel) :
    (Runs.run Panel.step (.boot stack) sched).Tracked ∧ SafeInv (Runs.run Panel.step (.boot stack) sched).conn := by
  refine Runs.run_inv (fun p : Panel => p.Tracked ∧ SafeInv p.conn) ?_ ⟨tracked_boot stack, safeInv_boot stack⟩ sched
  rintro p l ⟨htracked, hinv⟩
  obtain ⟨hstep, htracked'⟩ := panel_refines htracked l
  exact ⟨htracked', safeInv_step hinv hstep⟩

end SafeStateAux

open SafeStateAux

/-- After every run, with stall trips anywhere: between two calls of a producer, if no connection is open, no frame has been
accepted on the open one or the last one was disabled, the newest message of each queue is a STOP, if there is one, and the relay
is off. And a call of `TaskTriggerMsg` with a disabled frame, after a call with a disabled frame, sends nothing and does not touch
the relay. -/
theorem safe_state_law (stack : HMICmdVar) (sched : List PanelLabel) :
    ((Runs.run Panel.step (.boot stack) sched).tcp.pc.Between → (Runs.run Panel.step (.boot stack) sched).Ruleless →
        (Runs.run Panel.step (.boot stack) sched).sent.Safe) ∧
      ∀ (i : TcpInput) (last cmd : HMICmd), (Runs.run Panel.step (.boot stack) sched).call = some last →
        (Runs.run Panel.step (.boot stack) sched).tcp.called i = some cmd → last.ctrlEn = .eDisable → cmd.ctrlEn = .eDisable →
        ∃ es, ((Runs.run Panel.step (.boot stack) sched).tcp.step i).pc = .trigger es ∧ ∀ e ∈ es, e.Silent := by
  obtain ⟨htracked, hinv⟩ := safeInv_run stack sched
  generalize Runs.run Panel.step (.boot stack) sched = p at htracked hinv
  constructor
  · intro hbetween hruleless
    have hsettled : settled p.conn = p.sent := by
      unfold settled
      rw [conn_phase]
      cases hpc : p.tcp.pc <;> simp [hpc, TcpPc.Between] at hbetween <;> rfl
    rw [← hsettled]
    rcases hruleless with hpc | hframe | ⟨f, hframe, hf⟩
    · exact hinv.notReceiving (by simp [hpc]) (by simp [hpc])
    · exact hinv.noFrame hframe
    · exact hinv.disabled (by rw [hinv.frame f hframe, hf])
  · intro i last cmd hcall hcalled hlast hcmd
    obtain ⟨hstep, -⟩ := panel_refines htracked (.tcp i)
    rw [observe_called hcalled] at hstep
    have hprev : p.conn.prev = last := by simp [Panel.conn, hcall]
    obtain ⟨es, hpc, hes⟩ := calling_of_call hstep
    refine ⟨es, hpc, ?_⟩
    rw [hes, hprev]
    have hnone : dispatch last cmd = [] := by simp [dispatch, hlast, hcmd]
    rw [hnone, List.append_nil]
    exact silent_settings cmd

end Rtu

import Rtu.Lemmas.Dispatch

/-!
# What a sequence of frames leaves on the queues

The frames of one connection, fed to `TaskTriggerMsg` from its initial static variables. A call sends only when something has
changed, but after every enabled frame the queues say what that frame says, whichever earlier call put it there.
-/

namespace Rtu

/-! ## The level a frame asks for -/

/-- The newest messages are those that an enabled frame asks for. A STOP frame asks for no motion. -/
def Sent.Obeys (s : Sent) (cmd : HMICmd) : Prop :=
  match cmd.mode with
  | .eStop => True
  | .eFreeRun =>
    match cmd.freeRunAxis with
    | .eArm => ∃ m, s.arm.head? = some m ∧ m.type = some .freeRunning ∧
        m.freeRunDirection = some cmd.freeRunDir.toMotPapDirection
    | .ePole => ∃ m, s.pole.head? = some m ∧ m.type = some .freeRunning ∧
        m.freeRunDirection = some cmd.freeRunDir.toMotPapDirection
  | .eAuto =>
    (∃ m, s.arm.head? = some m ∧ m.type = some .closedLoop ∧ m.closedLoopSetpoint = some cmd.posCmdArm) ∧
      ∃ m, s.pole.head? = some m ∧ m.type = some .closedLoop ∧ m.closedLoopSetpoint = some cmd.posCmdPole
  | .eLift => ∃ m, s.lift.head? = some m ∧ m.type = some (if cmd.liftDir = .eUp then .up else .down)

/-- The message that a call sends, if it sends one, has its type assigned. -/
def Effect.Typed : Effect → Prop
  | .armQueueSend m | .poleQueueSend m => m.type ≠ none
  | .liftQueueSend m => m.type ≠ none
  | _ => True

namespace DispatchAux

/-- What a mode sends is what it asks for. -/
theorem obeys_modeSends (prev cur : HMICmd) (s : Sent) : (s.calls (modeSends prev cur)).Obeys cur := by
  unfold Sent.Obeys modeSends
  cases cur.mode with
  | eStop => trivial
  | eFreeRun => cases cur.freeRunAxis <;> exact ⟨_, rfl, rfl, rfl⟩
  | eAuto => exact ⟨⟨_, rfl, rfl, rfl⟩, ⟨_, rfl, rfl, rfl⟩⟩
  | eLift => exact ⟨_, rfl, rfl⟩

/-- An unchanged frame asks for what the frame before it asked for. -/
theorem obeys_unchanged {prev cur : HMICmd} (h : prev.Unchanged cur) (s : Sent) : s.Obeys cur ↔ s.Obeys prev := by
  unfold Sent.Obeys
  rw [h.mode, h.freeRunAxis, h.freeRunDir, h.posCmdArm, h.posCmdPole, h.liftDir]

/-- A call with an enabled frame leaves what it asks for, if the call before it did. -/
theorem obeys_dispatch (prev cur : HMICmd) (s : Sent) (h : prev.ctrlEn = .eEnable → s.Obeys prev)
    (hcur : cur.ctrlEn = .eEnable) : (s.calls (dispatch prev cur)).Obeys cur := by
  unfold dispatch
  rw [hcur]
  cases hp : prev.ctrlEn with
  | eDisable => exact obeys_modeSends prev cur _
  | eEnable =>
    by_cases hun : prev.Unchanged cur
    · simp only [if_pos hun, calls_nil]
      exact (obeys_unchanged hun s).mpr (h hp)
    · simp only [if_neg hun]
      exact obeys_modeSends prev cur s

theorem typed_stopSends (cmd : HMICmd) (devs : List Device) : ∀ e ∈ devs.map (stopSend cmd), e.Typed := by
  intro e he
  obtain ⟨dev, -, rfl⟩ := List.mem_map.mp he
  cases dev <;> simp [stopSend, Effect.Typed, armBlock, poleBlock]

theorem typed_modeSends (prev cur : HMICmd) : ∀ e ∈ modeSends prev cur, e.Typed := by
  unfold modeSends
  cases cur.mode with
  | eStop => exact typed_stopSends cur _
  | eFreeRun => cases cur.freeRunAxis <;> simp [Effect.Typed, armBlock, poleBlock]
  | eAuto => simp [Effect.Typed, armBlock, poleBlock]
  | eLift => simp [Effect.Typed]

/-- No call sends a message with its type left unassigned. -/
theorem typed_dispatch (prev cur : HMICmd) : ∀ e ∈ dispatch prev cur, e.Typed := by
  unfold dispatch
  intro e he
  cases hp : prev.ctrlEn <;> cases hc : cur.ctrlEn <;> simp only [hp, hc] at he
  · cases he
  · rcases List.mem_cons.mp he with rfl | he
    · trivial
    · exact typed_modeSends prev cur e he
  · rcases List.mem_cons.mp he with rfl | he
    · trivial
    · exact typed_stopSends cur _ e he
  · by_cases hun : prev.Unchanged cur
    · rw [if_pos hun] at he
      cases he
    · rw [if_neg hun] at he
      exact typed_modeSends prev cur e he

theorem typed_settings (cmd : HMICmd) : ∀ e ∈ settings cmd, e.Typed := by
  intro e he
  rcases settings_cases he with ⟨_, rfl⟩ | ⟨_, rfl⟩ | ⟨_, rfl⟩ <;> trivial

end DispatchAux

open DispatchAux

/-- After every sequence of frames that ends in an enabled one, the newest messages are those that this frame asks for, and the
call with it sends no message with its type left unassigned. -/
theorem edge_dispatch_refines_level (fs : List HMICmd) (f : HMICmd) :
    (f.ctrlEn = .eEnable → (Runs.run Desk.feed .boot (fs ++ [f])).sent.Obeys f) ∧
      ∀ e ∈ (taskTriggerMsg (Runs.run Desk.feed .boot fs).statics f).2, e.Typed := by
  obtain ⟨prev, hst, hobeys⟩ := desk_inv (fun prev s => prev.ctrlEn = .eEnable → s.Obeys prev) (by simp [bootCmd])
    (fun prev cur s h => obeys_dispatch prev cur s h) fs
  constructor
  · intro hf
    rw [Runs.run_snoc, feed_of hst f]
    exact obeys_dispatch prev f _ hobeys hf
  · rw [hst, taskTriggerMsg_eq]
    intro e he
    rcases List.mem_append.mp he with he | he
    · exact typed_settings f e he
    · exact typed_dispatch prev f e he

end Rtu

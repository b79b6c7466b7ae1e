import Rtu.Dispatch

/-!
# `TaskTriggerMsg` is `dispatch`

The bytes are read here and nowhere else: `taskTriggerMsg_eq` says that a call, on the static variables that a command left, makes
the calls of `dispatch` after its settings. What a call does to the relay and the queues then follows from `dispatch` alone.
-/

namespace Rtu

/-! ## The switch -/

/-- The `switch`, on the static variables of a command. -/
theorem modeTrigger_eq (prev cur : HMICmd) :
    modeTrigger cur (ucEventFlagByte (.of prev) cur) =
      match cur.mode with
      | .eStop =>
        if prev.mode = .eFreeRun ∨ cur.freeRunAxis ≠ prev.freeRunAxis then
          { bTypeStop := true : TriggerFlags }.sendToAxis cur.freeRunAxis
        else match prev.mode with
          | .eAuto => { bTypeStop := true, bSendToArm := true, bSendToPole := true }
          | .eLift => { bTypeStop := true, bSendToLift := true }
          | _ => {}
      | .eFreeRun => { bTypeFreeRunStart := true : TriggerFlags }.sendToAxis cur.freeRunAxis
      | .eAuto => { bTypeAutoStart := true, bSendToArm := true, bSendToPole := true }
      | .eLift =>
        if cur.liftDir = .eUp then { bTypeLiftUp := true, bSendToLift := true }
        else { bTypeLiftDown := true, bSendToLift := true } := by
  unfold modeTrigger
  dsimp only
  rw [flagByte_mode, eventByte_mode, eventByte_freeRunAxis]
  cases cur.mode with
  | eStop => cases prev.mode <;> cases cur.freeRunAxis <;> cases prev.freeRunAxis <;> rfl
  | eFreeRun => rfl
  | eAuto => rfl
  | eLift => rfl

/-- An enabled frame sends what its mode says. -/
theorem sends_modeTrigger (prev cur : HMICmd) :
    sends (modeTrigger cur (ucEventFlagByte (.of prev) cur)) cur = modeSends prev cur := by
  rw [modeTrigger_eq]
  unfold modeSends stopAddressees
  cases cur.mode with
  | eStop =>
    by_cases h : prev.mode = .eFreeRun ∨ cur.freeRunAxis ≠ prev.freeRunAxis
    · simp only [if_pos h]
      cases cur.freeRunAxis <;> rfl
    · simp only [if_neg h]
      cases prev.mode <;> rfl
  | eFreeRun => cases cur.freeRunAxis <;> rfl
  | eAuto => rfl
  | eLift => cases cur.liftDir <;> rfl

/-- A call of `TaskTriggerMsg` leaves the static variables of its command, and makes the calls of `dispatch` after its
settings. -/
theorem taskTriggerMsg_eq (prev cur : HMICmd) :
    taskTriggerMsg (.of prev) cur = (.of cur, settings cur ++ dispatch prev cur) := by
  have hgate : (ucEventFlagByte (.of prev) cur ≠ 0x00) ↔ ¬prev.Unchanged cur := not_congr (eventByte_eq_zero_iff prev cur)
  unfold taskTriggerMsg
  simp only [hgate, previousFlag_ctrlEn, decide_eq_true_eq, ctrlEnTrigger, eventByte_ctrlEn]
  refine Prod.ext rfl ?_
  simp only [List.append_cancel_left_eq]
  unfold dispatch
  -- an enable that differs is a change
  have hchange : cur.ctrlEn ≠ prev.ctrlEn → ¬prev.Unchanged cur := fun hne h => hne h.ctrlEn
  cases hp : prev.ctrlEn <;> cases hc : cur.ctrlEn <;> simp only [hp, hc] at hchange
  · simp
  · simp [hchange, sends_modeTrigger]
  · simp [hchange]
    rfl
  · simp [sends_modeTrigger]

/-! ## What a call leaves -/

theorem calls_nil (s : Sent) : s.calls [] = s := rfl

@[simp] theorem calls_cons (s : Sent) (e : Effect) (es : List Effect) : s.calls (e :: es) = (s.call e).calls es := rfl

theorem calls_append (s : Sent) (a b : List Effect) : s.calls (a ++ b) = (s.calls a).calls b := by
  unfold Sent.calls
  rw [List.foldl_append]

/-- The settings are no commands. -/
theorem calls_settings (s : Sent) (cmd : HMICmd) : s.calls (settings cmd) = s := by
  unfold settings
  split <;> rfl

/-- A call after a command feeds the calls of `dispatch` to the devices. -/
theorem feed_of {d : Desk} {prev : HMICmd} (h : d.statics = .of prev) (cur : HMICmd) :
    d.feed cur = { statics := .of cur, sent := d.sent.calls (dispatch prev cur) } := by
  unfold Desk.feed
  rw [h, taskTriggerMsg_eq]
  simp only [calls_append, calls_settings]

/-- A property of the last command and of what was sent, which holds at boot and which every call keeps, holds after every
sequence of frames. -/
theorem desk_inv (P : HMICmd → Sent → Prop) (h0 : P bootCmd .boot)
    (hstep : ∀ prev cur s, P prev s → P cur (s.calls (dispatch prev cur))) (fs : List HMICmd) :
    ∃ prev, (Runs.run Desk.feed .boot fs).statics = .of prev ∧ P prev (Runs.run Desk.feed .boot fs).sent := by
  refine Runs.run_inv (fun d : Desk => ∃ prev, d.statics = .of prev ∧ P prev d.sent) ?_ ⟨bootCmd, statics_boot, h0⟩ fs
  rintro d cur ⟨prev, hst, hP⟩
  rw [feed_of hst cur]
  exact ⟨cur, rfl, hstep prev cur d.sent hP⟩

/-! ## Devices -/

/-- The type of the newest message of a device's queue, if there is one, is STOP. -/
def Sent.Stopped (s : Sent) : Device → Prop
  | .arm => ∀ m, s.arm.head? = some m → m.type = some .stop
  | .pole => ∀ m, s.pole.head? = some m → m.type = some .stop
  | .lift => ∀ m, s.lift.head? = some m → m.type = some .stop

theorem allStopped_iff (s : Sent) : s.AllStopped ↔ ∀ dev, s.Stopped dev := by
  constructor
  · intro h dev
    cases dev with
    | arm => exact h.arm
    | pole => exact h.pole
    | lift => exact h.lift
  · intro h
    exact ⟨h .arm, h .pole, h .lift⟩

/-- After STOPs sent to some devices, those are stopped and the others are as they were. -/
theorem stopped_stopSends (cmd : HMICmd) (devs : List Device) (s : Sent) (dev : Device) :
    (s.calls (devs.map (stopSend cmd))).Stopped dev ↔ dev ∈ devs ∨ s.Stopped dev := by
  induction devs generalizing s with
  | nil => simp [calls_nil]
  | cons d devs ih =>
    rw [List.map_cons, calls_cons, ih]
    have hcall : (s.call (stopSend cmd d)).Stopped dev ↔ dev = d ∨ s.Stopped dev := by
      cases d <;> cases dev <;> simp [stopSend, Sent.call, Sent.Stopped, armBlock, poleBlock]
    rw [hcall, List.mem_cons]
    constructor
    · rintro (h | h | h)
      · exact Or.inl (Or.inr h)
      · exact Or.inl (Or.inl h)
      · exact Or.inr h
    · rintro ((h | h) | h)
      · exact Or.inr (Or.inl h)
      · exact Or.inl h
      · exact Or.inr (Or.inr h)

/-- STOPs do not touch the relay. -/
theorem relay_stopSends (cmd : HMICmd) (devs : List Device) (s : Sent) :
    (s.calls (devs.map (stopSend cmd))).relay = s.relay := by
  induction devs generalizing s with
  | nil => rfl
  | cons d devs ih =>
    rw [List.map_cons, calls_cons, ih]
    cases d <;> rfl

/-- After the sends of a mode other than STOP, the devices that the frame moves are not stopped and the others are as they
were. -/
theorem stopped_modeSends (prev cur : HMICmd) (hmode : cur.mode ≠ .eStop) (s : Sent) (dev : Device) :
    (s.calls (modeSends prev cur)).Stopped dev ↔ dev ∉ cur.moves ∧ s.Stopped dev := by
  unfold modeSends HMICmd.moves
  cases hm : cur.mode with
  | eStop => exact absurd hm hmode
  | eFreeRun =>
    cases cur.freeRunAxis <;> cases dev <;> simp [calls_nil, Sent.call, Sent.Stopped, armBlock, poleBlock, FreeRunAxis.device]
  | eAuto => cases dev <;> simp [calls_nil, Sent.call, Sent.Stopped, armBlock, poleBlock]
  | eLift => cases dev <;> cases cur.liftDir <;> simp [calls_nil, Sent.call, Sent.Stopped]

/-- The sends of a mode do not touch the relay. -/
theorem relay_modeSends (prev cur : HMICmd) (s : Sent) : (s.calls (modeSends prev cur)).relay = s.relay := by
  unfold modeSends
  cases cur.mode with
  | eStop => exact relay_stopSends cur _ s
  | eFreeRun => cases cur.freeRunAxis <;> rfl
  | eAuto => rfl
  | eLift => rfl

end Rtu

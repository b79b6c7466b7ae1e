import Rtu.Lemmas.Dispatch

/-!
# What a connection inherits from the ones before it

`prvEmergencyStop` stops every device and cuts the power, so that every connection starts from the command state of boot. It does
not touch the static variables of `TaskTriggerMsg`, which still hold the last frame of the connection before: if that frame was
enabled, an enabled first frame is no rising edge, and the power stays off.

The theorem compares two runs with the same frames, one from boot and one after a history. The argument runs the two side by side
and only looks at the command state and the last frame of each.
-/

namespace Rtu

/-! ## The command state -/

/-- The newest message of each queue, a STOP counting as none, and the relay. -/
structure CommandState where
  relay : Bool
  arm : Option MotPapBlock
  pole : Option MotPapBlock
  lift : Option LiftBlock
  deriving DecidableEq, Repr

/-- Nothing commanded and no power. -/
def CommandState.off : CommandState := { relay := false, arm := none, pole := none, lift := none }

/-- The command state that a sequence of calls leaves. -/
def Sent.commandState (s : Sent) : CommandState :=
  { relay := s.relay
    arm := s.arm.head?.filter (·.type ≠ some .stop)
    pole := s.pole.head?.filter (·.type ≠ some .stop)
    lift := s.lift.head?.filter (·.type ≠ some .stop) }

/-- One call, on the command state. -/
def CommandState.call (c : CommandState) : Effect → CommandState
  | .setStallDetection _ | .armSetOffset _ | .poleSetOffset _ => c
  | .relayMainPwr state => { c with relay := state }
  | .armQueueSend msg => { c with arm := (some msg).filter (·.type ≠ some .stop) }
  | .poleQueueSend msg => { c with pole := (some msg).filter (·.type ≠ some .stop) }
  | .liftQueueSend msg => { c with lift := (some msg).filter (·.type ≠ some .stop) }

namespace SessionAux

/-- The calls of a producer change the command state by what it was. -/
theorem commandState_calls (s : Sent) (es : List Effect) :
    (s.calls es).commandState = es.foldl CommandState.call s.commandState := by
  induction es generalizing s with
  | nil => rfl
  | cons e es ih =>
    rw [calls_cons, ih, List.foldl_cons]
    cases e <;> rfl

/-- `prvEmergencyStop` leaves nothing commanded and no power. -/
theorem commandState_disconnect (d : Desk) : d.disconnect.sent.commandState = .off := by
  unfold Desk.disconnect
  rw [commandState_calls]
  rfl

/-- A disabled frame leaves nothing commanded and no power, if there was nothing before it when the frame before was disabled
too. -/
theorem commandState_disabled {prev cur : HMICmd} (hc : cur.ctrlEn = .eDisable) (s : Sent)
    (hoff : prev.ctrlEn = .eDisable → s.commandState = .off) : (s.calls (dispatch prev cur)).commandState = .off := by
  unfold dispatch
  rw [hc]
  cases hp : prev.ctrlEn with
  | eDisable => exact hoff hp
  | eEnable =>
    rw [commandState_calls]
    rfl

/-- With nothing commanded, a STOP changes nothing. -/
theorem foldl_stopSends (cur : HMICmd) (devs : List Device) (relay : Bool) :
    (devs.map (stopSend cur)).foldl CommandState.call { CommandState.off with relay } = { CommandState.off with relay } := by
  induction devs with
  | nil => rfl
  | cons dev devs ih =>
    rw [List.map_cons, List.foldl_cons]
    cases dev <;> exact ih

/-- With nothing commanded, what a mode commands does not depend on the frame before. -/
theorem foldl_modeSends (prev prev' cur : HMICmd) (relay : Bool) :
    (modeSends prev cur).foldl CommandState.call { CommandState.off with relay } =
      (modeSends prev' cur).foldl CommandState.call { CommandState.off with relay } := by
  unfold modeSends
  cases cur.mode with
  | eStop => simp only [foldl_stopSends]
  | eFreeRun | eAuto | eLift => rfl

/-- Two desks with the same last frame and the same command state are in the same command state after every sequence of
frames. -/
theorem run_commandState_eq (d d' : Desk) {prev : HMICmd} (h : d.statics = .of prev) (h' : d'.statics = .of prev)
    (heq : d.sent.commandState = d'.sent.commandState) (fs : List HMICmd) :
    (Runs.run Desk.feed d fs).sent.commandState = (Runs.run Desk.feed d' fs).sent.commandState := by
  induction fs generalizing d d' prev with
  | nil => exact heq
  | cons f fs ih =>
    rw [Runs.run_cons, Runs.run_cons, feed_of h f, feed_of h' f]
    refine ih _ _ rfl rfl ?_
    rw [commandState_calls, commandState_calls, heq]

/-- Two desks with the same last frame, an enabled one, and different relays are in the same command state after a sequence of
frames exactly when one of the frames is disabled. -/
theorem run_commandState_iff (d d' : Desk) {prev : HMICmd} (h : d.statics = .of prev) (h' : d'.statics = .of prev)
    (hen : prev.ctrlEn = .eEnable) (hne : d.sent.relay ≠ d'.sent.relay) (fs : List HMICmd) :
    (Runs.run Desk.feed d fs).sent.commandState = (Runs.run Desk.feed d' fs).sent.commandState ↔
      ∃ f ∈ fs, f.ctrlEn = .eDisable := by
  induction fs generalizing d d' prev with
  | nil =>
    have hstate : d.sent.commandState ≠ d'.sent.commandState := fun heq => hne (congrArg CommandState.relay heq)
    simp [hstate]
  | cons f fs ih =>
    rw [Runs.run_cons, Runs.run_cons, feed_of h f, feed_of h' f]
    cases hf : f.ctrlEn with
    | eDisable =>
      have hoff : prev.ctrlEn = .eDisable → ∀ s : Sent, s.commandState = .off := by
        rw [hen]
        intro hdis
        cases hdis
      have heq := run_commandState_eq ⟨.of f, d.sent.calls (dispatch prev f)⟩ ⟨.of f, d'.sent.calls (dispatch prev f)⟩ rfl rfl
        ((commandState_disabled hf _ (fun hdis => hoff hdis _)).trans
          (commandState_disabled hf _ (fun hdis => hoff hdis _)).symm) fs
      simp [heq, hf]
    | eEnable =>
      have hrelay : ∀ s : Sent, (s.calls (dispatch prev f)).relay = s.relay := by
        intro s
        simp only [dispatch, hen, hf]
        split
        · rfl
        · exact relay_modeSends prev f s
      rw [ih _ _ rfl rfl hf (by simpa only [hrelay] using hne)]
      simp [hf]

/-! ## Histories -/

/-- The static variables that a sequence of frames leaves are those of its last frame. -/
theorem statics_run {d : Desk} {prev : HMICmd} (h : d.statics = .of prev) (fs : List HMICmd) :
    (Runs.run Desk.feed d fs).statics = .of (fs.getLast?.getD prev) := by
  induction fs generalizing d prev with
  | nil => exact h
  | cons f fs ih =>
    rw [Runs.run_cons, ih (congrArg Desk.statics (feed_of h f)), List.getLast?_cons]
    rfl

/-- A history of complete connections leaves nothing commanded, no power, and the static variables of its last frame. -/
theorem sessions_run {d : Desk} {prev : HMICmd} (h : d.statics = .of prev) (hoff : d.sent.commandState = .off)
    (hist : List (List HMICmd)) :
    (Runs.run Desk.session d hist).statics = .of (hist.flatten.getLast?.getD prev) ∧
      (Runs.run Desk.session d hist).sent.commandState = .off := by
  induction hist generalizing d prev with
  | nil => exact ⟨h, hoff⟩
  | cons fs hist ih =>
    have hfs : (d.session fs).statics = .of (fs.getLast?.getD prev) := statics_run h fs
    obtain ⟨hst, hst'⟩ := ih hfs (commandState_disconnect _)
    refine ⟨?_, hst'⟩
    rw [Runs.run_cons, hst, List.flatten_cons, List.getLast?_append]
    cases hist.flatten.getLast? <;> rfl

end SessionAux

open SessionAux

/-- After a history of complete connections, a sequence of frames leaves the command state that it leaves from boot exactly when
it is empty, or has a disabled frame, or the last frame of the history (if it has one) was disabled. -/
theorem session_isolated_iff (hist : List (List HMICmd)) (fs : List HMICmd) :
    (Runs.run Desk.feed (Runs.run Desk.session .boot hist) fs).sent.commandState =
        (Runs.run Desk.feed .boot fs).sent.commandState ↔
      fs = [] ∨ (∃ f ∈ fs, f.ctrlEn = .eDisable) ∨ ∀ f, hist.flatten.getLast? = some f → f.ctrlEn = .eDisable := by
  obtain ⟨hst, hoff⟩ := sessions_run statics_boot (d := .boot) rfl hist
  generalize Runs.run Desk.session .boot hist = d at hst hoff
  generalize hlast : hist.flatten.getLast?.getD bootCmd = last at hst
  -- boot counts as a disabled frame
  have hcond : (∀ f, hist.flatten.getLast? = some f → f.ctrlEn = .eDisable) ↔ last.ctrlEn = .eDisable := by
    rw [← hlast]
    cases hist.flatten.getLast? with
    | none => simp [bootCmd]
    | some g => simp
  rw [hcond]
  cases fs with
  | nil =>
    simp only [Runs.run_nil, true_or, iff_true]
    exact hoff
  | cons f fs =>
    rw [Runs.run_cons, Runs.run_cons, feed_of hst f, feed_of statics_boot f]
    have hsame : (d.sent.calls (dispatch last f)).commandState = (Sent.boot.calls (dispatch bootCmd f)).commandState →
        (Runs.run Desk.feed ⟨.of f, d.sent.calls (dispatch last f)⟩ fs).sent.commandState =
          (Runs.run Desk.feed ⟨.of f, Sent.boot.calls (dispatch bootCmd f)⟩ fs).sent.commandState :=
      fun heq => run_commandState_eq _ _ rfl rfl heq fs
    cases hf : f.ctrlEn with
    | eDisable =>
      have heq := hsame ((commandState_disabled hf _ (fun _ => hoff)).trans (commandState_disabled hf _ (fun _ => rfl)).symm)
      simp [heq, hf, Desk.boot]
    | eEnable =>
      have hboot : dispatch bootCmd f = .relayMainPwr true :: modeSends bootCmd f := by simp [dispatch, bootCmd, hf]
      cases hl : last.ctrlEn with
      | eDisable =>
        have hdispatch : dispatch last f = .relayMainPwr true :: modeSends last f := by simp [dispatch, hl, hf]
        have heq := hsame (by
          rw [hdispatch, hboot, commandState_calls, commandState_calls, hoff]
          exact foldl_modeSends last bootCmd f true)
        simp [heq, Desk.boot]
      | eEnable =>
        -- the power comes on from boot and stays off after the history, until a disabled frame
        have hrelay : (d.sent.calls (dispatch last f)).relay = false := by
          have hdrelay : d.sent.relay = false := congrArg CommandState.relay hoff
          simp only [dispatch, hl, hf]
          split
          · exact hdrelay
          · rw [relay_modeSends, hdrelay]
        have hbootRelay : (Sent.boot.calls (dispatch bootCmd f)).relay = true := by
          rw [hboot, calls_cons, relay_modeSends]
          rfl
        have hiff := run_commandState_iff ⟨.of f, d.sent.calls (dispatch last f)⟩
          ⟨.of f, Sent.boot.calls (dispatch bootCmd f)⟩ rfl rfl hf (by simp [hrelay, hbootRelay]) fs
        simp [hiff, hf, Desk.boot]

/-- A free run of the arm, enabled. -/
def SessionAux.freeRunFrame : HMICmd := { bootCmd with mode := .eFreeRun, ctrlEn := .eEnable, clientID := .eSigned }

/-- A connection that opens with the enabled frame that the connection before it ended with commands nothing and has no power;
from boot the same frame powers the drives and starts the free run. -/
theorem session_not_isolated :
    ¬∀ (hist : List (List HMICmd)) (fs : List HMICmd),
      (Runs.run Desk.feed (Runs.run Desk.session .boot hist) fs).sent.commandState =
        (Runs.run Desk.feed .boot fs).sent.commandState := by
  intro h
  have heq := h [[freeRunFrame]] [freeRunFrame]
  exact absurd heq (by decide)

end Rtu

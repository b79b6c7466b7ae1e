import Rtu.Lemmas.Dispatch

/-!
# What a STOP frame stops

A STOP frame is meant to stop what is moving, but `TaskTriggerMsg` does not keep what is moving: it addresses the STOP by the
mode and the axis of the frame before. `Started` keeps what the frames have set in motion, read off the frames alone, and a STOP
frame leaves every device stopped exactly when it addresses all of it.
-/

namespace Rtu

/-- The frame before, and the devices that the frames so far have set in motion and not addressed with a STOP since. -/
structure Started where
  prev : HMICmd
  devices : List Device

/-- Before the first frame. -/
def Started.boot : Started := { prev := bootCmd, devices := [] }

/-- A disabled frame stops every device, an enabled STOP those it addresses; another frame moves the devices of its mode. -/
def Started.frame (w : Started) (cur : HMICmd) : Started :=
  { prev := cur
    devices :=
      match cur.ctrlEn, cur.mode with
      | .eDisable, _ => []
      | .eEnable, .eStop => w.devices.filter (· ∉ stopAddressees w.prev cur)
      | .eEnable, _ => cur.moves ++ w.devices }

/-- An enabled STOP frame addresses every device in motion. -/
def Started.StopCovers (w : Started) (cur : HMICmd) : Prop :=
  cur.ctrlEn = .eEnable → cur.mode = .eStop → ∀ dev ∈ w.devices, dev ∈ stopAddressees w.prev cur

/-- After an enabled STOP frame, no device is left with a motion as its last command. -/
def Desk.StopStops (d : Desk) (cur : HMICmd) : Prop :=
  cur.ctrlEn = .eEnable → cur.mode = .eStop → (d.feed cur).sent.AllStopped

namespace StopFrameAux

/-- The devices in motion are those that are not stopped; there are none after a disabled frame, and after an enabled one they
include the devices it moves. -/
structure Sim (d : Desk) (w : Started) : Prop where
  statics : d.statics = .of w.prev
  devices : ∀ dev, dev ∈ w.devices ↔ ¬d.sent.Stopped dev
  disabled : w.prev.ctrlEn = .eDisable → w.devices = []
  enabled : w.prev.ctrlEn = .eEnable → ∀ dev ∈ w.prev.moves, dev ∈ w.devices

theorem sim_boot : Sim .boot .boot := by
  refine ⟨statics_boot, ?_, ?_, ?_⟩
  · intro dev
    cases dev <;> simp [Started.boot, Desk.boot, Sent.boot, Sent.Stopped]
  · intro _
    rfl
  · intro h
    simp [Started.boot, bootCmd] at h

/-- The STOPs of an unchanged frame are none. -/
theorem stopAddressees_unchanged {prev cur : HMICmd} (h : prev.Unchanged cur) (hmode : cur.mode = .eStop) :
    stopAddressees prev cur = [] := by
  have hprev : prev.mode = .eStop := h.mode ▸ hmode
  simp [stopAddressees, hprev, h.freeRunAxis]

/-- What a call with an enabled STOP frame leaves stopped. -/
theorem stopped_stop {prev cur : HMICmd} (hc : cur.ctrlEn = .eEnable) (hm : cur.mode = .eStop) (s : Sent) (dev : Device) :
    (s.calls (dispatch prev cur)).Stopped dev ↔ dev ∈ stopAddressees prev cur ∨ s.Stopped dev := by
  unfold dispatch
  rw [hc]
  have hsends : modeSends prev cur = (stopAddressees prev cur).map (stopSend cur) := by
    unfold modeSends
    rw [hm]
  cases hp : prev.ctrlEn with
  | eDisable =>
    simp only [hsends, calls_cons, stopped_stopSends]
    cases dev <;> rfl
  | eEnable =>
    by_cases hun : prev.Unchanged cur
    · simp [if_pos hun, calls_nil, stopAddressees_unchanged hun hm]
    · simp only [if_neg hun, hsends, stopped_stopSends]

/-- What a call with an enabled frame of another mode leaves stopped, if the devices of the frame before are in motion. -/
theorem stopped_motion {prev cur : HMICmd} (hc : cur.ctrlEn = .eEnable) (hm : cur.mode ≠ .eStop) (s : Sent)
    (hmoves : prev.ctrlEn = .eEnable → ∀ dev ∈ prev.moves, ¬s.Stopped dev) (dev : Device) :
    (s.calls (dispatch prev cur)).Stopped dev ↔ dev ∉ cur.moves ∧ s.Stopped dev := by
  unfold dispatch
  rw [hc]
  cases hp : prev.ctrlEn with
  | eDisable =>
    simp only [calls_cons, stopped_modeSends prev cur hm]
    cases dev <;> rfl
  | eEnable =>
    by_cases hun : prev.Unchanged cur
    · simp only [if_pos hun, calls_nil]
      have hsame : cur.moves = prev.moves := by
        unfold HMICmd.moves
        rw [hun.mode, hun.freeRunAxis]
      rw [hsame]
      constructor
      · intro hs
        exact ⟨fun hmem => hmoves hp dev hmem hs, hs⟩
      · exact fun h => h.2
    · simp only [if_neg hun, stopped_modeSends prev cur hm]

/-- A call with a disabled frame leaves every device stopped, if they were when the frame before was disabled too. -/
theorem stopped_disabled {prev cur : HMICmd} (hc : cur.ctrlEn = .eDisable) (s : Sent)
    (hdis : prev.ctrlEn = .eDisable → ∀ dev, s.Stopped dev) (dev : Device) : (s.calls (dispatch prev cur)).Stopped dev := by
  unfold dispatch
  rw [hc]
  cases hp : prev.ctrlEn with
  | eDisable => exact hdis hp dev
  | eEnable =>
    simp only [calls_cons, stopped_stopSends]
    cases dev <;> simp

/-- A frame keeps the simulation. -/
theorem sim_frame {d : Desk} {w : Started} (h : Sim d w) (cur : HMICmd) : Sim (d.feed cur) (w.frame cur) := by
  have hmoving : w.prev.ctrlEn = .eEnable → ∀ dev ∈ w.prev.moves, ¬d.sent.Stopped dev := by
    intro hp dev hmem
    exact (h.devices dev).mp (h.enabled hp dev hmem)
  have hstopped : w.prev.ctrlEn = .eDisable → ∀ dev, d.sent.Stopped dev := by
    intro hp dev
    have hnone : ¬dev ∈ w.devices := by simp [h.disabled hp]
    exact Classical.not_not.mp (fun hns => hnone ((h.devices dev).mpr hns))
  rw [feed_of h.statics cur]
  cases hc : cur.ctrlEn with
  | eDisable =>
    have hdev : (w.frame cur).devices = [] := by simp [Started.frame, hc]
    refine ⟨rfl, ?_, fun _ => hdev, ?_⟩
    · intro dev
      simp [hdev, stopped_disabled hc d.sent hstopped dev]
    · intro hen
      simp [Started.frame, hc] at hen
  | eEnable =>
    by_cases hm : cur.mode = .eStop
    · have hdev : (w.frame cur).devices = w.devices.filter (· ∉ stopAddressees w.prev cur) := by
        simp [Started.frame, hc, hm]
      refine ⟨rfl, ?_, ?_, ?_⟩
      · intro dev
        rw [stopped_stop hc hm, hdev, List.mem_filter, h.devices dev]
        simp [and_comm]
      · intro hdis
        simp [Started.frame, hc] at hdis
      · intro _ dev hmem
        simp [Started.frame, HMICmd.moves, hm] at hmem
    · have hdev : (w.frame cur).devices = cur.moves ++ w.devices := by
        simp [Started.frame, hc]
      refine ⟨rfl, ?_, ?_, ?_⟩
      · intro dev
        rw [stopped_motion hc hm d.sent hmoving, hdev, List.mem_append, h.devices dev]
        simp only [Classical.not_and_iff_not_or_not, Classical.not_not]
      · intro hdis
        simp [Started.frame, hc] at hdis
      · intro _ dev hmem
        rw [hdev]
        exact List.mem_append.mpr (Or.inl hmem)

/-- A STOP frame leaves every device stopped exactly when it addresses every device in motion. -/
theorem stopStops_iff {d : Desk} {w : Started} (h : Sim d w) (cur : HMICmd) : d.StopStops cur ↔ w.StopCovers cur := by
  unfold Desk.StopStops Started.StopCovers
  rw [feed_of h.statics cur, allStopped_iff]
  constructor
  · intro hstops hc hm dev hmem
    rcases (stopped_stop hc hm d.sent dev).mp (hstops hc hm dev) with hadr | hs
    · exact hadr
    · exact absurd hs ((h.devices dev).mp hmem)
  · intro hcovers hc hm dev
    rw [stopped_stop hc hm]
    by_cases hs : d.sent.Stopped dev
    · exact Or.inr hs
    · exact Or.inl (hcovers hc hm dev ((h.devices dev).mpr hs))

end StopFrameAux

open StopFrameAux

/-- Over every sequence of frames, every enabled STOP frame leaves no device with a motion as its last command exactly when every
one of them addresses all the devices that the frames before it have set in motion. -/
theorem stop_frame_stops_iff (fs : List HMICmd) :
    Runs.Steps Desk.feed Desk.StopStops .boot fs ↔ Runs.Steps Started.frame Started.StopCovers .boot fs := by
  refine Runs.steps_iff_of_sim Sim ?_ ?_ sim_boot fs
  · exact fun d w cur h => sim_frame h cur
  · exact fun d w cur h => stopStops_iff h cur

/-- An enabled frame of a mode, for an axis. -/
def StopFrameAux.enabledFrame (mode : Mode) (freeRunAxis : FreeRunAxis) : HMICmd :=
  { bootCmd with mode, freeRunAxis, ctrlEn := .eEnable, clientID := .eSigned }

/-- A STOP frame that ends an AUTO and names the other axis leaves the arm with a CLOSED_LOOP as its last command: the test of the
axis bit hides the branch that stops both. -/
theorem stop_frame_not_stops :
    ¬∀ fs, Runs.Steps Desk.feed Desk.StopStops .boot fs := by
  intro h
  have hstop := h [enabledFrame .eAuto .eArm, enabledFrame .eStop .ePole] [enabledFrame .eAuto .eArm]
    (enabledFrame .eStop .ePole) (List.prefix_refl _) rfl rfl
  have harm := hstop.arm (armBlock .closedLoop (enabledFrame .eAuto .eArm)) (by decide)
  exact absurd harm (by decide)

end Rtu

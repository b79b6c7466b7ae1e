import Rtu.Lemmas.Backlog
import Rtu.Lemmas.Dispatch
import Rtu.Lemmas.NetValues

/-!
# A frame once more

The peer can always send the last frame once more: the thread accepts it, calls `TaskTriggerMsg`, and sends nothing. So a run
can go on to the next reply with everything but the thread as it is.
-/

namespace Rtu

/-- The static variables hold a frame that the peer can send. -/
def TcpState.Repeatable (s : TcpState) : Prop :=
  ∃ cmd : HMICmd, s.statics = .of cmd ∧ cmd.clientID = .eSigned ∧ cmd.velCmdArm ≤ 8 ∧ cmd.velCmdPole ≤ 8

theorem repeatable_boot (stack : HMICmdVar) : (TcpState.boot stack).Repeatable :=
  ⟨{ bootCmd with clientID := .eSigned }, statics_boot, rfl, by decide, by decide⟩

/-- A frame that is accepted is signed, and its velocities are in range. -/
theorem accepted_of_called {s : TcpState} {i : TcpInput} {cmd : HMICmd} (h : s.called i = some cmd) :
    cmd.clientID = .eSigned ∧ cmd.velCmdArm ≤ 8 ∧ cmd.velCmdPole ≤ 8 := by
  have hmove := s.move i
  unfold TcpState.called at h
  generalize s.step i = s' at hmove
  generalize s.effect i = e at hmove
  generalize s.events i = evs at hmove h
  cases hmove with
  | accepted st v status mem len cmd' hok =>
    obtain rfl : cmd' = cmd := by simpa using h
    obtain ⟨rfl, cmd'', hat, hs, harm, hpole⟩ := exists_of_ok (congrArg Prod.snd (hok v))
    have hstored : cmd'.stored = cmd''.stored := congrArg Prod.fst ((hok v).symm.trans (netValues_data hs harm hpole hat v))
    obtain rfl : cmd' = cmd'' := by simpa using congrArg HMICmdVar.command hstored
    exact ⟨hs, harm, hpole⟩
  | _ => simp at h

theorem repeatable_step {s : TcpState} (h : s.Repeatable) (i : TcpInput) : (s.step i).Repeatable := by
  obtain ⟨prev, hst, hprev⟩ := h
  rcases called_cases s i with ⟨cmd, hcalled, -, hstatics, -⟩ | ⟨-, hsame, -⟩ | ⟨-, hsame, -⟩
  · rw [hst, taskTriggerMsg_eq] at hstatics
    exact ⟨cmd, hstatics, accepted_of_called hcalled⟩
  · exact ⟨prev, hsame.trans hst, hprev⟩
  · exact ⟨prev, hsame.trans hst, hprev⟩

theorem repeatable_controller {c : Controller} (h : c.tcp.Repeatable) (l : ControllerLabel) : (c.step l).tcp.Repeatable := by
  cases l with
  | tcp i =>
    show (c.tcpStep i).tcp.Repeatable
    rcases tcpStep_cases c i with heq | ⟨-, heq⟩ | ⟨e, c', -, -, heq⟩ <;> rw [heq]
    · exact h
    · exact repeatable_step h i
    · exact repeatable_step h i
  | _ =>
    rw [(device_frame c (by intro i hi; cases hi)).1]
    exact h

/-- The frame of the static variables once more, without its settings. -/
def HMICmd.again (cmd : HMICmd) : HMICmd := { cmd with setCal := .eNop, stallEn := .eDisable }

/-- What the thread is given when the peer sends a frame once more: the reply before is written, and the next one is due. -/
def sentAgain (cmd : HMICmd) : List TcpInput := [.write 0, .next 0, .data 0 cmd.again.memory RCV_TRAMA_LARGO, .run]

theorem dispatch_again (cmd : HMICmd) : dispatch cmd cmd.again = [] := by
  have hun : cmd.Unchanged cmd.again := ⟨⟨rfl, rfl, rfl, rfl, rfl⟩, rfl, rfl⟩
  have hen : cmd.again.ctrlEn = cmd.ctrlEn := rfl
  unfold dispatch
  rw [hen]
  cases cmd.ctrlEn with
  | eDisable => rfl
  | eEnable => exact if_pos hun

/-- The frame is accepted once more, and changes nothing. -/
theorem step_again {cmd : HMICmd} (hs : cmd.clientID = .eSigned) (harm : cmd.velCmdArm ≤ 8) (hpole : cmd.velCmdPole ≤ 8)
    (v : HMICmdVar) (status : UInt16) :
    (⟨.data, .of cmd, v, status⟩ : TcpState).step (.data 0 cmd.again.memory RCV_TRAMA_LARGO) =
      ⟨.trigger [.setStallDetection false], .of cmd.again, cmd.again.stored, ERR_OK⟩ := by
  have hs' : cmd.again.clientID = .eSigned := hs
  have harm' : cmd.again.velCmdArm ≤ 8 := harm
  have hpole' : cmd.again.velCmdPole ≤ 8 := hpole
  have hok := netValues_data hs' harm' hpole' (at_memory cmd.again) v
  have hcalls : taskTriggerMsg (.of cmd) cmd.again = (.of cmd.again, [.setStallDetection false]) := by
    rw [taskTriggerMsg_eq, dispatch_again]
    rfl
  simp [TcpState.step, TcpState.fragment, TcpState.accepts, hok, hcalls]

end Rtu

import Rtu.Lemmas.NetValues
import Rtu.TcpThread

/-!
# What a step of the thread can do

`TcpState.Move` says it once: from where, on which input, to where, with which call on the devices and what is seen of it. Every
fact about a step is a case analysis of it.
-/

namespace Rtu

theorem errorNetconn_ne_zero : ERROR_NETCONN ≠ 0 := by decide

/-- What a step of the thread does. An input that the thread does not wait for is skipped. A fragment is rejected, or accepted as a
command, whatever the command variable held before. -/
inductive TcpState.Move : TcpState → TcpInput → TcpState → Option Effect → List TcpEvent → Prop where
  | skip (s : TcpState) (i : TcpInput) : Move s i s none []
  | accept (st : TriggerStatics) (v stack : HMICmdVar) (status : UInt16) :
      Move ⟨.accept, st, v, status⟩ (.accept 0 stack) ⟨.recv, st, stack, 0⟩ none [.accepted]
  | recv (st : TriggerStatics) (v : HMICmdVar) (status : UInt16) :
      Move ⟨.recv, st, v, status⟩ (.recv 0) ⟨.data, st, v, status⟩ none []
  | recvError (st : TriggerStatics) (v : HMICmdVar) (status : UInt16) {err : ErrT} (herr : err ≠ 0) :
      Move ⟨.recv, st, v, status⟩ (.recv err) ⟨.stop prvEmergencyStop, st, v, status⟩ none []
  | dataError (st : TriggerStatics) (v : HMICmdVar) (status : UInt16) {err : ErrT} (herr : err ≠ 0) (mem : Nat → UInt8)
      (len : UInt16) :
      Move ⟨.data, st, v, status⟩ (.data err mem len) ⟨.delete, st, v, ERROR_NETCONN⟩ none [.dataError err]
  | rejected (st : TriggerStatics) (v v' : HMICmdVar) (status status' : UInt16) (mem : Nat → UInt8) (len : UInt16)
      (hstatus : status' ≠ ERR_OK) (hbad : ∀ w, (netValuesReceivedFromHMI mem w len).2 ≠ ERR_OK) :
      Move ⟨.data, st, v, status⟩ (.data 0 mem len) ⟨.delete, st, v', status'⟩ none [.fragment mem len]
  | accepted (st : TriggerStatics) (v : HMICmdVar) (status : UInt16) (mem : Nat → UInt8) (len : UInt16) (cmd : HMICmd)
      (hok : ∀ w, netValuesReceivedFromHMI mem w len = (cmd.stored, ERR_OK)) :
      Move ⟨.data, st, v, status⟩ (.data 0 mem len)
        ⟨.trigger (taskTriggerMsg st cmd).2, (taskTriggerMsg st cmd).1, cmd.stored, ERR_OK⟩ none
        [.fragment mem len, .trigger cmd]
  | trigger (e : Effect) (es : List Effect) (st : TriggerStatics) (v : HMICmdVar) (status : UInt16) :
      Move ⟨.trigger (e :: es), st, v, status⟩ .run ⟨.trigger es, st, v, status⟩ (some e) []
  | triggered (st : TriggerStatics) (v : HMICmdVar) (status : UInt16) :
      Move ⟨.trigger [], st, v, status⟩ .run ⟨.write, st, v, status⟩ none []
  | write (st : TriggerStatics) (v : HMICmdVar) (status : UInt16) :
      Move ⟨.write, st, v, status⟩ (.write 0) ⟨.next, st, v, status⟩ none [.write 0]
  | writeError (st : TriggerStatics) (v : HMICmdVar) (status : UInt16) {err : ErrT} (herr : err ≠ 0) :
      Move ⟨.write, st, v, status⟩ (.write err) ⟨.delete, st, v, ERROR_NETCONN⟩ none [.write err]
  | next (st : TriggerStatics) (v : HMICmdVar) (status : UInt16) (ret : Int) :
      Move ⟨.next, st, v, status⟩ (.next ret) ⟨.data, st, v, status⟩ none []
  | lastFragment (st : TriggerStatics) (v : HMICmdVar) (status : UInt16) (ret : Int) :
      Move ⟨.next, st, v, status⟩ (.next ret) ⟨.delete, st, v, status⟩ none []
  | again (st : TriggerStatics) (v : HMICmdVar) : Move ⟨.delete, st, v, 0⟩ .run ⟨.recv, st, v, 0⟩ none []
  | fail (st : TriggerStatics) (v : HMICmdVar) {status : UInt16} (hstatus : status ≠ 0) :
      Move ⟨.delete, st, v, status⟩ .run ⟨.stop prvEmergencyStop, st, v, status⟩ none []
  | stop (e : Effect) (es : List Effect) (st : TriggerStatics) (v : HMICmdVar) (status : UInt16) :
      Move ⟨.stop (e :: es), st, v, status⟩ .run ⟨.stop es, st, v, status⟩ (some e) []
  | stopped (st : TriggerStatics) (v : HMICmdVar) (status : UInt16) :
      Move ⟨.stop [], st, v, status⟩ .run ⟨.close, st, v, status⟩ none [.emergencyStop]
  | close (st : TriggerStatics) (v : HMICmdVar) (status : UInt16) :
      Move ⟨.close, st, v, status⟩ .run ⟨.accept, st, v, status⟩ none [.closed]

/-- A step whose state, call and events are known. -/
theorem TcpState.move_of_eq {s s' s'' : TcpState} {i : TcpInput} {e : Option Effect} {evs evs' : List TcpEvent}
    (h : s.Move i s' e evs) (hstep : s'' = s') (hevents : evs' = evs) : s.Move i s'' e evs' := by
  rw [hstep, hevents]
  exact h

/-- A fragment is rejected or accepted. -/
theorem TcpState.move_data (st : TriggerStatics) (v : HMICmdVar) (status : UInt16) (mem : Nat → UInt8) (len : UInt16) :
    TcpState.Move ⟨.data, st, v, status⟩ (.data 0 mem len) (TcpState.fragment ⟨.data, st, v, status⟩ mem len) none
      (TcpState.events ⟨.data, st, v, status⟩ (.data 0 mem len)) := by
  by_cases hok : (netValuesReceivedFromHMI mem v len).2 = ERR_OK
  · obtain ⟨cmd, -, hstored⟩ := command_of_ok hok
    refine TcpState.move_of_eq (.accepted st v status mem len cmd hstored) ?_ ?_
    · simp [TcpState.fragment, TcpState.accepts, hstored]
    · simp [TcpState.events, TcpState.accepts, hstored]
  · have hbad : ∀ w, (netValuesReceivedFromHMI mem w len).2 ≠ ERR_OK := by
      intro w hw
      obtain ⟨cmd, -, hstored⟩ := command_of_ok hw
      rw [hstored v] at hok
      exact hok rfl
    refine TcpState.move_of_eq (.rejected st v (netValuesReceivedFromHMI mem v len).1 status _ mem len hok hbad) ?_ ?_
    · simp [TcpState.fragment, TcpState.accepts, hok]
    · simp [TcpState.events, TcpState.accepts, hok]

/-- Every step of the thread is a move. -/
theorem TcpState.move (s : TcpState) (i : TcpInput) : s.Move i (s.step i) (s.effect i) (s.events i) := by
  obtain ⟨pc, st, v, status⟩ := s
  cases pc with
  | accept =>
    cases i with
    | accept err stack =>
      by_cases herr : err = 0
      · subst herr
        exact .accept st v stack status
      · exact TcpState.move_of_eq (.skip _ _) (if_neg herr) (if_neg herr)
    | _ => exact .skip _ _
  | recv =>
    cases i with
    | recv err =>
      by_cases herr : err = 0
      · subst herr
        exact .recv st v status
      · exact TcpState.move_of_eq (.recvError st v status herr) (if_neg herr) rfl
    | _ => exact .skip _ _
  | data =>
    cases i with
    | data err mem len =>
      by_cases herr : err = 0
      · subst herr
        exact TcpState.move_data st v status mem len
      · exact TcpState.move_of_eq (.dataError st v status herr mem len) (if_pos herr) (if_pos herr)
    | _ => exact .skip _ _
  | trigger pending =>
    cases pending with
    | nil =>
      cases i with
      | run => exact .triggered st v status
      | _ => exact .skip _ _
    | cons e es =>
      cases i with
      | run => exact .trigger e es st v status
      | _ => exact .skip _ _
  | write =>
    cases i with
    | write err =>
      by_cases herr : err = 0
      · subst herr
        exact .write st v status
      · exact TcpState.move_of_eq (.writeError st v status herr) (if_pos herr) rfl
    | _ => exact .skip _ _
  | next =>
    cases i with
    | next ret =>
      by_cases hret : ret ≥ 0
      · exact TcpState.move_of_eq (.next st v status ret) (if_pos hret) rfl
      · exact TcpState.move_of_eq (.lastFragment st v status ret) (if_neg hret) rfl
    | _ => exact .skip _ _
  | delete =>
    cases i with
    | run =>
      by_cases hstatus : status = 0
      · subst hstatus
        exact .again st v
      · exact TcpState.move_of_eq (.fail st v hstatus) (if_pos hstatus) rfl
    | _ => exact .skip _ _
  | stop pending =>
    cases pending with
    | nil =>
      cases i with
      | run => exact .stopped st v status
      | _ => exact .skip _ _
    | cons e es =>
      cases i with
      | run => exact .stop e es st v status
      | _ => exact .skip _ _
  | close =>
    cases i with
    | run => exact .close st v status
    | _ => exact .skip _ _

/-! ## Calls on the devices -/

/-- A step that makes a call on the devices does nothing else that is seen. -/
theorem TcpState.events_of_effect {s : TcpState} {i : TcpInput} {e : Effect} (h : s.effect i = some e) : s.events i = [] := by
  have hmove := s.move i
  rw [h] at hmove
  generalize s.step i = s' at hmove
  generalize s.events i = evs at hmove
  cases hmove <;> rfl

/-- A call that a step makes is the next one pending. -/
theorem TcpState.pending_of_effect {s : TcpState} {i : TcpInput} {e : Effect} (h : s.effect i = some e) :
    ∃ es, s.pc.phase.pending = e :: es := by
  have hmove := s.move i
  rw [h] at hmove
  generalize s.step i = s' at hmove
  generalize s.events i = evs at hmove
  cases hmove with
  | trigger e es st v status | stop e es st v status => exact ⟨es, rfl⟩

/-- The next call pending is the one that a step of the thread makes. -/
theorem TcpState.run_of_pending {s : TcpState} {e : Effect} {es : List Effect} (h : s.pc.phase.pending = e :: es) :
    s.effect .run = some e ∧ (s.step .run).pc.phase.pending = es := by
  cases hpc : s.pc <;> simp [hpc, Phase.pending] at h <;> simp [TcpState.effect, TcpState.step, hpc, h, Phase.pending]

/-- What a move does to the phase. -/
theorem TcpState.Move.phase {s s' : TcpState} {i : TcpInput} {e : Option Effect} {evs : List TcpEvent}
    (h : s.Move i s' e evs) : Phase.Step s.pc.phase e s'.pc.phase := by
  cases h with
  | accept st v stack status => exact .accept
  | accepted st v status mem len cmd hok => exact .call _
  | trigger e es st v status => exact .trigger e es
  | triggered st v status => exact .triggered
  | recvError st v status herr | fail st v hstatus => exact .fail
  | stop e es st v status => exact .stop e es
  | stopped st v status => exact .stopped
  | close st v status => exact .close
  | _ => exact .skip _

/-- What a step of the thread does to its phase. -/
theorem phase_step (s : TcpState) (i : TcpInput) : Phase.Step s.pc.phase (s.effect i) (s.step i).pc.phase := (s.move i).phase

end Rtu

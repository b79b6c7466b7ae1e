import Rtu.Lemmas.NetValues
import Rtu.Lemmas.TcpThread
import Rtu.Runs

/-!
# A connection stops at its first failure

What the thread does over any run is a list of complete connections and, unless it waits for the next one, a connection that is
not over. A connection is its good fragments, each followed by its call of `TaskTriggerMsg` and its telemetry, then what ended it,
then `prvEmergencyStop`, once.
-/

namespace Rtu

/-! ## What a connection is -/

/-- A fragment and the command it is accepted as. -/
structure Fragment where
  mem : Nat → UInt8
  len : UInt16
  cmd : HMICmd

/-- The fragment is accepted as its command, whatever the command variable held. -/
def Fragment.Accepted (f : Fragment) : Prop := ∀ v, netValuesReceivedFromHMI f.mem v f.len = (f.cmd.stored, ERR_OK)

/-- What ends a connection: `netconn_recv` fails (or times out), `netbuf_data` fails, a fragment is rejected, or the telemetry of
an accepted fragment cannot be written. -/
inductive Ending where
  | recvError
  | dataError (err : ErrT)
  | rejected (mem : Nat → UInt8) (len : UInt16)
  | writeError (f : Fragment) (err : ErrT)

/-- The ending is a failure. -/
def Ending.Valid : Ending → Prop
  | .recvError => True
  | .dataError err => err ≠ 0
  | .rejected mem len => ∀ v, (netValuesReceivedFromHMI mem v len).2 ≠ ERR_OK
  | .writeError f err => f.Accepted ∧ err ≠ 0

/-- A connection: its good fragments, in order, and its ending. -/
structure Session where
  goods : List Fragment
  ending : Ending

/-- The fragments are accepted and the ending is a failure. -/
structure Session.Valid (S : Session) : Prop where
  goods : ∀ f ∈ S.goods, f.Accepted
  ending : S.ending.Valid

/-- A good fragment: one call of `TaskTriggerMsg`, one write. -/
def Fragment.events (f : Fragment) : List TcpEvent := [.fragment f.mem f.len, .trigger f.cmd, .write 0]

/-- An ending, up to the end of the receive loop. -/
def Ending.events : Ending → List TcpEvent
  | .recvError => []
  | .dataError err => [.dataError err]
  | .rejected mem len => [.fragment mem len]
  | .writeError f err => [.fragment f.mem f.len, .trigger f.cmd, .write err]

/-- A complete connection. -/
def Session.events (S : Session) : List TcpEvent :=
  .accepted :: S.goods.flatMap Fragment.events ++ (S.ending.events ++ [.emergencyStop, .closed])

namespace FailStopAux

/-- What a connection has done, by where the thread is in it. -/
inductive Partway : TcpState → List TcpEvent → Prop where
  | idle {s : TcpState} : s.pc = .accept → Partway s []
  | loop {s : TcpState} (goods : List Fragment) : (∀ f ∈ goods, f.Accepted) →
      s.pc = .recv ∨ s.pc = .data ∨ s.pc = .next ∨ s.pc = .delete → s.iServerStatus = 0 →
      Partway s (.accepted :: goods.flatMap Fragment.events)
  | triggered {s : TcpState} (goods : List Fragment) (f : Fragment) : (∀ g ∈ goods, g.Accepted) → f.Accepted →
      (∃ pending, s.pc = .trigger pending) ∨ s.pc = .write → s.iServerStatus = 0 →
      Partway s (.accepted :: goods.flatMap Fragment.events ++ [.fragment f.mem f.len, .trigger f.cmd])
  | failed {s : TcpState} (S : Session) : S.Valid → s.pc = .delete → s.iServerStatus ≠ 0 →
      Partway s (.accepted :: S.goods.flatMap Fragment.events ++ S.ending.events)
  | stopping {s : TcpState} (S : Session) (pending : List Effect) : S.Valid → s.pc = .stop pending →
      Partway s (.accepted :: S.goods.flatMap Fragment.events ++ S.ending.events)
  | closing {s : TcpState} (S : Session) : S.Valid → s.pc = .close →
      Partway s (.accepted :: S.goods.flatMap Fragment.events ++ (S.ending.events ++ [.emergencyStop]))

/-- What has been done after a step: a part of the connection still, or all of it. -/
def Kept (s : TcpState) (done : List TcpEvent) : Prop :=
  Partway s done ∨ ∃ S : Session, S.Valid ∧ done = S.events ∧ Partway s []

/-- A move from the loops, before a fragment is accepted. -/
theorem kept_loop {s s' : TcpState} {i : TcpInput} {e : Option Effect} {evs : List TcpEvent} (hmove : s.Move i s' e evs)
    {goods : List Fragment} (hg : ∀ f ∈ goods, f.Accepted)
    (hpc : s.pc = .recv ∨ s.pc = .data ∨ s.pc = .next ∨ s.pc = .delete) (hstatus : s.iServerStatus = 0) :
    Partway s' (.accepted :: goods.flatMap Fragment.events ++ evs) := by
  cases hmove with
  | skip =>
    rw [List.append_nil]
    exact .loop goods hg hpc hstatus
  | recv st v status =>
    rw [List.append_nil]
    exact .loop goods hg (by simp) hstatus
  | recvError st v status herr => exact .stopping ⟨goods, .recvError⟩ prvEmergencyStop ⟨hg, trivial⟩ rfl
  | dataError st v status herr mem len => exact .failed ⟨goods, .dataError _⟩ ⟨hg, herr⟩ rfl errorNetconn_ne_zero
  | rejected st v v' status status' mem len hstatus' hbad =>
    exact .failed ⟨goods, .rejected mem len⟩ ⟨hg, hbad⟩ rfl hstatus'
  | accepted st v status mem len cmd hok => exact .triggered goods ⟨mem, len, cmd⟩ hg hok (Or.inl ⟨_, rfl⟩) rfl
  | next st v status ret | lastFragment st v status ret =>
    rw [List.append_nil]
    exact .loop goods hg (by simp) hstatus
  | again st v =>
    rw [List.append_nil]
    exact .loop goods hg (by simp) rfl
  | fail st v hfail => exact absurd hstatus hfail
  | _ => simp at hpc

/-- A move from the call of an accepted fragment, or from its telemetry. -/
theorem kept_triggered {s s' : TcpState} {i : TcpInput} {e : Option Effect} {evs : List TcpEvent}
    (hmove : s.Move i s' e evs) {goods : List Fragment} {f : Fragment} (hg : ∀ g ∈ goods, g.Accepted) (hf : f.Accepted)
    (hpc : (∃ pending, s.pc = .trigger pending) ∨ s.pc = .write) (hstatus : s.iServerStatus = 0) :
    Partway s' (.accepted :: goods.flatMap Fragment.events ++ [.fragment f.mem f.len, .trigger f.cmd] ++ evs) := by
  cases hmove with
  | skip =>
    rw [List.append_nil]
    exact .triggered goods f hg hf hpc hstatus
  | trigger e es st v status =>
    rw [List.append_nil]
    exact .triggered goods f hg hf (Or.inl ⟨es, rfl⟩) hstatus
  | triggered st v status =>
    rw [List.append_nil]
    exact .triggered goods f hg hf (Or.inr rfl) hstatus
  | write st v status =>
    -- the fragment is one more good one
    have hgoods : ∀ g ∈ goods ++ [f], g.Accepted := List.forall_mem_append.mpr ⟨hg, List.forall_mem_singleton.mpr hf⟩
    have hdone : .accepted :: goods.flatMap Fragment.events ++ [.fragment f.mem f.len, .trigger f.cmd] ++ [.write 0] =
        .accepted :: (goods ++ [f]).flatMap Fragment.events := by
      simp [List.flatMap_append, Fragment.events]
    rw [hdone]
    exact .loop (goods ++ [f]) hgoods (by simp) hstatus
  | writeError st v status herr =>
    rw [List.append_assoc]
    exact .failed ⟨goods, .writeError f _⟩ ⟨hg, hf, herr⟩ rfl errorNetconn_ne_zero
  | _ => simp at hpc

/-- Every step goes on with the connection or completes it. -/
theorem kept_step {s : TcpState} {done : List TcpEvent} (h : Partway s done) (i : TcpInput) :
    Kept (s.step i) (done ++ s.events i) := by
  have hpart := h
  have hmove := s.move i
  generalize s.step i = s' at hmove ⊢
  generalize s.effect i = e at hmove
  generalize s.events i = evs at hmove ⊢
  cases h with
  | idle hpc =>
    left
    cases hmove with
    | skip => exact hpart
    | accept st v stack status => exact .loop [] (by simp) (by simp) rfl
    | _ => cases hpc
  | loop goods hg hpc hstatus => exact Or.inl (kept_loop hmove hg hpc hstatus)
  | triggered goods f hg hf hpc hstatus => exact Or.inl (kept_triggered hmove hg hf hpc hstatus)
  | failed S hS hpc hstatus =>
    left
    cases hmove with
    | skip =>
      rw [List.append_nil]
      exact hpart
    | again st v => exact absurd rfl hstatus
    | fail st v hfail =>
      rw [List.append_nil]
      exact .stopping S prvEmergencyStop hS rfl
    | _ => cases hpc
  | stopping S pending hS hpc =>
    left
    cases hmove with
    | skip =>
      rw [List.append_nil]
      exact hpart
    | stop e es st v status =>
      rw [List.append_nil]
      exact .stopping S es hS rfl
    | stopped st v status =>
      rw [List.append_assoc]
      exact .closing S hS rfl
    | _ => cases hpc
  | closing S hS hpc =>
    cases hmove with
    | skip =>
      left
      rw [List.append_nil]
      exact hpart
    | close st v status =>
      right
      exact ⟨S, hS, by simp [Session.events], .idle rfl⟩
    | _ => cases hpc

/-- What has been done of a connection is a beginning of a complete one; there is none while the thread waits for one. -/
theorem partway_prefix {s : TcpState} {done : List TcpEvent} (h : Partway s done) :
    (∃ S : Session, S.Valid ∧ done <+: S.events) ∧ (s.pc = .accept → done = []) := by
  cases h with
  | idle hpc => exact ⟨⟨⟨[], .recvError⟩, ⟨by simp, trivial⟩, List.nil_prefix⟩, fun _ => rfl⟩
  | loop goods hg hpc hstatus =>
    refine ⟨⟨⟨goods, .recvError⟩, ⟨hg, trivial⟩, List.prefix_append _ _⟩, ?_⟩
    rcases hpc with hpc | hpc | hpc | hpc <;> simp [hpc]
  | triggered goods f hg hf hpc hstatus =>
    refine ⟨⟨⟨goods, .writeError f 1⟩, ⟨hg, hf, by decide⟩, ?_⟩, ?_⟩
    · exact ⟨[.write 1, .emergencyStop, .closed], by simp [Session.events, Ending.events]⟩
    · rcases hpc with ⟨pending, hpc⟩ | hpc <;> simp [hpc]
  | failed S hS hpc hstatus =>
    refine ⟨⟨S, hS, ?_⟩, by simp [hpc]⟩
    exact (List.prefix_append_right_inj _).mpr (List.prefix_append _ _)
  | stopping S pending hS hpc =>
    refine ⟨⟨S, hS, ?_⟩, by simp [hpc]⟩
    exact (List.prefix_append_right_inj _).mpr (List.prefix_append _ _)
  | closing S hS hpc =>
    refine ⟨⟨S, hS, ?_⟩, by simp [hpc]⟩
    exact ⟨[.closed], by simp [Session.events]⟩

/-- Complete connections, and what has been done of the one that is not over. -/
def Sessions (s : TcpState) (evs : List TcpEvent) : Prop :=
  ∃ (sessions : List Session) (done : List TcpEvent), (∀ S ∈ sessions, S.Valid) ∧
    evs = sessions.flatMap Session.events ++ done ∧ Partway s done

/-- Every step adds to the connection that is not over, or completes it. -/
theorem sessions_step {s : TcpState} {evs : List TcpEvent} (h : Sessions s evs) (i : TcpInput) :
    Sessions (s.step i) (evs ++ s.events i) := by
  obtain ⟨sessions, done, hvalid, rfl, hpart⟩ := h
  rcases kept_step hpart i with hkept | ⟨S, hS, hevents, hkept⟩
  · exact ⟨sessions, _, hvalid, List.append_assoc _ _ _, hkept⟩
  · have hvalid' : ∀ T ∈ sessions ++ [S], T.Valid := List.forall_mem_append.mpr ⟨hvalid, List.forall_mem_singleton.mpr hS⟩
    refine ⟨sessions ++ [S], [], hvalid', ?_, hkept⟩
    rw [List.append_assoc, hevents]
    simp [List.flatMap_append]

/-- After every run, what the thread has done is a list of complete connections and a part of one. -/
theorem sessions_run (s : TcpState) (hs : s.pc = .accept) (sched : List TcpInput) :
    Sessions (Runs.run TcpState.step s sched) (Runs.trace TcpState.step TcpState.events s sched) :=
  Runs.trace_inv Sessions (fun _ _ i h => sessions_step h i) ⟨[], [], by simp, rfl, .idle hs⟩ sched

end FailStopAux

open FailStopAux

/-- What the thread does over every run is a list of complete connections followed by a beginning of one, which is empty while it
waits in `netconn_accept`. -/
theorem fail_stop_session (stack : HMICmdVar) (sched : List TcpInput) :
    ∃ (sessions : List Session) (done : List TcpEvent), (∀ S ∈ sessions, S.Valid) ∧
      Runs.trace TcpState.step TcpState.events (.boot stack) sched = sessions.flatMap Session.events ++ done ∧
      (∃ S : Session, S.Valid ∧ done <+: S.events) ∧
      ((Runs.run TcpState.step (.boot stack) sched).pc = .accept → done = []) := by
  obtain ⟨sessions, done, hvalid, htrace, hpart⟩ := sessions_run (.boot stack) rfl sched
  obtain ⟨hbegin, hidle⟩ := partway_prefix hpart
  exact ⟨sessions, done, hvalid, htrace, hbegin, hidle⟩

end Rtu

import Rtu.Theorems.Announcement

/-!
# What is behind the text of a reply

The 100 bytes of a reply are its text, the terminator, and behind them what was in the buffer: what earlier replies of the connection
left, or what was there when its block was opened. An observer notes both. `reply_bytes_iff` says when two replies with the same status
are the same bytes.
-/

namespace Rtu

open Runs AnnouncementAux

/-- What a reply is built from. -/
structure ReplyStatus where
  posActArm : UInt16
  posActPole : UInt16
  temp : UInt16
  freq : UInt32
  stalled : Bool
  onConditionFlag : Bool
  iServerStatus : UInt16
  deriving DecidableEq, Repr

/-- The columns that it is printed in. -/
def ReplyStatus.columns (st : ReplyStatus) : List Column :=
  [.number st.posActArm.toNat, .number st.posActPole.toNat, .number st.temp.toNat, .number st.freq.toUInt16.toNat,
    .text acwRun, .text accRun, .text pcwRun, .text pccRun, .text lupRun, .text ldwRun,
    .text (if st.stalled then stlAlm else stlRun), .text (if st.onConditionFlag then onCond else notPos),
    .number (if st.iServerStatus ≠ 0 then st.iServerStatus.toUInt8 else 0x00).toNat]

/-- Its text. -/
def ReplyStatus.text (st : ReplyStatus) : List UInt8 := Text.terminated space (st.columns.map Column.printed)

/-- What a reply is built from now: the status of the devices, the temperature, the edge of the flags and the status of the server. -/
def Station.status (s : Station) (r : TelemetryReadings) : ReplyStatus :=
  { posActArm := s.controller.arm.me.rdc.readPosition r.armPosition
    posActPole := s.controller.pole.me.rdc.readPosition r.polePosition
    temp := (temperatureRead s.statics.temperature r.temperature).temperature
    freq := s.controller.pole.me.freq
    stalled := s.controller.arm.me.stalled || s.controller.pole.me.stalled
    onConditionFlag := Rtu.onConditionFlag s.statics s.controller.arm.me s.controller.pole.me
    iServerStatus := s.controller.tcp.iServerStatus }

/-- What `RTUDataTx` holds in the block that a step opens, if it opens one. -/
def Station.opened (s : Station) : StationLabel → Option RTUData
  | .controller (.tcp (.accept err _)) stack => if s.controller.tcp.pc = .accept ∧ err = 0 then some stack else none
  | _ => none

/-- The station, what the buffer held when the block of the connection was opened, and what the replies of the connection were built from,
newest first. -/
structure Connected where
  station : Station
  entry : Vector UInt8 100
  replies : List ReplyStatus

/-- Boot. -/
def Connected.boot (stack : HMICmdVar) (rate : UInt32) (rtuDataTx : RTUData) : Connected :=
  { station := .boot stack rate rtuDataTx, entry := rtuDataTx.buffer, replies := [] }

/-- One step. -/
def Connected.step (o : Connected) (l : StationLabel) : Connected :=
  { station := o.station.step l
    entry := match o.station.opened l with
      | some stack => stack.buffer
      | none => o.entry
    replies := match o.station.opened l, l with
      | some _, _ => []
      | none, .reply r => if o.station.Replies then o.station.status r :: o.replies else o.replies
      | none, .controller .. => o.replies }

/-- A state of some run. -/
def Connected.Reachable (o : Connected) : Prop :=
  ∃ stack rate rtuDataTx sched, o = run Connected.step (.boot stack rate rtuDataTx) sched

/-- A reply built from a status is about to be passed to `netconn_write`. -/
structure Connected.Writes (o : Connected) (st : ReplyStatus) : Prop where
  pc : o.station.controller.tcp.pc = .write
  status : o.replies.head? = some st

/-- The 100 bytes that are passed. -/
def Connected.bytes (o : Connected) : Vector UInt8 100 := o.station.rtuDataTx.buffer

/-- The byte that the buffer holds at a place behind the text of the newest reply: the last byte that an earlier reply of the connection left
there, and before any of them reached it what was there when the block was opened. -/
def Connected.residue (o : Connected) (i : Nat) : Option UInt8 := Text.residue 0 o.entry (o.replies.tail.map ReplyStatus.text) i

namespace ResidueAux

/-! ## What the steps do to the buffer -/

/-- The thread comes to `netconn_write` from `TaskTriggerMsg`. -/
theorem pc_of_write {s : TcpState} {i : TcpInput} (h : (s.step i).pc = .write) : s.pc = .write ∨ s.pc = .trigger [] := by
  have hmove := s.move i
  generalize s.step i = s' at h hmove
  generalize s.effect i = e at hmove
  generalize s.events i = evs at hmove
  cases hmove with
  | skip => exact Or.inl h
  | triggered => exact Or.inr rfl
  | _ => cases h

/-- A step that builds no reply does not bring the thread to `netconn_write`. -/
theorem pc_write_controller {s : Station} {l : ControllerLabel} {stack : RTUData}
    (h : (s.step (.controller l stack)).controller.tcp.pc = .write) : s.controller.tcp.pc = .write := by
  by_cases hl : ∃ i, l = .tcp i
  · obtain ⟨i, rfl⟩ := hl
    by_cases hreplies : s.Replies
    · simp only [Station.step, if_pos hreplies] at h
      exact h
    · simp only [Station.step, if_neg hreplies] at h
      have hthread : (s.controller.tcpStep i).tcp.pc = .write := h
      have hpc : (s.controller.tcp.step i).pc = .write → s.controller.tcp.pc = .write :=
        fun hstep => (pc_of_write hstep).resolve_right hreplies
      rcases tcpStep_cases s.controller i with heq | ⟨-, heq⟩ | ⟨_, _, -, -, heq⟩ <;> rw [heq] at hthread
      · exact hthread
      · exact hpc hthread
      · exact hpc hthread
  · have hdevice : ∀ i, l ≠ .tcp i := fun i hi => hl ⟨i, hi⟩
    have hstep : (s.step (.controller l stack)).controller = s.controller.step l := by
      cases l with
      | tcp i => exact absurd rfl (hdevice i)
      | _ => rfl
    rw [hstep, (device_frame s.controller hdevice).1] at h
    exact h

/-- A step that builds no reply leaves `RTUDataTx`, unless it opens a block. -/
theorem rtuDataTx_controller (s : Station) (l : ControllerLabel) (stack : RTUData) :
    (s.step (.controller l stack)).rtuDataTx = (s.opened (.controller l stack)).getD s.rtuDataTx := by
  cases l with
  | tcp i =>
    by_cases hreplies : s.Replies
    · have hpc : s.controller.tcp.pc = .trigger [] := hreplies
      cases i <;> simp [Station.step, if_pos hreplies, Station.opened, hpc]
    · simp only [Station.step, if_neg hreplies]
      cases i with
      | accept err stack' =>
        by_cases hpc : s.controller.tcp.pc = .accept
        · simp only [Station.opened, hpc, true_and]
          by_cases herr : err = 0
          · rw [if_pos herr, if_pos herr, Option.getD_some]
          · rw [if_neg herr, if_neg herr, Option.getD_none]
        · rw [Station.opened, if_neg fun h => hpc h.1, Option.getD_none]
          split
          · rename_i haccept _
            exact absurd haccept hpc
          · rfl
      | _ => cases s.controller.tcp.pc <;> rfl
  | _ => rfl

/-- The text of a status fits, if the temperature has three digits, and has no NUL in it. -/
theorem text_status {s : Station} {r : TelemetryReadings} (htemp : s.statics.temperature.temperature.toNat < 1000) :
    (s.status r).text.length < 100 ∧ 0 ∉ (s.status r).text :=
  ⟨length_reply (temperatureRead_lt htemp r.temperature), nul_not_mem_columns _⟩

/-! ## The invariant -/

/-- What holds in every run: the temperature has three digits, the buffer holds the texts of the replies, one written over the other,
each of them fits, and before `netconn_write` there is one. -/
structure Holds (o : Connected) : Prop where
  threeDigits : o.station.statics.temperature.temperature.toNat < 1000
  buffer : o.station.rtuDataTx.buffer = Text.writeAll 0 o.entry (o.replies.map ReplyStatus.text)
  fits : ∀ st ∈ o.replies, st.text.length < 100 ∧ 0 ∉ st.text
  written : o.station.controller.tcp.pc = .write → o.replies ≠ []

theorem holds_boot (stack : HMICmdVar) (rate : UInt32) (rtuDataTx : RTUData) : Holds (.boot stack rate rtuDataTx) := by
  have hboot : TelemetryStatics.boot.temperature.temperature.toNat < 1000 := by decide
  refine ⟨hboot, rfl, ?_, ?_⟩
  · intro st hst
    cases hst
  · intro h
    cases h

/-- A block is opened by `netconn_accept`. -/
theorem pc_of_opened {s : Station} {l : StationLabel} {stack : RTUData} (h : s.opened l = some stack) :
    s.controller.tcp.pc = .accept := by
  unfold Station.opened at h
  split at h
  · exact (Option.ite_none_right_eq_some.mp h).1.1
  · cases h

/-- A step that builds no reply. -/
theorem holds_controller {o : Connected} (h : Holds o) (l : ControllerLabel) (stack : RTUData) :
    Holds (o.step (.controller l stack)) := by
  obtain ⟨hstatics, -⟩ := station_step_controller o.station l stack
  have hthree : (o.step (.controller l stack)).station.statics.temperature.temperature.toNat < 1000 := by
    show (o.station.step (.controller l stack)).statics.temperature.temperature.toNat < 1000
    rw [hstatics]
    exact h.threeDigits
  have hbuffer := rtuDataTx_controller o.station l stack
  cases hopen : o.station.opened (.controller l stack) with
  | none =>
    have hentry : (o.step (.controller l stack)).entry = o.entry := by simp only [Connected.step, hopen]
    have hreplies : (o.step (.controller l stack)).replies = o.replies := by simp only [Connected.step, hopen]
    rw [hopen, Option.getD_none] at hbuffer
    refine ⟨hthree, ?_, ?_, ?_⟩
    · rw [hentry, hreplies, ← h.buffer]
      exact congrArg RTUData.buffer hbuffer
    · rw [hreplies]
      exact h.fits
    · rw [hreplies]
      exact fun hpc => h.written (pc_write_controller hpc)
  | some data =>
    have hentry : (o.step (.controller l stack)).entry = data.buffer := by simp only [Connected.step, hopen]
    have hreplies : (o.step (.controller l stack)).replies = [] := by simp only [Connected.step, hopen]
    rw [hopen, Option.getD_some] at hbuffer
    refine ⟨hthree, ?_, ?_, ?_⟩
    · rw [hentry, hreplies]
      exact congrArg RTUData.buffer hbuffer
    · rw [hreplies]
      exact List.forall_mem_nil _
    · intro hpc
      have hwrite := pc_write_controller hpc
      rw [pc_of_opened hopen] at hwrite
      cases hwrite

/-- A step that builds a reply, if one is due. -/
theorem holds_reply {o : Connected} (h : Holds o) (r : TelemetryReadings) : Holds (o.step (.reply r)) := by
  by_cases hdue : o.station.Replies
  · have hentry : (o.step (.reply r)).entry = o.entry := rfl
    have hreplies : (o.step (.reply r)).replies = o.station.status r :: o.replies := if_pos hdue
    have hbuffer : (o.step (.reply r)).station.rtuDataTx.buffer =
        Text.writeBounded 0 o.station.rtuDataTx.buffer (o.station.status r).text := by
      show (o.station.step (.reply r)).rtuDataTx.buffer = _
      simp only [Station.step, if_pos hdue]
      exact buffer_netValues _ _ _ _ _ _
    refine ⟨?_, ?_, ?_, ?_⟩
    · show (o.station.step (.reply r)).statics.temperature.temperature.toNat < 1000
      rw [(reply_statics hdue r).2]
      exact temperatureRead_lt h.threeDigits _
    · rw [hentry, hreplies, hbuffer, h.buffer]
      rfl
    · rw [hreplies]
      exact List.forall_mem_cons.mpr ⟨text_status h.threeDigits, h.fits⟩
    · intro _
      rw [hreplies]
      exact List.cons_ne_nil _ _
  · have hstation : (o.step (.reply r)).station = o.station := if_neg hdue
    have hreplies : (o.step (.reply r)).replies = o.replies := if_neg hdue
    refine ⟨?_, ?_, ?_, ?_⟩
    · rw [hstation]
      exact h.threeDigits
    · rw [hstation, hreplies]
      exact h.buffer
    · rw [hreplies]
      exact h.fits
    · rw [hstation, hreplies]
      exact h.written

/-- The invariant holds in every run. -/
theorem holds_of_reachable {o : Connected} (h : o.Reachable) : Holds o := by
  obtain ⟨stack, rate, rtuDataTx, sched, rfl⟩ := h
  refine run_inv Holds (fun o l h => ?_) (holds_boot stack rate rtuDataTx) sched
  cases l with
  | controller l stack => exact holds_controller h l stack
  | reply r => exact holds_reply h r

/-- The bytes of a reply: the text of its status, written over what the earlier ones left. -/
theorem bytes_of_writes {o : Connected} (h : Holds o) {st : ReplyStatus} (hwrites : o.Writes st) :
    ∃ before : Vector UInt8 100, ∃ fits : st.text.length < 100, o.bytes = Text.write 0 before st.text fits ∧
      0 ∉ st.text ∧ ∀ i, before.toList[i]? = o.residue i := by
  obtain ⟨earlier, hreplies⟩ := List.head?_eq_some_iff.mp hwrites.status
  have hall := h.fits
  rw [hreplies] at hall
  obtain ⟨⟨hfits, hnul⟩, hearlier⟩ := List.forall_mem_cons.mp hall
  refine ⟨Text.writeAll 0 o.entry (earlier.map ReplyStatus.text), hfits, ?_, hnul, ?_⟩
  · unfold Connected.bytes
    rw [h.buffer, hreplies, ← Text.writeBounded_of_fits]
    rfl
  · intro i
    unfold Connected.residue
    rw [hreplies]
    refine Text.getElem?_writeAll 0 o.entry ?_ i
    intro text hmem
    obtain ⟨st', hst', rfl⟩ := List.mem_map.mp hmem
    exact (hearlier st' hst').1

/-! ## A first reply -/

/-- `RTUDataTx` with one byte all over its buffer. -/
def filledData (b : UInt8) : RTUData := { clearedData with buffer := .replicate 100 b }

/-- A connection is opened, with `RTUDataTx` as it is, and a frame that changes nothing is answered. -/
def firstReply (rtuDataTx : RTUData) : List StationLabel :=
  .controller (.tcp (.accept 0 bootCmd.stored)) rtuDataTx ::
    controllerSteps [.tcp (.recv 0), .tcp (.data 0 { bootCmd with clientID := .eSigned }.memory 51), .tcp .run] ++
      [.reply zeroReadings]

/-- The first reply of a connection. -/
def firstReplied (b : UInt8) : Connected :=
  run Connected.step (.boot bootCmd.stored 204000000 clearedData) (firstReply (filledData b))

/-- What it is built from. -/
def firstStatus : ReplyStatus :=
  { posActArm := 65535, posActPole := 65535, temp := 0, freq := 0, stalled := false, onConditionFlag := false, iServerStatus := 0 }

theorem firstReplied_reachable (b : UInt8) : (firstReplied b).Reachable := ⟨_, _, _, _, rfl⟩

theorem firstReplied_writes : (firstReplied 0).Writes firstStatus ∧ (firstReplied 255).Writes firstStatus := by
  refine ⟨⟨?_, ?_⟩, ?_, ?_⟩ <;> decide +kernel

end ResidueAux

open ResidueAux

/-- Every reply that is about to be passed to `netconn_write` was built from a status. -/
theorem exists_writes {o : Connected} (hreach : o.Reachable) (hpc : o.station.controller.tcp.pc = .write) : ∃ st, o.Writes st := by
  have hne := (holds_of_reachable hreach).written hpc
  exact ⟨o.replies.head hne, hpc, List.head?_eq_some_head hne⟩

/-- Replies with the same status. For every two runs, from any boot and under any schedule, that are both about to pass a reply built from
the same status to `netconn_write`: what is read up to the terminator is the same text in both, and the 100 bytes are the same if and only
if at every place behind the text the last earlier reply of the connection that reached it (or else what the buffer held when the block was
opened) left the same byte in both. -/
theorem reply_bytes_iff {o o' : Connected} (hreach : o.Reachable) (hreach' : o'.Reachable) {st : ReplyStatus} (hwrites : o.Writes st)
    (hwrites' : o'.Writes st) :
    (Text.read 0 o.bytes = st.text ∧ Text.read 0 o'.bytes = st.text) ∧
      (o.bytes = o'.bytes ↔ ∀ i, st.text.length < i → o.residue i = o'.residue i) := by
  obtain ⟨before, hfits, hbytes, hnul, hresidue⟩ := bytes_of_writes (holds_of_reachable hreach) hwrites
  obtain ⟨before', _, hbytes', -, hresidue'⟩ := bytes_of_writes (holds_of_reachable hreach') hwrites'
  refine ⟨⟨?_, ?_⟩, ?_⟩
  · rw [hbytes, Text.read_write _ _ hnul]
  · rw [hbytes', Text.read_write _ _ hnul]
  · rw [hbytes, hbytes', Text.write_inj_iff]
    simp only [hresidue, hresidue']

/-- The first reply of two connections whose buffers differ. -/
theorem reply_bytes_iff_first : (Text.read 0 (firstReplied 0).bytes = firstStatus.text ∧
      Text.read 0 (firstReplied 255).bytes = firstStatus.text) ∧
    ((firstReplied 0).bytes = (firstReplied 255).bytes ↔
      ∀ i, firstStatus.text.length < i → (firstReplied 0).residue i = (firstReplied 255).residue i) :=
  reply_bytes_iff (firstReplied_reachable 0) (firstReplied_reachable 255) firstReplied_writes.1 firstReplied_writes.2

/-- The first reply of two connections: the text has 90 characters, and behind it the bytes are those of the stack. -/
theorem reply_bytes_false :
    ¬∀ (o o' : Connected) (st : ReplyStatus), o.Reachable → o'.Reachable → o.Writes st → o'.Writes st → o.bytes = o'.bytes := by
  intro h
  have hsame := h (firstReplied 0) (firstReplied 255) firstStatus (firstReplied_reachable 0) (firstReplied_reachable 255)
    firstReplied_writes.1 firstReplied_writes.2
  have hdiffer : (firstReplied 0).bytes ≠ (firstReplied 255).bytes := by decide +kernel
  exact hdiffer hsame

end Rtu

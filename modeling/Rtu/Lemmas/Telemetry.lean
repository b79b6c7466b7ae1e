import Rtu.Lemmas.Backlog
import Rtu.Telemetry

/-!
# What a reply says

The text of a reply fits its buffer, as long as the temperature has three digits, and splits into the columns that were printed
(`fields_netValues`); so `ON_COND;` is in a reply exactly when the flags of both axes are set and those sampled for the reply before
were not (`onCond_mem_iff`). To the controller a reply is three of its steps (`station_controller`).
-/

namespace Rtu

open Runs

/-! ## Texts -/

/-- A digit is a byte of its own. -/
theorem digit_of_mem_toDigits {n : Nat} {c : Char} (h : c ∈ Nat.toDigits 10 n) :
    48 ≤ c.toNat ∧ c.toNat ≤ 57 ∧ (UInt8.ofNat c.toNat).toNat = c.toNat := by
  have hdigit := Nat.isDigit_of_mem_toDigits (by decide) (by decide) h
  simp only [Char.isDigit, ge_iff_le, Bool.and_eq_true, decide_eq_true_eq] at hdigit
  have hlo : 48 ≤ c.toNat := hdigit.1
  have hhi : c.toNat ≤ 57 := hdigit.2
  refine ⟨hlo, hhi, ?_⟩
  rw [UInt8.toNat_ofNat']
  exact Nat.mod_eq_of_lt (by omega)

/-- A decimal digit is no NUL and no space. -/
theorem digit_of_mem_decimal {n : Nat} {b : UInt8} (h : b ∈ decimal n) : 48 ≤ b.toNat ∧ b.toNat ≤ 57 := by
  obtain ⟨c, hc, rfl⟩ := List.mem_map.mp h
  obtain ⟨hlo, hhi, hbyte⟩ := digit_of_mem_toDigits hc
  rw [hbyte]
  exact ⟨hlo, hhi⟩

theorem nul_not_mem_decimal (n : Nat) : 0 ∉ decimal n := by
  intro h
  exact absurd (digit_of_mem_decimal h).1 (by decide)

theorem space_not_mem_decimal (n : Nat) : space ∉ decimal n := by
  intro h
  exact absurd (digit_of_mem_decimal h).1 (by decide)

/-- A number below a power of ten has at most that many digits. -/
theorem length_decimal {n k : Nat} (hk : 0 < k) (h : n < 10 ^ k) : (decimal n).length ≤ k := by
  unfold decimal literal
  rw [List.length_map]
  exact (Nat.length_toDigits_le_iff (by decide) hk).mpr h

/-- The `%s` of what `sprintf` wrote. -/
theorem read_sprintf (field : Vector UInt8 RTU_NETVAR_SIZE) (text : NetVar) : Text.read 0 (sprintf field text) = text.text :=
  Text.read_write field text.fits text.noNul

/-! ## The columns -/

/-- A column of a reply: a number, or one of the texts. -/
inductive Column where
  | number (n : Nat)
  | text (v : NetVar)

/-- What is printed. -/
def Column.printed : Column → List UInt8
  | .number n => decimal n
  | .text v => v.text

theorem nul_not_mem_printed (c : Column) : 0 ∉ c.printed := by
  cases c with
  | number n => exact nul_not_mem_decimal n
  | text v => exact v.noNul

theorem space_not_mem_printed (c : Column) : space ∉ c.printed := by
  cases c with
  | number n => exact space_not_mem_decimal n
  | text v => exact v.noSpace

/-- No NUL is in a text of columns. -/
theorem nul_not_mem_columns (columns : List Column) : 0 ∉ Text.terminated space (columns.map Column.printed) := by
  intro h
  rcases Text.mem_terminated h with hspace | ⟨field, hfield, hmem⟩
  · exact absurd hspace (by decide)
  · obtain ⟨c, -, rfl⟩ := List.mem_map.mp hfield
    exact nul_not_mem_printed c hmem

theorem length_printed_text (v : NetVar) : (Column.text v).printed.length ≤ 8 := Nat.le_of_lt_succ v.fits

theorem length_printed_uint16 (n : UInt16) : (Column.number n.toNat).printed.length ≤ 5 :=
  length_decimal (by decide) (Nat.lt_trans n.toNat_lt (by decide))

/-- Only a text says `ON_COND;`. -/
theorem printed_number_ne (n : Nat) : (Column.number n).printed ≠ onCond.text := by
  intro h
  have hmem : 79 ∈ (Column.number n).printed := by
    rw [h]
    decide
  exact absurd (digit_of_mem_decimal hmem).2 (by decide)

section Reply

variable (st : TelemetryStatics) (arm pole : MotPap) (iServerStatus : UInt16) (pRTUDataTx : RTUData) (r : TelemetryReadings)

/-- The reply sampled the flags of both axes, and the one before did not. -/
def onConditionFlag : Bool := arm.alreadyThere && pole.alreadyThere && !st.onConditionOld

/-- The columns of a reply. -/
def replyColumns : List Column :=
  [.number (arm.rdc.readPosition r.armPosition).toNat, .number (pole.rdc.readPosition r.polePosition).toNat,
    .number (temperatureRead st.temperature r.temperature).temperature.toNat, .number pole.freq.toUInt16.toNat,
    .text acwRun, .text accRun, .text pcwRun, .text pccRun, .text lupRun, .text ldwRun,
    .text (if arm.stalled || pole.stalled then stlAlm else stlRun), .text (if onConditionFlag st arm pole then onCond else notPos),
    .number (if iServerStatus ≠ 0 then iServerStatus.toUInt8 else 0x00).toNat]

/-- The text of a reply is its columns. -/
theorem text_netValues :
    (netValuesToSendFromRTU st arm pole iServerStatus pRTUDataTx r).2.2.2.text
        (temperatureRead st.temperature r.temperature).temperature =
      Text.terminated space ((replyColumns st arm pole iServerStatus r).map Column.printed) := by
  have hflag : ((arm.alreadyThere && pole.alreadyThere) != st.onConditionOld && (arm.alreadyThere && pole.alreadyThere)) =
      onConditionFlag st arm pole := by
    unfold onConditionFlag
    cases arm.alreadyThere <;> cases pole.alreadyThere <;> cases st.onConditionOld <;> rfl
  unfold replyColumns
  rw [← hflag]
  simp only [netValuesToSendFromRTU, RTUData.text, RTUData.columns, read_sprintf, List.map_cons, List.map_nil, Column.printed]
  rfl

/-- The buffer of a reply holds its columns. -/
theorem buffer_netValues :
    (netValuesToSendFromRTU st arm pole iServerStatus pRTUDataTx r).2.2.2.buffer =
      Text.writeBounded 0 pRTUDataTx.buffer
        (Text.terminated space ((replyColumns st arm pole iServerStatus r).map Column.printed)) := by
  rw [← text_netValues st arm pole iServerStatus pRTUDataTx r]
  rfl

variable {st arm pole iServerStatus r}

/-- The text of a reply fits, if the temperature has three digits. -/
theorem length_reply (htemp : (temperatureRead st.temperature r.temperature).temperature.toNat < 1000) :
    (Text.terminated space ((replyColumns st arm pole iServerStatus r).map Column.printed)).length < 100 := by
  rw [Text.length_terminated]
  have hposActArm := length_printed_uint16 (arm.rdc.readPosition r.armPosition)
  have hposActPole := length_printed_uint16 (pole.rdc.readPosition r.polePosition)
  have htemperature : (Column.number (temperatureRead st.temperature r.temperature).temperature.toNat).printed.length ≤ 3 :=
    length_decimal (by decide) htemp
  have hvelActPole := length_printed_uint16 pole.freq.toUInt16
  have hstall := length_printed_text (if arm.stalled || pole.stalled then stlAlm else stlRun)
  have hflag := length_printed_text (if onConditionFlag st arm pole then onCond else notPos)
  have hstatus : (Column.number (if iServerStatus ≠ 0 then iServerStatus.toUInt8 else 0x00).toNat).printed.length ≤ 3 :=
    length_decimal (by decide) (Nat.lt_trans (UInt8.toNat_lt _) (by decide))
  have htexts : ∀ v ∈ [acwRun, accRun, pcwRun, pccRun, lupRun, ldwRun], (Column.text v).printed.length ≤ 8 :=
    fun v _ => length_printed_text v
  simp only [List.forall_mem_cons] at htexts
  simp only [replyColumns, List.map_cons, List.map_nil, List.sum_cons, List.sum_nil, List.length_cons, List.length_nil]
  omega

/-- The text of a reply is read back from its buffer. -/
theorem read_netValues (htemp : (temperatureRead st.temperature r.temperature).temperature.toNat < 1000) :
    Text.read 0 (netValuesToSendFromRTU st arm pole iServerStatus pRTUDataTx r).2.2.2.buffer =
      Text.terminated space ((replyColumns st arm pole iServerStatus r).map Column.printed) := by
  have hfits : (Text.terminated space ((replyColumns st arm pole iServerStatus r).map Column.printed)).length < 100 :=
    length_reply htemp
  rw [buffer_netValues, Text.writeBounded_of_fits _ _ hfits, Text.read_write _ _ (nul_not_mem_columns _)]

/-- The fields of a reply are its columns, and what is left behind the last space. -/
theorem fields_netValues (htemp : (temperatureRead st.temperature r.temperature).temperature.toNat < 1000) :
    (netValuesToSendFromRTU st arm pole iServerStatus pRTUDataTx r).2.2.2.fields =
      (replyColumns st arm pole iServerStatus r).map Column.printed ++ [[]] := by
  have hspace : ∀ field ∈ (replyColumns st arm pole iServerStatus r).map Column.printed, space ∉ field := by
    intro field hfield
    obtain ⟨c, -, rfl⟩ := List.mem_map.mp hfield
    exact space_not_mem_printed c
  unfold RTUData.fields
  rw [read_netValues pRTUDataTx htemp, Text.splitOn_terminated hspace]

/-- A reply carries `ON_COND;` exactly when the flags of both axes are set and those of the reply before were not. -/
theorem onCond_mem_iff (htemp : (temperatureRead st.temperature r.temperature).temperature.toNat < 1000) :
    onCond.text ∈ (netValuesToSendFromRTU st arm pole iServerStatus pRTUDataTx r).2.2.2.fields ↔
      onConditionFlag st arm pole = true := by
  rw [fields_netValues pRTUDataTx htemp, List.mem_append, List.mem_map]
  constructor
  · rintro (⟨c, hc, hprinted⟩ | hnil)
    · have hstall : (Column.text (if arm.stalled || pole.stalled then stlAlm else stlRun)).printed ≠ onCond.text := by
        split <;> decide
      cases hflag : onConditionFlag st arm pole with
      | true => rfl
      | false =>
        simp only [replyColumns, hflag, List.mem_cons, List.not_mem_nil, or_false] at hc
        rcases hc with rfl | rfl | rfl | rfl | rfl | rfl | rfl | rfl | rfl | rfl | rfl | rfl | rfl <;>
          first
          | exact absurd hprinted (printed_number_ne _)
          | exact absurd hprinted hstall
          | exact absurd hprinted (by decide)
    · exact absurd (List.mem_singleton.mp hnil) (by decide)
  · intro hflag
    exact Or.inl ⟨.text onCond, by simp [replyColumns, hflag], rfl⟩

end Reply

/-! ## The temperature -/

/-- The temperature has three digits: the sum is a `uint16_t`. -/
theorem temperatureRead_lt {me : Temperature} (h : me.temperature.toNat < 1000) (reading : UInt16) :
    (temperatureRead me reading).temperature.toNat < 1000 := by
  unfold temperatureRead
  dsimp only
  split
  · have hsum := (temperatureSum (me.aTemperature.set me.i.toNat reading me.inRange)).toNat_lt
    have hdiv : (temperatureSum (me.aTemperature.set me.i.toNat reading me.inRange) / 200).toNat =
        (temperatureSum (me.aTemperature.set me.i.toNat reading me.inRange)).toNat / 200 := UInt16.toNat_div _ _
    show (temperatureSum (me.aTemperature.set me.i.toNat reading me.inRange) / 200).toNat < 1000
    omega
  · exact h

/-! ## The station as a controller -/

/-- The steps of the controller that a step of the station is. -/
def Station.turns (s : Station) : StationLabel → List ControllerLabel
  | .controller (.tcp i) _ => if s.Replies then [] else [.tcp i]
  | .controller l _ => [l]
  | .reply r => if s.Replies then [.status .pole r.poleStatus, .status .arm r.armStatus, .tcp .run] else []

/-- A step of the station is some steps of the controller. -/
theorem station_controller (s : Station) (l : StationLabel) :
    (s.step l).controller = run Controller.step s.controller (s.turns l) := by
  by_cases hreplies : s.Replies
  · cases l with
    | controller l stack =>
      cases l with
      | tcp i => simp only [Station.step, Station.turns, if_pos hreplies, run_nil]
      | _ => rfl
    | reply r =>
      have heffect : s.controller.tcp.effect .run = none := by
        unfold Station.Replies at hreplies
        simp only [TcpState.effect, hreplies]
      simp only [Station.step, Station.turns, if_pos hreplies, run_cons, run_nil, Controller.step, Controller.setAxis, Controller.axis,
        Controller.tcpStep, heffect]
      rfl
  · cases l with
    | controller l stack =>
      cases l with
      | tcp i => simp only [Station.step, Station.turns, if_neg hreplies, run_cons, run_nil]
      | _ => rfl
    | reply r => simp only [Station.step, Station.turns, if_neg hreplies, run_nil]

/-- A step of the thread where no reply is due, and which opens no block. -/
theorem station_step_tcp {s : Station} {i : TcpInput} (hreplies : ¬s.Replies) (hblock : s.controller.tcp.pc ≠ .accept)
    (stack : RTUData) : s.step (.controller (.tcp i) stack) = { s with controller := s.controller.step (.tcp i) } := by
  simp only [Station.step, if_neg hreplies]
  congr 1
  split
  · exact absurd (by assumption) hblock
  · rfl

/-- A step that builds no reply leaves the static variables behind the replies, and is a step of the controller or none. -/
theorem station_step_controller (s : Station) (l : ControllerLabel) (stack : RTUData) :
    (s.step (.controller l stack)).statics = s.statics ∧
      ((s.step (.controller l stack)).controller = s.controller ∨
        (s.step (.controller l stack)).controller = s.controller.step l) := by
  cases l with
  | tcp i =>
    by_cases hreplies : s.Replies
    · simp only [Station.step, if_pos hreplies]
      exact ⟨trivial, Or.inl trivial⟩
    · simp only [Station.step, if_neg hreplies]
      exact ⟨trivial, Or.inr trivial⟩
  | _ => exact ⟨rfl, Or.inr rfl⟩

/-- What a run of the station leaves is what a run of the controller leaves. -/
theorem station_refines_controller (stack : HMICmdVar) (rate : UInt32) (rtuDataTx : RTUData) (sched : List StationLabel) :
    ∃ sched', (run Station.step (.boot stack rate rtuDataTx) sched).controller =
      run Controller.step (.boot stack rate) sched' :=
  run_refines Station.controller (fun _ => True) (fun _ _ h => h) (fun s l _ => ⟨s.turns l, station_controller s l⟩) trivial sched

end Rtu

import Rtu.Lemmas.Telemetry
import Rtu.Theorems.Temperature

/-!
# The text of a reply is read back

The other end splits the text at its spaces and reads each number back from its digits (`ReplyFields.ofText`). With a temperature of three
digits the longest text has 98 characters, so that the text always fits and what is read back is what was printed.
-/

namespace Rtu

open Runs

/-- The value of a text of decimal digits. -/
def ofDecimal (text : List UInt8) : Nat := text.foldl (fun n b => 10 * n + (b.toNat - 48)) 0

/-- The thirteen fields of a reply, as the other end reads them. -/
structure ReplyFields where
  posActArm : Nat
  posActPole : Nat
  temp : Nat
  velActPole : Nat
  cwLimitArm : List UInt8
  ccwLimitArm : List UInt8
  cwLimitPole : List UInt8
  ccwLimitPole : List UInt8
  limitUp : List UInt8
  limitDown : List UInt8
  stallAlm : List UInt8
  onCondition : List UInt8
  status : Nat
  deriving DecidableEq, Repr

/-- The text split at its spaces: thirteen fields, with nothing behind the last space. -/
def ReplyFields.ofText (text : List UInt8) : Option ReplyFields :=
  match text.splitOn space with
  | [posActArm, posActPole, temp, velActPole, cwLimitArm, ccwLimitArm, cwLimitPole, ccwLimitPole, limitUp, limitDown, stallAlm,
      onCondition, status, []] =>
    some
      { posActArm := ofDecimal posActArm, posActPole := ofDecimal posActPole, temp := ofDecimal temp
        velActPole := ofDecimal velActPole, cwLimitArm, ccwLimitArm, cwLimitPole, ccwLimitPole, limitUp, limitDown, stallAlm
        onCondition, status := ofDecimal status }
  | _ => none

/-- The texts among the fields. -/
def ReplyFields.texts (f : ReplyFields) : List (List UInt8) :=
  [f.cwLimitArm, f.ccwLimitArm, f.cwLimitPole, f.ccwLimitPole, f.limitUp, f.limitDown, f.stallAlm, f.onCondition]

/-- What a reply says: its numbers, and what is in its eight text fields. -/
def RTUData.values (tx : RTUData) (temp : UInt16) : ReplyFields :=
  { posActArm := tx.posActArm.toNat, posActPole := tx.posActPole.toNat, temp := temp.toNat, velActPole := tx.velActPole.toNat
    cwLimitArm := Text.read 0 tx.cwLimitArm, ccwLimitArm := Text.read 0 tx.ccwLimitArm, cwLimitPole := Text.read 0 tx.cwLimitPole
    ccwLimitPole := Text.read 0 tx.ccwLimitPole, limitUp := Text.read 0 tx.limitUp, limitDown := Text.read 0 tx.limitDown
    stallAlm := Text.read 0 tx.stallAlm, onCondition := Text.read 0 tx.onCondition, status := tx.status.toNat }

/-- A reply, built after the temperature has been read some times. -/
def replyAfter (readings : List UInt16) (onConditionOld : Bool) (arm pole : MotPap) (iServerStatus : UInt16)
    (pRTUDataTx : RTUData) (r : TelemetryReadings) : RTUData :=
  (netValuesToSendFromRTU { onConditionOld, temperature := run temperatureRead .boot readings } arm pole iServerStatus pRTUDataTx
    r).2.2.2

namespace ReplyTextAux

/-- The digits of a text are folded as characters or as bytes. -/
theorem foldl_literal {cs : List Char} (h : ∀ c ∈ cs, (UInt8.ofNat c.toNat).toNat = c.toNat) (n : Nat) :
    (literal cs).foldl (fun n b => 10 * n + (b.toNat - 48)) n = Nat.ofDigitChars 10 cs n := by
  induction cs generalizing n with
  | nil => rw [Nat.ofDigitChars_nil]; rfl
  | cons c cs ih =>
    obtain ⟨hc, hcs⟩ := List.forall_mem_cons.mp h
    rw [Nat.ofDigitChars_cons, ← ih hcs, literal, List.map_cons, List.foldl_cons, hc]
    rfl

/-- A number is read back from its digits. -/
theorem ofDecimal_decimal (n : Nat) : ofDecimal (decimal n) = n := by
  unfold ofDecimal decimal
  rw [foldl_literal fun c hc => (digit_of_mem_toDigits hc).2.2]
  exact Nat.ofDigitChars_ten_toDigits

/-- The columns of a text are read back, if its text fields have no spaces in them. -/
theorem ofText_text (tx : RTUData) (temp : UInt16) (h : ∀ column ∈ (tx.values temp).texts, space ∉ column) :
    ReplyFields.ofText (tx.text temp) = some (tx.values temp) := by
  have hspace : ∀ column ∈ tx.columns temp, space ∉ column := by
    simp only [ReplyFields.texts, RTUData.values, List.forall_mem_cons] at h
    simp only [RTUData.columns, List.forall_mem_cons]
    obtain ⟨h1, h2, h3, h4, h5, h6, h7, h8, -⟩ := h
    exact ⟨space_not_mem_decimal _, space_not_mem_decimal _, space_not_mem_decimal _, space_not_mem_decimal _, h1, h2, h3, h4, h5,
      h6, h7, h8, space_not_mem_decimal _, List.forall_mem_nil _⟩
  unfold ReplyFields.ofText RTUData.text
  rw [Text.splitOn_terminated hspace]
  simp only [RTUData.columns, List.cons_append, List.nil_append, ofDecimal_decimal]
  rfl

/-! ## A reply -/

section Reply

variable (readings : List UInt16) (onConditionOld : Bool) (arm pole : MotPap) (iServerStatus : UInt16) (pRTUDataTx : RTUData)
  (r : TelemetryReadings)

/-- The temperature of a reply has three digits. -/
theorem threeDigits : (temperatureRead (run temperatureRead .boot readings) r.temperature).temperature.toNat < 1000 := by
  have hstatic : (run temperatureRead .boot readings).temperature.toNat < 1000 :=
    run_inv (fun me : Temperature => me.temperature.toNat < 1000) (fun _ reading h => temperatureRead_lt h reading) (by decide) readings
  exact temperatureRead_lt hstatic r.temperature

/-- The text of a reply, in its columns. -/
theorem text_replyAfter :
    (replyAfter readings onConditionOld arm pole iServerStatus pRTUDataTx r).text (temperatureAt (readings ++ [r.temperature])) =
      Text.terminated space ((replyColumns { onConditionOld, temperature := run temperatureRead .boot readings } arm pole
        iServerStatus r).map Column.printed) := by
  unfold temperatureAt
  rw [run_snoc]
  exact text_netValues _ _ _ _ _ _

/-- It is read back from the buffer. -/
theorem read_replyAfter :
    Text.read 0 (replyAfter readings onConditionOld arm pole iServerStatus pRTUDataTx r).buffer =
      (replyAfter readings onConditionOld arm pole iServerStatus pRTUDataTx r).text (temperatureAt (readings ++ [r.temperature])) := by
  rw [text_replyAfter]
  exact read_netValues pRTUDataTx (threeDigits readings r)

/-- The text fields hold texts that fit them. -/
theorem texts_replyAfter (temp : UInt16) :
    ∀ text ∈ ((replyAfter readings onConditionOld arm pole iServerStatus pRTUDataTx r).values temp).texts,
      ∃ v : NetVar, text = v.text := by
  simp only [ReplyFields.texts, RTUData.values, List.forall_mem_cons]
  exact ⟨⟨_, read_sprintf _ _⟩, ⟨_, read_sprintf _ _⟩, ⟨_, read_sprintf _ _⟩, ⟨_, read_sprintf _ _⟩, ⟨_, read_sprintf _ _⟩,
    ⟨_, read_sprintf _ _⟩, ⟨_, read_sprintf _ _⟩, ⟨_, read_sprintf _ _⟩, List.forall_mem_nil _⟩

/-- The fields are recovered from the text. -/
theorem ofText_replyAfter (temp : UInt16) :
    ReplyFields.ofText ((replyAfter readings onConditionOld arm pole iServerStatus pRTUDataTx r).text temp) =
      some ((replyAfter readings onConditionOld arm pole iServerStatus pRTUDataTx r).values temp) := by
  refine ofText_text _ temp ?_
  intro text hmem
  obtain ⟨v, rfl⟩ := texts_replyAfter readings onConditionOld arm pole iServerStatus pRTUDataTx r temp text hmem
  exact v.noSpace

end Reply

end ReplyTextAux

open ReplyTextAux

/-- The text of a reply fits and is read back. For every sequence of readings of the temperature converter before this reply, for every arm
and pole (so for every position, frequency and stall flag), every edge, every server status, and whatever `RTUDataTx` holds: the text
has at most 99 characters, the whole of it is in the buffer, each text written by `sprintf` has room for its NUL in its field, and from
the text alone the thirteen fields are recovered, so that no two replies that differ in a field have the same text. -/
theorem reply_text_decodes (readings : List UInt16) (onConditionOld : Bool) (arm pole : MotPap) (iServerStatus : UInt16)
    (pRTUDataTx : RTUData) (r : TelemetryReadings) :
    let tx := replyAfter readings onConditionOld arm pole iServerStatus pRTUDataTx r
    let temp := temperatureAt (readings ++ [r.temperature])
    (tx.text temp).length ≤ 99 ∧ Text.read 0 tx.buffer = tx.text temp ∧
      (∀ text ∈ (tx.values temp).texts, text.length + 1 ≤ RTU_NETVAR_SIZE) ∧
      ReplyFields.ofText (tx.text temp) = some (tx.values temp) := by
  intro tx temp
  refine ⟨?_, ?_, ?_, ?_⟩
  · show ((replyAfter readings onConditionOld arm pole iServerStatus pRTUDataTx r).text _).length ≤ 99
    rw [text_replyAfter]
    exact Nat.le_of_lt_succ (length_reply (threeDigits readings r))
  · exact read_replyAfter readings onConditionOld arm pole iServerStatus pRTUDataTx r
  · intro text hmem
    obtain ⟨v, rfl⟩ := texts_replyAfter readings onConditionOld arm pole iServerStatus pRTUDataTx r temp text hmem
    exact v.fits
  · exact ofText_replyAfter readings onConditionOld arm pole iServerStatus pRTUDataTx r temp

end Rtu

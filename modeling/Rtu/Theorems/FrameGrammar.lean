import Rtu.Lemmas.NetValues

/-!
# The frames that are accepted

`NetValuesReceivedFromHMI` accepts exactly the frames of the grammar below, and an accepted frame and its command determine each
other: what is stored is the decoding of the 46 bytes of the structure, and encoding it gives them back.
-/

namespace Rtu

/-- The grammar of a frame: its length, the bytes of the client id, the range of the velocities and the tokens of the fields. -/
structure FrameOk (mem : Nat → UInt8) (len : UInt16) : Prop where
  length : len = 51
  clientId : bytes mem 41 5 = literal ['S', 'M', '1', '3', ';']
  velCmdArm : mem 4 ≤ 8
  velCmdPole : mem 5 ≤ 8
  mode : bytes mem 6 5 ∈ modeTokens.tokens
  freeRunAxis : bytes mem 11 5 ∈ freeRunAxisTokens.tokens
  freeRunDir : bytes mem 16 5 ∈ freeRunDirTokens.tokens
  ctrlEn : bytes mem 21 5 ∈ ctrlEnTokens.tokens
  stallEn : bytes mem 26 5 ∈ stallEnTokens.tokens
  liftDir : bytes mem 31 5 ∈ liftDirTokens.tokens
  setCal : bytes mem 36 5 ∈ setCalTokens.tokens

/-- A command in the layout of `HMIData_t`. -/
def HMICmd.encode (cmd : HMICmd) : List UInt8 := cmd.data.encode

namespace FrameGrammarAux

/-- The fields of a structure read from a memory are right exactly when the bytes are. -/
theorem frameOk_iff (mem : Nat → UInt8) :
    FrameOk mem RCV_TRAMA_LARGO ↔ bytes mem 41 HMI_NETVAR_SIZE = clientIdToken ∧ (HMIData.at mem).FieldsOk := by
  constructor
  · intro h
    exact ⟨h.clientId, h.velCmdArm, h.velCmdPole, h.mode, h.freeRunAxis, h.freeRunDir, h.ctrlEn, h.stallEn, h.liftDir, h.setCal⟩
  · rintro ⟨hid, h⟩
    exact ⟨rfl, hid, h.velCmdArm, h.velCmdPole, h.mode, h.freeRunAxis, h.freeRunDir, h.ctrlEn, h.stallEn, h.liftDir, h.setCal⟩

/-- The status of a call, by the grammar. -/
theorem status_eq (mem : Nat → UInt8) (v : HMICmdVar) (len : UInt16) :
    ((netValuesReceivedFromHMI mem v len).2 = ERR_OK ↔ FrameOk mem len) ∧
      (¬FrameOk mem len → (netValuesReceivedFromHMI mem v len).2 =
        if len = 0 then 0x81 else if len ≠ 51 then 0x82 else if bytes mem 41 5 ≠ clientIdToken then 0x84 else 0x83) := by
  rw [netValues_eq]
  by_cases h51 : len = RCV_TRAMA_LARGO
  · subst h51
    have h0 : RCV_TRAMA_LARGO ≠ 0 := by decide
    have hne : ¬RCV_TRAMA_LARGO ≠ RCV_TRAMA_LARGO := by simp
    have hne' : ¬RCV_TRAMA_LARGO ≠ 51 := by decide
    rw [frameOk_iff, if_neg h0, if_neg hne, if_neg h0, if_neg hne']
    by_cases hid : bytes mem 41 HMI_NETVAR_SIZE = clientIdToken
    · have hid' : bytes mem 41 5 = clientIdToken := hid
      rw [if_neg (by simp [hid]), if_neg (by simp [hid'])]
      obtain ⟨hstatus, hok⟩ := parseFields_status (sized_at mem) { v with clientID := some .eSigned }
      refine ⟨by simp [hok, hid], ?_⟩
      intro hbad
      rcases hstatus with hs | hs
      · exact absurd ⟨hid, hok.mp hs⟩ hbad
      · exact hs
    · have hid' : bytes mem 41 5 ≠ clientIdToken := hid
      rw [if_pos hid, if_pos hid']
      have hcliente : ERROR_TRAMA_CLIENTE ≠ ERR_OK := by decide
      exact ⟨⟨fun h => absurd h hcliente, fun h => absurd h.1 hid⟩, fun _ => rfl⟩
  · have hlen : len ≠ 51 := h51
    have hbad : ¬FrameOk mem len := fun h => hlen h.length
    by_cases h0 : len = 0
    · have hvacia : ERROR_TRAMA_VACIA ≠ ERR_OK := by decide
      rw [if_pos h0, if_pos h0]
      exact ⟨⟨fun h => absurd h hvacia, fun h => absurd h hbad⟩, fun _ => rfl⟩
    · have hlargo : ERROR_TRAMA_LARGO ≠ ERR_OK := by decide
      rw [if_neg h0, if_pos h51, if_neg h0, if_pos hlen]
      exact ⟨⟨fun h => absurd h hlargo, fun h => absurd h hbad⟩, fun _ => rfl⟩

end FrameGrammarAux

open FrameGrammarAux

/-- A fragment is accepted exactly when it is a frame. The command stored is then the decoding of the frame alone, whatever the
variable held before: encoding it gives the first 46 bytes. A signed command in range, encoded and followed by any five bytes, is
accepted and stored. A fragment that is no frame gives the error of the first of its faults: empty, length, client id, data. -/
theorem frame_grammar (mem : Nat → UInt8) (prior : HMICmdVar) (len : UInt16) :
    ((netValuesReceivedFromHMI mem prior len).2 = ERR_OK ↔ FrameOk mem len) ∧
      ((netValuesReceivedFromHMI mem prior len).2 = ERR_OK →
        ∃ cmd : HMICmd, (∀ prior', netValuesReceivedFromHMI mem prior' len = (cmd.stored, ERR_OK)) ∧
          cmd.encode = bytes mem 0 46) ∧
      (∀ (cmd : HMICmd) (rest : List UInt8), cmd.clientID = .eSigned → cmd.velCmdArm ≤ 8 → cmd.velCmdPole ≤ 8 →
        bytes mem 0 51 = cmd.encode ++ rest → netValuesReceivedFromHMI mem prior 51 = (cmd.stored, ERR_OK)) ∧
      (¬FrameOk mem len → (netValuesReceivedFromHMI mem prior len).2 =
        if len = 0 then 0x81 else if len ≠ 51 then 0x82 else if bytes mem 41 5 ≠ clientIdToken then 0x84 else 0x83) := by
  obtain ⟨hok, hbad⟩ := status_eq mem prior len
  refine ⟨hok, ?_, ?_, hbad⟩
  · intro h
    obtain ⟨cmd, hdata, hstored⟩ := command_of_ok h
    refine ⟨cmd, hstored, ?_⟩
    rw [HMICmd.encode, hdata, encode_at]
  · intro cmd rest hs harm hpole hbytes
    have hlen : (bytes mem 0 46).length = cmd.encode.length := by
      rw [bytes_length, HMICmd.encode, encode_length (sized_data cmd)]
    rw [bytes_add mem 0 46 5] at hbytes
    have hfirst := (List.append_inj hbytes hlen).1
    have hat : HMIData.at mem = cmd.data := encode_inj (sized_at mem) (sized_data cmd) ((encode_at mem).trans hfirst)
    exact netValues_data hs harm hpole hat prior

end Rtu

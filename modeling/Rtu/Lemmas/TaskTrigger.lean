import Rtu.TaskTrigger

/-!
# `TaskTriggerMsg` without its bits

The static variables always hold the flags and the set points of the command of the previous call (at boot, of the command
whose fields are all zero), so a call is a function of two commands. `dispatch` says which calls it makes, field by field, and
`taskTriggerMsg_eq` is the reading of the flag and event bytes that connects the two. Everything else about the producer is
derived from `dispatch`.
-/

namespace Rtu

/-! ## Bytes -/

theorem xor_and_distrib (a b m : UInt8) : (a ^^^ b) &&& m = (a &&& m) ^^^ (b &&& m) := by
  rw [← UInt8.toBitVec_inj]
  ext i hi
  simp [Bool.and_xor_distrib_right]

theorem or_and_distrib (a b m : UInt8) : (a ||| b) &&& m = (a &&& m) ||| (b &&& m) := by
  rw [← UInt8.toBitVec_inj]
  ext i hi
  simp [Bool.and_or_distrib_right]

/-- A bit set in a position that a mask does not read. -/
theorem bitSetIf_and (c : Prop) [Decidable c] (a p m : UInt8) (h : bit p &&& m = 0) :
    bitSetIf c a p &&& m = a &&& m := by
  unfold bitSetIf bitSet
  split
  · rw [or_and_distrib, h]
    simp
  · rfl

/-- A bit set in the position that a mask reads. -/
theorem bitSetIf_and_self (c : Prop) [Decidable c] (a p : UInt8) (h : a &&& bit p = 0) :
    bitSetIf c a p &&& bit p = if c then bit p else 0 := by
  unfold bitSetIf bitSet
  split
  · rw [or_and_distrib, h]
    simp
  · exact h

/-! ## The flag byte -/

/-- The mode bits of the flag byte are those of the mode. -/
theorem flagByte_mode (cmd : HMICmd) : 0x03 &&& ucActualFlagByte cmd = modeBits cmd.mode := by
  unfold ucActualFlagByte
  rw [UInt8.and_comm, bitSetIf_and _ _ 5 _ (by decide), bitSetIf_and _ _ 4 _ (by decide), bitSetIf_and _ _ 3 _ (by decide),
    bitSetIf_and _ _ 2 _ (by decide)]
  cases cmd.mode <;> decide

/-- The mode bits leave the other bits clear. -/
theorem modeBits_and (m : Mode) (p : UInt8) (h : p = 2 ∨ p = 3 ∨ p = 4 ∨ p = 5) : modeBits m &&& bit p = 0 := by
  rcases h with rfl | rfl | rfl | rfl <;> cases m <;> decide

theorem flagByte_ctrlEn (cmd : HMICmd) :
    ucActualFlagByte cmd &&& bit 2 = if cmd.ctrlEn = .eEnable then bit 2 else 0 := by
  unfold ucActualFlagByte
  rw [bitSetIf_and _ _ 5 _ (by decide), bitSetIf_and _ _ 4 _ (by decide), bitSetIf_and _ _ 3 _ (by decide),
    bitSetIf_and_self _ _ 2 (modeBits_and _ _ (by simp))]

theorem flagByte_freeRunDir (cmd : HMICmd) :
    ucActualFlagByte cmd &&& bit 3 = if cmd.freeRunDir = .eCCW then bit 3 else 0 := by
  unfold ucActualFlagByte
  rw [bitSetIf_and _ _ 5 _ (by decide), bitSetIf_and _ _ 4 _ (by decide), bitSetIf_and_self]
  rw [bitSetIf_and _ _ 2 _ (by decide)]
  exact modeBits_and _ _ (by simp)

theorem flagByte_freeRunAxis (cmd : HMICmd) :
    ucActualFlagByte cmd &&& bit 4 = if cmd.freeRunAxis = .ePole then bit 4 else 0 := by
  unfold ucActualFlagByte
  rw [bitSetIf_and _ _ 5 _ (by decide), bitSetIf_and_self]
  rw [bitSetIf_and _ _ 3 _ (by decide), bitSetIf_and _ _ 2 _ (by decide)]
  exact modeBits_and _ _ (by simp)

theorem flagByte_liftDir (cmd : HMICmd) :
    ucActualFlagByte cmd &&& bit 5 = if cmd.liftDir = .eUp then bit 5 else 0 := by
  unfold ucActualFlagByte
  rw [bitSetIf_and_self]
  rw [bitSetIf_and _ _ 4 _ (by decide), bitSetIf_and _ _ 3 _ (by decide), bitSetIf_and _ _ 2 _ (by decide)]
  exact modeBits_and _ _ (by simp)

theorem modeBits_inj {m m' : Mode} (h : modeBits m = modeBits m') : m = m' := by
  revert h
  cases m <;> cases m' <;> decide

/-- Two commands agree on everything the flag byte holds. -/
structure HMICmd.SameFlags (prev cur : HMICmd) : Prop where
  mode : cur.mode = prev.mode
  ctrlEn : cur.ctrlEn = prev.ctrlEn
  freeRunDir : cur.freeRunDir = prev.freeRunDir
  freeRunAxis : cur.freeRunAxis = prev.freeRunAxis
  liftDir : cur.liftDir = prev.liftDir

/-- The flag bytes of two commands are equal exactly when the commands agree on everything they hold. -/
theorem flagByte_eq_iff (prev cur : HMICmd) : ucActualFlagByte cur = ucActualFlagByte prev ↔ prev.SameFlags cur := by
  constructor
  · intro h
    refine ⟨?_, ?_, ?_, ?_, ?_⟩
    · apply modeBits_inj
      rw [← flagByte_mode, ← flagByte_mode, h]
    · have hbit := (flagByte_ctrlEn cur).symm.trans ((congrArg (· &&& bit 2) h).trans (flagByte_ctrlEn prev))
      revert hbit
      cases cur.ctrlEn <;> cases prev.ctrlEn <;> decide
    · have hbit := (flagByte_freeRunDir cur).symm.trans ((congrArg (· &&& bit 3) h).trans (flagByte_freeRunDir prev))
      revert hbit
      cases cur.freeRunDir <;> cases prev.freeRunDir <;> decide
    · have hbit := (flagByte_freeRunAxis cur).symm.trans ((congrArg (· &&& bit 4) h).trans (flagByte_freeRunAxis prev))
      revert hbit
      cases cur.freeRunAxis <;> cases prev.freeRunAxis <;> decide
    · have hbit := (flagByte_liftDir cur).symm.trans ((congrArg (· &&& bit 5) h).trans (flagByte_liftDir prev))
      revert hbit
      cases cur.liftDir <;> cases prev.liftDir <;> decide
  · rintro ⟨h1, h2, h3, h4, h5⟩
    simp only [ucActualFlagByte, h1, h2, h3, h4, h5]

/-! ## The event byte -/

/-- The static variables after a call with a command. -/
def TriggerStatics.of (cmd : HMICmd) : TriggerStatics :=
  { ucPreviousFlagByte := ucActualFlagByte cmd, bStallPreviousFlag := decide (cmd.stallEn = .eEnable)
    uiPreviousPosCmdArm := cmd.posCmdArm, uiPreviousPosCmdPole := cmd.posCmdPole }

/-- The command whose fields are all zero, which the static variables hold at boot. -/
def bootCmd : HMICmd :=
  { posCmdArm := 0, posCmdPole := 0, velCmdArm := 0, velCmdPole := 0, mode := .eStop, freeRunAxis := .eArm
    freeRunDir := .eCW, ctrlEn := .eDisable, stallEn := .eDisable, liftDir := .eDown, setCal := .eNop
    clientID := .eUnsigned }

theorem statics_boot : TriggerStatics.boot = .of bootCmd := by decide

/-- Two commands agree on everything the event byte compares. -/
structure HMICmd.Unchanged (prev cur : HMICmd) : Prop extends prev.SameFlags cur where
  posCmdArm : cur.posCmdArm = prev.posCmdArm
  posCmdPole : cur.posCmdPole = prev.posCmdPole

theorem eventByte_eq_zero_iff (prev cur : HMICmd) : ucEventFlagByte (.of prev) cur = 0x00 ↔ prev.Unchanged cur := by
  have hset : ∀ (c : Prop) [Decidable c] (a : UInt8), bitSetIf c a 6 = 0 ↔ ¬c ∧ a = 0 := by
    intro c _ a
    unfold bitSetIf bitSet
    split
    · rename_i hc
      rw [UInt8.or_eq_zero_iff]
      simp [hc, show bit 6 ≠ 0 by decide]
    · rename_i hc
      simp [hc]
  unfold ucEventFlagByte
  rw [hset, hset]
  simp only [TriggerStatics.of, ne_eq, Classical.not_not, UInt8.xor_eq_zero_iff, flagByte_eq_iff]
  constructor
  · rintro ⟨hpole, harm, hflags⟩
    exact ⟨hflags, harm, hpole⟩
  · intro h
    exact ⟨h.posCmdPole, h.posCmdArm, h.toSameFlags⟩

/-- A mask that does not read bit 6 reads in the event byte the difference of the two flag bytes. -/
theorem eventByte_and (prev cur : HMICmd) (m : UInt8) (h : bit 6 &&& m = 0) :
    ucEventFlagByte (.of prev) cur &&& m = (ucActualFlagByte cur &&& m) ^^^ (ucActualFlagByte prev &&& m) := by
  unfold ucEventFlagByte
  rw [bitSetIf_and _ _ 6 _ h, bitSetIf_and _ _ 6 _ h, xor_and_distrib]
  rfl

theorem eventByte_mode (prev cur : HMICmd) :
    0x03 &&& ucEventFlagByte (.of prev) cur = modeBits cur.mode ^^^ modeBits prev.mode := by
  rw [UInt8.and_comm, eventByte_and _ _ _ (by decide), UInt8.and_comm, flagByte_mode, UInt8.and_comm, flagByte_mode]

theorem eventByte_ctrlEn (prev cur : HMICmd) :
    bitStatus (ucEventFlagByte (.of prev) cur) 2 = decide (cur.ctrlEn ≠ prev.ctrlEn) := by
  unfold bitStatus
  rw [eventByte_and _ _ _ (by decide), flagByte_ctrlEn, flagByte_ctrlEn]
  cases cur.ctrlEn <;> cases prev.ctrlEn <;> decide

theorem eventByte_freeRunAxis (prev cur : HMICmd) :
    bitStatus (ucEventFlagByte (.of prev) cur) 4 = decide (cur.freeRunAxis ≠ prev.freeRunAxis) := by
  unfold bitStatus
  rw [eventByte_and _ _ _ (by decide), flagByte_freeRunAxis, flagByte_freeRunAxis]
  cases cur.freeRunAxis <;> cases prev.freeRunAxis <;> decide

theorem previousFlag_ctrlEn (prev : HMICmd) :
    bitStatus (TriggerStatics.of prev).ucPreviousFlagByte 2 = decide (prev.ctrlEn = .eEnable) := by
  unfold bitStatus
  rw [show (TriggerStatics.of prev).ucPreviousFlagByte = ucActualFlagByte prev from rfl, flagByte_ctrlEn]
  cases prev.ctrlEn <;> decide

/-! ## Settings -/

/-- The settings are the stall detection and, if the frame calibrates, the two offsets. -/
theorem settings_cases {cmd : HMICmd} {e : Effect} (h : e ∈ settings cmd) :
    (∃ stallDetection, e = .setStallDetection stallDetection) ∨ (∃ offset, e = .armSetOffset offset) ∨
      ∃ offset, e = .poleSetOffset offset := by
  unfold settings at h
  rcases List.mem_cons.mp h with rfl | h
  · exact Or.inl ⟨_, rfl⟩
  · split at h
    · simp only [List.mem_cons, List.not_mem_nil, or_false] at h
      rcases h with rfl | rfl
      · exact Or.inr (Or.inl ⟨_, rfl⟩)
      · exact Or.inr (Or.inr ⟨_, rfl⟩)
    · cases h

end Rtu

import Mathlib.Algebra.GroupWithZero.Nat
import Rtu.Rdc

/-!
# What the driver of the converter does to the chip

A write of a register is one update of it, and a read leaves the registers. So each function is given in closed form: what it returns,
what it leaves in the cache and which registers it writes.
-/

namespace Rtu

open Registers

/-! ## Words -/

/-- A masked word is data. -/
theorem isAddress_data (data : UInt8) : isAddress (data &&& ad2s1210DataMask) = false := by
  have hword : data &&& ad2s1210DataMask &&& ad2s1210AddressMask = 0 := by
    rw [UInt8.and_assoc, show ad2s1210DataMask &&& ad2s1210AddressMask = 0 by decide, UInt8.and_zero]
  simp [isAddress, hword]

theorem data_and_msb (data : UInt8) : data &&& ad2s1210DataMask &&& ad2s1210MsbMask = 0 := by
  rw [UInt8.and_assoc, show ad2s1210DataMask &&& ad2s1210MsbMask = 0 by decide, UInt8.and_zero]

/-- A mask within the data bits sees the same of a word and of its data bits. -/
theorem data_and {mask : UInt8} (h : ad2s1210DataMask &&& mask = mask) (data : UInt8) :
    data &&& ad2s1210DataMask &&& mask = data &&& mask := by
  rw [UInt8.and_assoc, h]

/-- A byte below 128 is its data bits. -/
theorem data_of_lt {data : UInt8} (h : data.toNat < 128) : data &&& ad2s1210DataMask = data := by
  apply UInt8.toNat_inj.mp
  rw [UInt8.toNat_and]
  exact (Nat.and_two_pow_sub_one_eq_mod data.toNat 7).trans (Nat.mod_eq_of_lt h)

/-! ## Registers -/

/-- A write of a register. -/
theorem setReg_eq (me : Rdc) {address : UInt8} (h : isAddress address = true) (hmsb : address ||| ad2s1210AddressMask = address)
    (data : UInt8) :
    ad2s1210SetReg me address data =
      (0, { me with chip :=
        { regs := Function.update me.chip.regs address (data &&& ad2s1210DataMask), addressed := address } }) := by
  simp only [ad2s1210SetReg, ad2s1210ConfigWrite, Rdc.spiSyncTransfer, Chip.transfers, hmsb, transfer_address _ h,
    transfer_data _ (isAddress_data data)]
  rfl

/-- It leaves the cache and the other registers. -/
theorem setReg_frame (me : Rdc) {address other : UInt8} (h : isAddress address = true)
    (hmsb : address ||| ad2s1210AddressMask = address) (hother : other ≠ address) (data : UInt8) :
    (ad2s1210SetReg me address data).2.me = me.me ∧
      (ad2s1210SetReg me address data).2.chip.regs other = me.chip.regs other := by
  rw [setReg_eq me h hmsb]
  exact ⟨rfl, Function.update_of_ne hother (data &&& ad2s1210DataMask) me.chip.regs⟩

/-- A read of a register. -/
theorem configRead_eq (me : Rdc) {address : UInt8} (h : isAddress address = true)
    (hmsb : address ||| ad2s1210AddressMask = address) :
    ad2s1210ConfigRead me address = (me.chip.regs address, { me with chip := { me.chip with addressed := ad2s1210RegFault } }) := by
  have hfault : isAddress ad2s1210RegFault = true := by decide
  simp only [ad2s1210ConfigRead, Rdc.spiSyncTransfer, hmsb, transfers_read _ h hfault]
  rfl

/-- The control register is written, read back and cached. -/
theorem setControl_eq (me : Rdc) (data : UInt8) :
    ad2s1210SetControl me data =
      (((data &&& ad2s1210DataMask).toNat : Int),
        { me :=
            { me.me with
                resolution := ad2s1210ResolutionValue.getD (data &&& ad2s1210ResolutionMask).toNat 0
                hysteresis := data &&& ad2s1210Hysteresis ≠ 0 }
          chip :=
            { regs := Function.update me.chip.regs ad2s1210RegControl (data &&& ad2s1210DataMask)
              addressed := ad2s1210RegFault } }) := by
  have haddress : isAddress ad2s1210RegControl = true := by decide
  have hmsb : ad2s1210RegControl ||| ad2s1210AddressMask = ad2s1210RegControl := by decide
  have hmask : ad2s1210DataMask &&& ad2s1210DataMask = ad2s1210DataMask := by decide
  simp only [ad2s1210SetControl, ad2s1210GetReg, setReg_eq me haddress hmsb, hmsb, configRead_eq _ haddress hmsb, data_and hmask,
    Function.update_self, data_and_msb, Int.lt_irrefl, if_false, ne_eq, not_true_eq_false]

/-- The frequency control word is written and the chip reset, if the chip takes the word. -/
theorem reconfigure_eq (me : Rdc) :
    me.reconfigure =
      if FcwOk (frequencyControlWord me.me.fexcit me.me.fclkin) then
        (0, { me with chip :=
          { regs := Function.update me.chip.regs ad2s1210RegExcitFreq (frequencyControlWord me.me.fexcit me.me.fclkin)
            addressed := ad2s1210RegSoftReset } })
      else (-1, me) := by
  have haddress : isAddress ad2s1210RegExcitFreq = true := by decide
  have hmsb : ad2s1210RegExcitFreq ||| ad2s1210AddressMask = ad2s1210RegExcitFreq := by decide
  have hreset : isAddress ad2s1210RegSoftReset = true := by decide
  unfold Rdc.reconfigure ad2s1210UpdateFrequencyControlWord
  by_cases hok : FcwOk (frequencyControlWord me.me.fexcit me.me.fclkin)
  · have hlt : (frequencyControlWord me.me.fexcit me.me.fclkin).toNat < 128 := by
      have hle : frequencyControlWord me.me.fexcit me.me.fclkin ≤ ad2s1210MaxFcw := UInt8.not_lt.mp (not_or.mp hok).2
      exact Nat.lt_of_le_of_lt (UInt8.le_iff_toNat_le.mp hle) (by decide)
    simp only [if_pos hok, setReg_eq me haddress hmsb, data_of_lt hlt, Int.lt_irrefl, if_false, ad2s1210SoftReset,
      ad2s1210ConfigWrite, Rdc.spiSyncTransfer, Chip.transfers, transfer_address _ hreset]
  · simp only [if_neg hok]
    rfl

/-! ## The frequency control word -/

/-- The word that the two frequencies ask for. -/
def excitWord (fexcit fclkin : UInt32) : Nat := fexcit.toNat * 2 ^ 15 / fclkin.toNat

/-- It is one that the chip takes. -/
def WordOk (fexcit fclkin : UInt32) : Prop := 0x4 ≤ excitWord fexcit fclkin ∧ excitWord fexcit fclkin ≤ 0x50

instance (fexcit fclkin : UInt32) : Decidable (WordOk fexcit fclkin) := inferInstanceAs (Decidable (_ ∧ _))

theorem fcwOk_iff (fcw : UInt8) : FcwOk fcw ↔ 0x4 ≤ fcw.toNat ∧ fcw.toNat ≤ 0x50 := by
  unfold FcwOk
  rw [not_or, UInt8.not_lt, gt_iff_lt, UInt8.not_lt, UInt8.le_iff_toNat_le, UInt8.le_iff_toNat_le]
  rfl

/-- The word is computed as it is asked for, if neither the product nor the word overflows. -/
theorem frequencyControlWord_toNat {fexcit fclkin : UInt32} (hproduct : fexcit.toNat * 2 ^ 15 < 2 ^ 32)
    (hword : excitWord fexcit fclkin < 256) : (frequencyControlWord fexcit fclkin).toNat = excitWord fexcit fclkin := by
  have hfactor : ((1 : UInt32) <<< 15).toNat = 2 ^ 15 := by decide
  unfold frequencyControlWord
  rw [UInt32.toNat_toUInt8, UInt32.toNat_div, UInt32.toNat_mul, hfactor, Nat.mod_eq_of_lt hproduct]
  exact Nat.mod_eq_of_lt hword

theorem not_fclkinOut {fclkin : UInt32} (h : ¬FclkinOut fclkin) : 6144000 ≤ fclkin.toNat ∧ fclkin.toNat ≤ 10240000 := by
  unfold FclkinOut at h
  rw [not_or, UInt32.not_lt, gt_iff_lt, UInt32.not_lt, UInt32.le_iff_toNat_le, UInt32.le_iff_toNat_le] at h
  exact h

theorem not_fexcitOut {fexcit : UInt32} (h : ¬FexcitOut fexcit) : 2000 ≤ fexcit.toNat ∧ fexcit.toNat ≤ 20000 := by
  unfold FexcitOut at h
  rw [not_or, UInt32.not_lt, gt_iff_lt, UInt32.not_lt, UInt32.le_iff_toNat_le, UInt32.le_iff_toNat_le] at h
  exact h

/-- A word that the chip takes is computed right, as soon as one of the frequencies is in range. -/
theorem word_of_wordOk {fexcit fclkin : UInt32} (hrange : ¬FclkinOut fclkin ∨ ¬FexcitOut fexcit) (h : WordOk fexcit fclkin) :
    (frequencyControlWord fexcit fclkin).toNat = excitWord fexcit fclkin := by
  refine frequencyControlWord_toNat ?_ (Nat.lt_of_le_of_lt h.2 (by decide))
  rcases hrange with hclock | hfexcit
  · obtain ⟨hge, hle⟩ := not_fclkinOut hclock
    have hlt : fexcit.toNat * 2 ^ 15 < (0x50 + 1) * fclkin.toNat :=
      Nat.lt_mul_of_div_lt (Nat.lt_succ_of_le h.2) (by omega)
    omega
  · have hle := (not_fexcitOut hfexcit).2
    omega

/-- With both in range it is computed right, and is never too small. -/
theorem word_of_ranges {fexcit fclkin : UInt32} (hclock : ¬FclkinOut fclkin) (hfexcit : ¬FexcitOut fexcit) :
    (frequencyControlWord fexcit fclkin).toNat = excitWord fexcit fclkin ∧ 0x4 ≤ excitWord fexcit fclkin := by
  obtain ⟨hclockGe, hclockLe⟩ := not_fclkinOut hclock
  obtain ⟨hexcitGe, hexcitLe⟩ := not_fexcitOut hfexcit
  have hlt : excitWord fexcit fclkin < 256 := by
    unfold excitWord
    rw [Nat.div_lt_iff_lt_mul (by omega)]
    omega
  refine ⟨frequencyControlWord_toNat (by omega) hlt, ?_⟩
  unfold excitWord
  rw [Nat.le_div_iff_mul_le (by omega)]
  omega

/-! ## Resolutions -/

/-- The bits that a resolution in range is halved into name it in the table, or the one below it. -/
theorem resolution_table {res : UInt8} (h : ¬ResolutionOut res) :
    (res - 10) >>> 1 &&& ad2s1210ResolutionMask = (res - 10) >>> 1 ∧
      (ad2s1210ResolutionValue.getD ((res - 10) >>> 1).toNat 0 = res ↔ res ∈ ad2s1210ResolutionValue) := by
  unfold ResolutionOut at h
  rw [not_or, UInt8.not_lt, gt_iff_lt, UInt8.not_lt, UInt8.le_iff_toNat_le, UInt8.le_iff_toNat_le] at h
  have htable : ∀ n < 17, 10 ≤ n →
      ((UInt8.ofNat n - 10) >>> 1 &&& ad2s1210ResolutionMask = (UInt8.ofNat n - 10) >>> 1 ∧
        (ad2s1210ResolutionValue.getD ((UInt8.ofNat n - 10) >>> 1).toNat 0 = UInt8.ofNat n ↔
          UInt8.ofNat n ∈ ad2s1210ResolutionValue)) := by decide
  have hres := htable res.toNat (Nat.lt_succ_of_le h.2) h.1
  rwa [UInt8.ofNat_toNat] at hres

/-- The resolution bits of a control word into which a resolution in range was put. -/
theorem control_and_resolutionMask {res : UInt8} (h : ¬ResolutionOut res) (control : UInt8) :
    ((control &&& ~~~ad2s1210ResolutionMask) ||| ((res - 10) >>> 1)) &&& ad2s1210ResolutionMask = (res - 10) >>> 1 := by
  have hdistrib : ((control &&& ~~~ad2s1210ResolutionMask) ||| ((res - 10) >>> 1)) &&& ad2s1210ResolutionMask =
      (control &&& ~~~ad2s1210ResolutionMask &&& ad2s1210ResolutionMask) ||| ((res - 10) >>> 1 &&& ad2s1210ResolutionMask) :=
    UInt8.toBitVec_inj.mp BitVec.and_or_distrib_right
  rw [hdistrib, UInt8.and_assoc, show ~~~ad2s1210ResolutionMask &&& ad2s1210ResolutionMask = 0 by decide,
    UInt8.and_zero, UInt8.zero_or, (resolution_table h).1]

end Rtu

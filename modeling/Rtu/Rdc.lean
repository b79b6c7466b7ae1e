import Rtu.Ad2s1210
import Rtu.Registers

/-!
# The configuration of the resolver-to-digital converter

The rest of `ad2s1210.c`: the functions that write the chip. A word with the most significant bit set is an address, and any other is
data for the register selected. The functions return what they return in the source, and the converter: the structure that caches the
configuration and the chip.

`spi_sync_transfer` returns 0 in every case, so the tests of its result are never passed. A division by a clock of 0 gives 0, as the
processor has it.
-/

namespace Rtu

/-- `AD2S1210_DEF_CONTROL`. -/
def ad2s1210DefControl : UInt8 := 0x7E
/-- `AD2S1210_ADDRESS_MASK`. -/
def ad2s1210AddressMask : UInt8 := 0x80
/-- `AD2S1210_MSB_MASK`. -/
def ad2s1210MsbMask : UInt8 := 0x80
/-- `AD2S1210_DATA_MASK`, in eight bits. -/
def ad2s1210DataMask : UInt8 := 0x7F
/-- `AD2S1210_HYSTERESIS`. -/
def ad2s1210Hysteresis : UInt8 := 0x10
/-- `AD2S1210_RESOLUTION_MASK`. -/
def ad2s1210ResolutionMask : UInt8 := 0x03
/-- `AD2S1210_REG_LOS_THRD`. -/
def ad2s1210RegLosThrd : UInt8 := 0x88
/-- `AD2S1210_REG_EXCIT_FREQ`. -/
def ad2s1210RegExcitFreq : UInt8 := 0x91
/-- `AD2S1210_REG_CONTROL`. -/
def ad2s1210RegControl : UInt8 := 0x92
/-- `AD2S1210_REG_SOFT_RESET`. -/
def ad2s1210RegSoftReset : UInt8 := 0xF0
/-- `AD2S1210_REG_FAULT`. -/
def ad2s1210RegFault : UInt8 := 0xFF
/-- `AD2S1210_MIN_CLKIN`. -/
def ad2s1210MinClkin : UInt32 := 6144000
/-- `AD2S1210_MAX_CLKIN`. -/
def ad2s1210MaxClkin : UInt32 := 10240000
/-- `AD2S1210_MIN_EXCIT`. -/
def ad2s1210MinExcit : UInt32 := 2000
/-- `AD2S1210_MAX_EXCIT`. -/
def ad2s1210MaxExcit : UInt32 := 20000
/-- `AD2S1210_MIN_FCW`. -/
def ad2s1210MinFcw : UInt8 := 0x4
/-- `AD2S1210_MAX_FCW`. -/
def ad2s1210MaxFcw : UInt8 := 0x50

/-- A converter: `struct ad2s1210`, and the chip behind it. -/
structure Rdc where
  me : Ad2s1210
  chip : Registers.Chip UInt8

/-! ## The bus -/

/-- The chip takes a word for an address. -/
def isAddress (word : UInt8) : Bool := word &&& ad2s1210AddressMask ≠ 0

/-- `spi_sync_transfer`: its result, the words received, and the converter. -/
def Rdc.spiSyncTransfer (me : Rdc) (tx : List UInt8) : Int × List UInt8 × Rdc :=
  (0, (me.chip.transfers isAddress tx).1, { me with chip := (me.chip.transfers isAddress tx).2 })

/-- `ad2s1210_config_write`. -/
def ad2s1210ConfigWrite (me : Rdc) (data : UInt8) : Int × Rdc :=
  let transfer := me.spiSyncTransfer [data]
  (transfer.1, transfer.2.2)

/-- `ad2s1210_config_read`: the value comes one transfer after the address. -/
def ad2s1210ConfigRead (me : Rdc) (address : UInt8) : UInt8 × Rdc :=
  let transfer := me.spiSyncTransfer [address ||| ad2s1210AddressMask, ad2s1210RegFault]
  (transfer.2.1.getD 1 0, transfer.2.2)

/-- `ad2s1210_get_reg`. -/
def ad2s1210GetReg (me : Rdc) (address : UInt8) : UInt8 × Rdc := ad2s1210ConfigRead me (address ||| ad2s1210AddressMask)

/-- `ad2s1210_set_reg`. -/
def ad2s1210SetReg (me : Rdc) (address data : UInt8) : Int × Rdc :=
  let addressed := ad2s1210ConfigWrite me (address ||| ad2s1210AddressMask)
  if addressed.1 < 0 then addressed else ad2s1210ConfigWrite addressed.2 (data &&& ad2s1210DataMask)

/-! ## The registers -/

/-- `ad2s1210_get_control`. -/
def ad2s1210GetControl (me : Rdc) : UInt8 × Rdc := ad2s1210ConfigRead me ad2s1210RegControl

/-- `ad2s1210_set_control`: on success it returns the register read back. -/
def ad2s1210SetControl (me : Rdc) (data : UInt8) : Int × Rdc :=
  let set := ad2s1210SetReg me ad2s1210RegControl (data &&& ad2s1210DataMask)
  if set.1 < 0 then set
  else
    let get := ad2s1210GetReg set.2 ad2s1210RegControl
    if get.1 &&& ad2s1210MsbMask ≠ 0 then (-1, get.2)
    else
      (get.1.toNat,
        { get.2 with me :=
          { get.2.me with
              resolution := ad2s1210ResolutionValue.getD (data &&& ad2s1210ResolutionMask).toNat 0
              hysteresis := data &&& ad2s1210Hysteresis ≠ 0 } })

/-- The frequency control word, as `ad2s1210_update_frequency_control_word` computes it: in 32 bits, and its last eight. -/
def frequencyControlWord (fexcit fclkin : UInt32) : UInt8 := (fexcit * ((1 : UInt32) <<< 15) / fclkin).toUInt8

/-- The word is one that the chip takes. -/
def FcwOk (fcw : UInt8) : Prop := ¬(fcw < ad2s1210MinFcw ∨ fcw > ad2s1210MaxFcw)

instance (fcw : UInt8) : Decidable (FcwOk fcw) := inferInstanceAs (Decidable (¬_))

/-- `ad2s1210_update_frequency_control_word`. -/
def ad2s1210UpdateFrequencyControlWord (me : Rdc) : Int × Rdc :=
  let fcw := frequencyControlWord me.me.fexcit me.me.fclkin
  if FcwOk fcw then ad2s1210SetReg me ad2s1210RegExcitFreq fcw else (-1, me)

/-- `ad2s1210_soft_reset`. -/
def ad2s1210SoftReset (me : Rdc) : Int × Rdc := ad2s1210ConfigWrite me ad2s1210RegSoftReset

/-! ## The configuration -/

/-- A resolution out of range. -/
def ResolutionOut (res : UInt8) : Prop := res < 10 ∨ res > 16

/-- A clock out of range. -/
def FclkinOut (fclkin : UInt32) : Prop := fclkin < ad2s1210MinClkin ∨ fclkin > ad2s1210MaxClkin

/-- An excitation frequency out of range. -/
def FexcitOut (fexcit : UInt32) : Prop := fexcit < ad2s1210MinExcit ∨ fexcit > ad2s1210MaxExcit

instance (res : UInt8) : Decidable (ResolutionOut res) := inferInstanceAs (Decidable (_ ∨ _))
instance (fclkin : UInt32) : Decidable (FclkinOut fclkin) := inferInstanceAs (Decidable (_ ∨ _))
instance (fexcit : UInt32) : Decidable (FexcitOut fexcit) := inferInstanceAs (Decidable (_ ∨ _))

/-- What `ad2s1210_set_fclkin` and `ad2s1210_set_fexcit` do past the assignment. -/
def Rdc.reconfigure (me : Rdc) : Int × Rdc :=
  let updated := ad2s1210UpdateFrequencyControlWord me
  if updated.1 < 0 then updated else ad2s1210SoftReset updated.2

/-- `ad2s1210_set_fclkin`. -/
def ad2s1210SetFclkin (me : Rdc) (fclkin : UInt32) : Int × Rdc :=
  if FclkinOut fclkin then (-1, me) else Rdc.reconfigure { me with me := { me.me with fclkin } }

/-- `ad2s1210_set_fexcit`. -/
def ad2s1210SetFexcit (me : Rdc) (fexcit : UInt32) : Int × Rdc :=
  if FexcitOut fexcit then (-1, me) else Rdc.reconfigure { me with me := { me.me with fexcit } }

/-- `ad2s1210_set_resolution`. -/
def ad2s1210SetResolution (me : Rdc) (res : UInt8) : Int × Rdc :=
  if ResolutionOut res then (-1, me)
  else
    let control := ad2s1210GetControl me
    ad2s1210SetControl control.2 ((control.1 &&& ~~~ad2s1210ResolutionMask) ||| ((res - 10) >>> 1))

/-- `ad2s1210_init`. -/
def ad2s1210Init (me : Rdc) : Int × Rdc :=
  if ResolutionOut me.me.resolution then (-1, me)
  else if FclkinOut me.me.fclkin then (-1, me)
  else if FexcitOut me.me.fexcit then (-1, me)
  else
    let control := ad2s1210SetControl me
      ((ad2s1210DefControl &&& ~~~ad2s1210ResolutionMask) ||| ((me.me.resolution - 10) >>> 1))
    if control.1 < 0 then control
    else
      let updated := ad2s1210UpdateFrequencyControlWord control.2
      if updated.1 < 0 then updated
      else
        let reset := ad2s1210SoftReset updated.2
        (reset.1, (ad2s1210SetReg reset.2 ad2s1210RegLosThrd 50).2)

/-! ## Calls, one after the other -/

/-- A call of a setter, with its argument. -/
inductive RdcSetter where
  | resolution (res : UInt8)
  | fclkin (fclkin : UInt32)
  | fexcit (fexcit : UInt32)
  deriving DecidableEq, Repr

/-- A call on a converter. `ad2s1210_init` is given a structure with the fields that its caller has assigned. -/
inductive RdcCall where
  | init (me : Ad2s1210)
  | set (s : RdcSetter)
  deriving DecidableEq, Repr

/-- A setter. -/
def Rdc.set (me : Rdc) : RdcSetter → Int × Rdc
  | .resolution res => ad2s1210SetResolution me res
  | .fclkin fclkin => ad2s1210SetFclkin me fclkin
  | .fexcit fexcit => ad2s1210SetFexcit me fexcit

/-- One call. -/
def Rdc.step (me : Rdc) : RdcCall → Rdc
  | .init st => (ad2s1210Init { me with me := st }).2
  | .set s => (me.set s).2

end Rtu

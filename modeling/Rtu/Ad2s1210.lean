/-!
# The resolver-to-digital converter

`ad2s1210.c`: the cached configuration of a chip and the reading of its position registers. The two position registers are
the input of the model (`spi_sync_transfer` returns 0 in every case, so the error return of `ad2s1210_config_read_two` is
never taken).
-/

namespace Rtu

/-- `ad2s1210_resolution_value`. -/
def ad2s1210ResolutionValue : List UInt8 := [10, 12, 14, 16]

/-- `struct ad2s1210`, without its GPIO handlers. -/
structure Ad2s1210 where
  fclkin : UInt32
  fexcit : UInt32
  hysteresis : Bool
  reversed : Bool
  resolution : UInt8
  deriving DecidableEq, Repr

/-- `ad2s1210_read_position`: the register pair `raw`, reversed and right-justified as the cache says. -/
def Ad2s1210.readPosition (me : Ad2s1210) (raw : UInt16) : UInt16 :=
  let pos := if me.reversed then raw ^^^ UInt16.ofNat (0xFFFF >>> (16 - me.resolution.toNat)) else raw
  if me.hysteresis then UInt16.ofNat (pos.toNat >>> (16 - me.resolution.toNat)) else pos

/-- `mot_pap_offset_correction`: the subtraction is made in 32 bits, with one correction if it is negative. -/
def motPapOffsetCorrection (pos offset : UInt16) (resolution : UInt8) : UInt16 :=
  let corrected : Int := (pos.toNat : Int) - offset.toNat
  UInt16.ofInt (if corrected < 0 then corrected + (1 <<< resolution.toNat : Nat) else corrected)

end Rtu

/-!
# The temperature

`temperature.c`: the statics of `temperature_read`, and one call of it. The reading of the converter is the input; the wait for
the end of a conversion is left out.
-/

namespace Rtu

/-- `TEMPERATURE_COUNT`. -/
def temperatureCount : Nat := 200

/-- The statics of `temperature_read`. The index `i` stays within the array. -/
structure Temperature where
  temperature : UInt16
  actualTemperature : UInt16
  aTemperature : Vector UInt16 temperatureCount
  i : UInt16
  inRange : i.toNat < temperatureCount

/-- The statics as the loader leaves them. -/
def Temperature.boot : Temperature :=
  { temperature := 0, actualTemperature := 0, aTemperature := .replicate temperatureCount 0, i := 0, inRange := by decide }

/-- The loop over the array: `sum` is a `uint16_t`. -/
def temperatureSum (aTemperature : Vector UInt16 temperatureCount) : UInt16 := aTemperature.toList.foldl (· + ·) 0

/-- The index after a call that does not fill the array. -/
theorem Temperature.next_inRange (me : Temperature) (h : me.i + 1 ≠ 200) : (me.i + 1).toNat < temperatureCount := by
  have hlt := me.inRange
  have hne : (me.i + 1).toNat ≠ 200 := fun heq => h (UInt16.toNat_inj.mp heq)
  have hadd : (me.i + 1).toNat = (me.i.toNat + 1) % 65536 := UInt16.toNat_add me.i 1
  unfold temperatureCount at hlt ⊢
  omega

/-- `temperature_read`, on a reading of the converter. The value it returns is the static `temperature` it leaves. -/
def temperatureRead (me : Temperature) (reading : UInt16) : Temperature :=
  let aTemperature := me.aTemperature.set me.i.toNat reading me.inRange
  if h : me.i + 1 = 200 then
    { temperature := temperatureSum aTemperature / 200, actualTemperature := reading, aTemperature := aTemperature
      i := 0, inRange := by decide }
  else
    { me with actualTemperature := reading, aTemperature := aTemperature, i := me.i + 1, inRange := me.next_inRange h }

end Rtu

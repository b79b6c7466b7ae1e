import Rtu.Axis
import Rtu.Rdc
import Rtu.Runs

/-!
# Readings of the position

`ad2s1210_read_position` as its steps, in as many tasks as there are. The two converters share the SAMPLE line and the bus. On the
falling edge of SAMPLE both chips copy the positions of their resolvers into the position registers. `spi_sync_transfer` takes a mutex
around the three words of a reading; the SAMPLE line is set before and after it without one.

A step is one write of the line, one operation on the mutex or one word on the bus between two edges of WR/FSYNC. In between, the
resolvers turn.
-/

namespace Rtu

/-- `AD2S1210_REG_POSITION`. -/
def ad2s1210RegPosition : UInt8 := 0x80

/-- The words that `ad2s1210_config_read_two` sends. -/
def configReadTwoTx (address : UInt8) : List UInt8 :=
  [address ||| ad2s1210AddressMask, (address + 1) ||| ad2s1210AddressMask, ad2s1210RegFault]

/-- The two bytes of a position. -/
def highByte (pos : UInt16) : UInt8 := (pos >>> 8).toUInt8

def lowByte (pos : UInt16) : UInt8 := pos.toUInt8

/-- `rx[1] << 8 | rx[2]`. -/
def joinBytes (high low : UInt8) : UInt16 := high.toUInt16 <<< 8 ||| low.toUInt16

/-- What `ad2s1210_config_read_two` returns for the words received. -/
def configReadTwo (rx : List UInt8) : UInt16 := joinBytes (rx.getD 1 0) (rx.getD 2 0)

/-- What a task in `ad2s1210_read_position` does next. -/
inductive ReadStage where
  /-- `me->gpios.sample(0)` -/
  | sampleLow
  /-- `xSemaphoreTake(spi_mutex, portMAX_DELAY)` -/
  | take
  /-- the loop over the transfers, with the words received and those still to send -/
  | transfer (rx tx : List UInt8)
  /-- `me->gpios.sample(1)` -/
  | sampleHigh (rx : List UInt8)
  deriving DecidableEq, Repr

/-- The lines, the bus and the tasks. -/
structure SampleBus (τ : Type) where
  /-- the level of SAMPLE -/
  sample : Bool
  /-- where the resolvers stand -/
  angle : Axis → UInt16
  chip : Axis → Registers.Chip UInt8
  /-- the task that holds `spi_mutex` -/
  spi_mutex : Option τ
  task : τ → Option (Axis × ReadStage)

/-- What can happen. -/
inductive SampleLabel (τ : Type) where
  /-- a resolver turns -/
  | turn (ax : Axis) (pos : UInt16)
  /-- a task calls `ad2s1210_read_position` -/
  | call (t : τ) (ax : Axis)
  | run (t : τ)
  deriving DecidableEq

/-- The falling edge of SAMPLE at a chip. -/
def latch (pos : UInt16) (c : Registers.Chip UInt8) : Registers.Chip UInt8 :=
  { c with regs := Function.update (Function.update c.regs ad2s1210RegPosition (highByte pos)) (ad2s1210RegPosition + 1) (lowByte pos) }

section

variable {τ : Type} [DecidableEq τ]

/-- After `poncho_rdc_init`: SAMPLE is high. -/
def SampleBus.boot (angle : Axis → UInt16) (chip : Axis → Registers.Chip UInt8) : SampleBus τ :=
  { sample := true, angle, chip, spi_mutex := none, task := fun _ => none }

/-- A task is in a reading and does this next, or is in none. -/
def SampleBus.goOn (s : SampleBus τ) (t : τ) (next : Option (Axis × ReadStage)) : SampleBus τ :=
  { s with task := Function.update s.task t next }

/-- SAMPLE is set low. -/
def SampleBus.lower (s : SampleBus τ) : SampleBus τ :=
  if s.sample then { s with sample := false, chip := fun ax => latch (s.angle ax) (s.chip ax) } else s

/-- A task in a reading goes on. -/
def SampleBus.runTask (s : SampleBus τ) (t : τ) (ax : Axis) : ReadStage → SampleBus τ
  | .sampleLow => s.lower.goOn t (some (ax, .take))
  | .take =>
    match s.spi_mutex with
    | none => { s with spi_mutex := some t }.goOn t (some (ax, .transfer [] (configReadTwoTx ad2s1210RegPosition)))
    | some _ => s
  | .transfer rx (word :: tx) =>
    let transfer := (s.chip ax).transfer isAddress word
    { s with chip := Function.update s.chip ax transfer.2 }.goOn t (some (ax, .transfer (rx ++ [transfer.1]) tx))
  | .transfer rx [] => { s with spi_mutex := none }.goOn t (some (ax, .sampleHigh rx))
  | .sampleHigh _ => { s with sample := true }.goOn t none

/-- One step. -/
def SampleBus.step (s : SampleBus τ) : SampleLabel τ → SampleBus τ
  | .turn ax pos => { s with angle := Function.update s.angle ax pos }
  | .call t ax => if s.task t = none then s.goOn t (some (ax, .sampleLow)) else s
  | .run t =>
    match s.task t with
    | none => s
    | some (ax, stage) => s.runTask t ax stage

/-- The positions at a falling edge of SAMPLE. -/
def SampleBus.edges (s : SampleBus τ) : SampleLabel τ → List (Axis → UInt16)
  | .turn _ _ | .call _ _ => []
  | .run t => if s.sample ∧ (s.task t).any (·.2 = .sampleLow) then [s.angle] else []

end

end Rtu

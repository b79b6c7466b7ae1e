import Rtu.Messages

/-!
# The lift: `lift.c`

Two relays, one for the power and one for the direction, and a task that receives from `lift_queue`. As for an axis, the part after
the delay of a reversal is a function of its own.
-/

namespace Rtu

/-- `struct lift`, without the limits that no function reads, and the two relays behind it. -/
structure Lift where
  type : LiftType
  liftPwr : Bool
  liftDir : LiftDirection
  deriving DecidableEq, Repr

/-- `lift_init`: `relay_init` leaves both relays low, and a low direction relay is the down direction. -/
def Lift.init : Lift := { type := .stop, liftPwr := false, liftDir := .down }

/-- `relay_lift_pwr`. -/
def Lift.relayLiftPwr (l : Lift) (state : Bool) : Lift := { l with liftPwr := state }

/-- `relay_lift_dir`. -/
def Lift.relayLiftDir (l : Lift) (dir : LiftDirection) : Lift := { l with liftDir := dir }

/-- A movement up or down, after the delay of a reversal if there was one. -/
def Lift.move (l : Lift) : LiftDirection → Lift
  | .up => ({ l with type := .up }.relayLiftDir .up).relayLiftPwr true
  | .down => ({ l with type := .down }.relayLiftDir .down).relayLiftPwr true

/-- The loop body of `lift_task` on a message received: if it waits for a reversal, it holds the direction. -/
def liftTask (l : Lift) : LiftType → Lift × Option LiftDirection
  | .up => if l.type = .down then (l.relayLiftPwr false, some .up) else (l.move .up, none)
  | .down => if l.type = .up then (l.relayLiftPwr false, some .down) else (l.move .down, none)
  | .stop => ({ l with type := .stop }.relayLiftPwr false, none)

end Rtu

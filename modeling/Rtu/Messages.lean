/-!
# The messages of the three device queues

`mot_pap.h` and `lift.h`. A message is allocated by the producer (`pvPortMalloc`), filled field by field and sent by pointer.
`pvPortMalloc` clears nothing, so a field nobody assigned holds whatever the heap held: a block keeps, for each field, the
value assigned or none. A task that receives the block reads it against the heap contents (`MotPapBlock.read`).
-/

namespace Rtu

/-- `enum mot_pap_direction`. -/
inductive MotPapDirection where
  | cw | ccw
  deriving DecidableEq, Repr

/-- `enum mot_pap_type`. A task's `switch` sends every other value to the branch of `MOT_PAP_TYPE_STOP`. -/
inductive MotPapType where
  | freeRunning | closedLoop | stop
  deriving DecidableEq, Repr

/-- `struct mot_pap_msg`, as a task reads it. -/
structure MotPapMsg where
  type : MotPapType
  freeRunDirection : MotPapDirection
  freeRunSpeed : UInt32
  closedLoopSetpoint : UInt16
  deriving DecidableEq, Repr

/-- A `struct mot_pap_msg` on the heap: the fields the producer assigned. -/
structure MotPapBlock where
  type : Option MotPapType := none
  freeRunDirection : Option MotPapDirection := none
  freeRunSpeed : Option UInt32 := none
  closedLoopSetpoint : Option UInt16 := none
  deriving DecidableEq, Repr

/-- What a task reads in a block: the fields assigned, and for the others what the heap held there. -/
def MotPapBlock.read (b : MotPapBlock) (heap : MotPapMsg) : MotPapMsg :=
  { type := b.type.getD heap.type
    freeRunDirection := b.freeRunDirection.getD heap.freeRunDirection
    freeRunSpeed := b.freeRunSpeed.getD heap.freeRunSpeed
    closedLoopSetpoint := b.closedLoopSetpoint.getD heap.closedLoopSetpoint }

/-- `enum lift_direction`. -/
inductive LiftDirection where
  | up | down
  deriving DecidableEq, Repr

/-- `enum lift_type`. -/
inductive LiftType where
  | up | down | stop
  deriving DecidableEq, Repr

/-- A `struct lift_msg` on the heap: its one field, if the producer assigned it. -/
structure LiftBlock where
  type : Option LiftType := none
  deriving DecidableEq, Repr

/-- What the lift task reads in a block. -/
def LiftBlock.read (b : LiftBlock) (heap : LiftType) : LiftType := b.type.getD heap

end Rtu

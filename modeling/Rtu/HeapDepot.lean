import Rtu.Lemmas.Depot
import Rtu.Heap4

/-!
# The controller on the heap of the firmware

`Depot` takes the addresses of its messages from an allocator that may choose any address not in use. Here the allocator is
`pvPortMalloc`, and a task that frees its message calls `vPortFree`; the rest of the firmware (the tasks and queues that are
created, lwIP) uses the same heap. The thread does not look at what `pvPortMalloc` returns: if it is `NULL` it fills a message
there, and what the program does from then on is not modelled.
-/

namespace Rtu

/-- The controller, the heap, and whether the thread has written through `NULL`. -/
structure HeapDepot where
  depot : Depot
  use : HeapUse
  nullWritten : Bool

/-- Boot. -/
def HeapDepot.boot (stack : HMICmdVar) (rate : UInt32) (mem : Nat → BlockLink) : HeapDepot :=
  { depot := .boot stack rate, use := .boot mem, nullWritten := false }

/-- What the scheduler can let the program do. -/
inductive HeapDepotLabel where
  /-- the thread calls `pvPortMalloc` for the message that it is about to send -/
  | malloc
  /-- another step of the controller -/
  | depot (l : DepotLabel)
  /-- a call of the rest of the firmware, or a write into a block that is out -/
  | other (c : HeapCall)

/-- The address that the task of a device frees with a step. -/
def Depot.freedBy (d : Depot) (l : DepotLabel) : Option Nat :=
  match l.task with
  | none => none
  | some dev => if (d.step l).post.taken dev = none then d.post.taken dev else none

/-- Whether a call of the rest of the firmware is one that it may make: it does not free the messages of the controller. -/
def HeapDepot.mayCall (s : HeapDepot) : HeapCall → Bool
  | .free pv => (s.depot.post.heap pv).isNone
  | .malloc _ | .write _ _ => true

/-- One step. `msgSize` is the `sizeof` of the message of a device. -/
def HeapDepot.step (L : Layout) (msgSize : Device → UInt32) (s : HeapDepot) (l : HeapDepotLabel) : HeapDepot :=
  if s.nullWritten then s
  else
    match l with
    | .malloc =>
      match (s.depot.tcp.effect .run).bind Effect.message with
      | none => s
      | some (dev, _) =>
        if s.depot.post.hand ≠ none then s
        else
          match pvPortMalloc L s.use.heap (msgSize dev) with
          | none => { s with use := { s.use with stuck := true } }
          | some (pv, heap) =>
            if pv = 0 then { s with use := { s.use with heap }, nullWritten := true }
            else
              { s with
                depot := s.depot.malloc pv
                use := { s.use with heap, live := (pv, (msgSize dev).toNat) :: s.use.live } }
    | .depot (.malloc _) => s
    | .depot l =>
      match s.depot.freedBy l with
      | none => { s with depot := s.depot.step l }
      | some pv => { s with depot := s.depot.step l, use := s.use.step L (.free pv) }
    | .other c => if s.mayCall c then { s with use := s.use.step L c } else s

end Rtu

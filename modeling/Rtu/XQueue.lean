import Rtu.Ring

/-!
# Queues of bytes

`queue.c`: a queue keeps its items, of `uxItemSize` bytes each, in a storage area in memory that it uses round and round. Here is
what the queue does in its critical sections: an item is copied in at the back or at the front, or copied out. A semaphore is a
queue whose items have no bytes. Mutexes, whose holder inherits a priority, and queue sets are left out.
-/

namespace Rtu

/-- The storage area that a queue was given. -/
structure Storage (uxLength uxItemSize : Nat) where
  pcHead : Nat
  /-- `configASSERT` in `xQueueGenericCreate` -/
  uxLength_pos : 0 < uxLength
  /-- the memory that has an address below the area is larger than one item: no pointer below falls under 0 -/
  uxItemSize_lt : uxItemSize < pcHead
  storage_end : pcHead + uxLength * uxItemSize < 2 ^ 32

/-- The memory and the members of a `Queue_t` that change. -/
structure XQueue where
  mem : Nat → UInt8
  pcTail : Nat
  pcWriteTo : Nat
  pcReadFrom : Nat
  uxMessagesWaiting : Nat

/-- Where a sent item is to go. -/
inductive CopyPosition where
  | queueSEND_TO_BACK
  | queueSEND_TO_FRONT
  | queueOVERWRITE
  deriving DecidableEq, Repr

/-- `memcpy` of an item to an address. -/
def memcpy {uxItemSize : Nat} (mem : Nat → UInt8) (dst : Nat) (src : Vector UInt8 uxItemSize) : Nat → UInt8 :=
  fun a => if h : dst ≤ a ∧ a < dst + uxItemSize then src[a - dst] else mem a

/-- The bytes that `memcpy` copies from an address. -/
def bytesAt (mem : Nat → UInt8) (src uxItemSize : Nat) : Vector UInt8 uxItemSize := .ofFn fun j => mem (src + j)

variable {uxLength uxItemSize : Nat} (S : Storage uxLength uxItemSize)

/-- `xQueueGenericReset`, without the event lists. -/
def xQueueGenericReset (mem : Nat → UInt8) : XQueue :=
  { mem
    pcTail := S.pcHead + uxLength * uxItemSize
    uxMessagesWaiting := 0
    pcWriteTo := S.pcHead
    pcReadFrom := S.pcHead + (uxLength - 1) * uxItemSize }

/-- `prvCopyDataToQueue`. -/
def prvCopyDataToQueue (q : XQueue) (pvItemToQueue : Vector UInt8 uxItemSize) (xPosition : CopyPosition) : XQueue :=
  if uxItemSize = 0 then { q with uxMessagesWaiting := q.uxMessagesWaiting + 1 }
  else if xPosition = .queueSEND_TO_BACK then
    let pcWriteTo := q.pcWriteTo + uxItemSize
    { q with
      mem := memcpy q.mem q.pcWriteTo pvItemToQueue
      pcWriteTo := if pcWriteTo ≥ q.pcTail then S.pcHead else pcWriteTo
      uxMessagesWaiting := q.uxMessagesWaiting + 1 }
  else
    let pcReadFrom := q.pcReadFrom - uxItemSize
    let uxMessagesWaiting :=
      if xPosition = .queueOVERWRITE ∧ q.uxMessagesWaiting > 0 then q.uxMessagesWaiting - 1 else q.uxMessagesWaiting
    { q with
      mem := memcpy q.mem q.pcReadFrom pvItemToQueue
      pcReadFrom := if pcReadFrom < S.pcHead then q.pcTail - uxItemSize else pcReadFrom
      uxMessagesWaiting := uxMessagesWaiting + 1 }

/-- `prvCopyDataFromQueue`: what it writes to the buffer, and the queue. -/
def prvCopyDataFromQueue (q : XQueue) : Vector UInt8 uxItemSize × XQueue :=
  if uxItemSize ≠ 0 then
    let pcReadFrom := q.pcReadFrom + uxItemSize
    let pcReadFrom := if pcReadFrom ≥ q.pcTail then S.pcHead else pcReadFrom
    (bytesAt q.mem pcReadFrom uxItemSize, { q with pcReadFrom })
  else (bytesAt q.mem q.pcReadFrom uxItemSize, q)

end Rtu

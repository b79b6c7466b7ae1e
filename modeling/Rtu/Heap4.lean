import Rtu.Links
import Rtu.Tiling
import Rtu.Runs

/-!
# The heap

`heap_4.c`: `pvPortMalloc` and `vPortFree` over a list of free blocks that is sorted by address. A block starts with a
`BlockLink_t`; `Heap4.mem` gives the one at every address, and the list starts in the static `xStart` and ends in `pxEnd`.

A call that fails a `configASSERT` or runs round a loop for ever does not come back: `vAssertCalled` never returns. Then the
functions here give `none`. Sizes and addresses are words of 32 bits; none of the sums below passes $2^{32}$, because a size
that is asked for has its top bit clear when anything is added to it.
-/

namespace Rtu

/-- `BlockLink_t`. -/
structure BlockLink where
  /-- the address of the next free block, 0 for `NULL` -/
  pxNextFreeBlock : Nat
  xBlockSize : Nat
  deriving DecidableEq, Repr

/-- `x & ~mask`, of two words of 32 bits. -/
def andNot (x mask : Nat) : Nat := x &&& (2 ^ 32 - 1 - mask)

def portBYTE_ALIGNMENT : Nat := 8

def portBYTE_ALIGNMENT_MASK : Nat := 7

/-- The size of a `BlockLink_t`, two words, rounded up to the alignment. -/
def xHeapStructSize : Nat := andNot (8 + (portBYTE_ALIGNMENT - 1)) portBYTE_ALIGNMENT_MASK

def heapMINIMUM_BLOCK_SIZE : Nat := xHeapStructSize <<< 1

def configTOTAL_HEAP_SIZE : Nat := 40 * 1024

/-- Where the linker puts the array of the heap and the start of the list. -/
structure Layout where
  ucHeap : Nat
  xStart : Nat
  /-- nothing is at `NULL` -/
  ucHeap_pos : 0 < ucHeap
  ucHeap_end : ucHeap + configTOTAL_HEAP_SIZE ≤ 2 ^ 32
  /-- two objects do not overlap -/
  xStart_apart : xStart < ucHeap ∨ ucHeap + configTOTAL_HEAP_SIZE ≤ xStart

/-- The static variables of the allocator, and the memory. -/
structure Heap4 where
  mem : Nat → BlockLink
  pxEnd : Nat
  xFreeBytesRemaining : Nat
  xMinimumEverFreeBytesRemaining : Nat
  xBlockAllocatedBit : Nat

/-- Before the first call. -/
def Heap4.boot (mem : Nat → BlockLink) : Heap4 :=
  { mem, pxEnd := 0, xFreeBytesRemaining := 0, xMinimumEverFreeBytesRemaining := 0, xBlockAllocatedBit := 0 }

/-- The first aligned address of the array. -/
def Layout.pucAlignedHeap (L : Layout) : Nat :=
  if L.ucHeap &&& portBYTE_ALIGNMENT_MASK ≠ 0 then
    andNot (L.ucHeap + (portBYTE_ALIGNMENT - 1)) portBYTE_ALIGNMENT_MASK
  else L.ucHeap

/-- The bytes from there on. -/
def Layout.xTotalHeapSize (L : Layout) : Nat := configTOTAL_HEAP_SIZE - (L.pucAlignedHeap - L.ucHeap)

/-- The address of the mark at the end of the list. -/
def Layout.endAddress (L : Layout) : Nat :=
  andNot (L.pucAlignedHeap + L.xTotalHeapSize - xHeapStructSize) portBYTE_ALIGNMENT_MASK

/-- `prvHeapInit`: one free block, from the start of the array to the mark at its end. -/
def prvHeapInit (L : Layout) (h : Heap4) : Heap4 :=
  let xBlockSize := L.endAddress - L.pucAlignedHeap
  let mem := Function.update h.mem L.xStart ⟨L.pucAlignedHeap, 0⟩
  let mem := Function.update mem L.endAddress ⟨0, 0⟩
  { mem := Function.update mem L.pucAlignedHeap ⟨L.endAddress, xBlockSize⟩
    pxEnd := L.endAddress
    xFreeBytesRemaining := xBlockSize
    xMinimumEverFreeBytesRemaining := xBlockSize
    xBlockAllocatedBit := 1 <<< 31 }

/-- More steps than any walk along the list takes. -/
def walkLimit : Nat := configTOTAL_HEAP_SIZE

/-- The loop of `prvInsertBlockIntoFreeList`: on to the last entry of the list below the block to insert. -/
def findPlace (mem : Nat → BlockLink) (pxBlockToInsert : Nat) : Nat → Nat → Option Nat
  | 0, _ => none
  | limit + 1, pxIterator =>
    if (mem pxIterator).pxNextFreeBlock < pxBlockToInsert then
      findPlace mem pxBlockToInsert limit (mem pxIterator).pxNextFreeBlock
    else some pxIterator

/-- The block to insert is joined with the one in front of it if they are contiguous; the result is the joined block. -/
def mergeBefore (mem : Nat → BlockLink) (pxIterator pxBlockToInsert : Nat) : (Nat → BlockLink) × Nat :=
  if pxIterator + (mem pxIterator).xBlockSize = pxBlockToInsert then
    (Function.update mem pxIterator
      { mem pxIterator with xBlockSize := (mem pxIterator).xBlockSize + (mem pxBlockToInsert).xBlockSize }, pxIterator)
  else (mem, pxBlockToInsert)

/-- It is joined with the one behind it if they are contiguous and that one is not the mark at the end. -/
def mergeAfter (mem : Nat → BlockLink) (pxEnd pxIterator pxBlockToInsert : Nat) : Nat → BlockLink :=
  let pxNext := (mem pxIterator).pxNextFreeBlock
  if pxBlockToInsert + (mem pxBlockToInsert).xBlockSize = pxNext then
    if pxNext ≠ pxEnd then
      Function.update mem pxBlockToInsert
        ⟨(mem pxNext).pxNextFreeBlock, (mem pxBlockToInsert).xBlockSize + (mem pxNext).xBlockSize⟩
    else Function.update mem pxBlockToInsert { mem pxBlockToInsert with pxNextFreeBlock := pxEnd }
  else Function.update mem pxBlockToInsert { mem pxBlockToInsert with pxNextFreeBlock := pxNext }

/-- What the insertion behind an entry of the list writes. -/
def insertBehind (mem : Nat → BlockLink) (pxEnd pxIterator pxBlockToInsert : Nat) : Nat → BlockLink :=
  let (mem, pxBlock) := mergeBefore mem pxIterator pxBlockToInsert
  let mem := mergeAfter mem pxEnd pxIterator pxBlock
  if pxIterator ≠ pxBlock then Function.update mem pxIterator { mem pxIterator with pxNextFreeBlock := pxBlock } else mem

/-- `prvInsertBlockIntoFreeList`. -/
def prvInsertBlockIntoFreeList (L : Layout) (h : Heap4) (pxBlockToInsert : Nat) : Option Heap4 :=
  (findPlace h.mem pxBlockToInsert walkLimit L.xStart).map fun pxIterator =>
    { h with mem := insertBehind h.mem h.pxEnd pxIterator pxBlockToInsert }

/-- The loop of `pvPortMalloc`: on to the first block that is large enough, or to the end of the list. -/
def findBlock (mem : Nat → BlockLink) (xWantedSize : Nat) : Nat → Nat → Nat → Option (Nat × Nat)
  | 0, _, _ => none
  | limit + 1, pxPreviousBlock, pxBlock =>
    if (mem pxBlock).xBlockSize < xWantedSize ∧ (mem pxBlock).pxNextFreeBlock ≠ 0 then
      findBlock mem xWantedSize limit pxBlock (mem pxBlock).pxNextFreeBlock
    else some (pxPreviousBlock, pxBlock)

/-- The size that is looked for: with a `BlockLink_t`, and rounded up to the alignment. -/
def wantedSize (xWantedSize : Nat) : Nat :=
  if xWantedSize > 0 then
    let xWantedSize := xWantedSize + xHeapStructSize
    if xWantedSize &&& portBYTE_ALIGNMENT_MASK ≠ 0 then
      xWantedSize + (portBYTE_ALIGNMENT - (xWantedSize &&& portBYTE_ALIGNMENT_MASK))
    else xWantedSize
  else xWantedSize

/-- The block found is split: what is too much of it becomes a free block of its own. -/
def splitBlock (L : Layout) (h : Heap4) (pxBlock xWantedSize : Nat) : Option Heap4 :=
  if (h.mem pxBlock).xBlockSize - xWantedSize > heapMINIMUM_BLOCK_SIZE then
    let pxNewBlockLink := pxBlock + xWantedSize
    if pxNewBlockLink &&& portBYTE_ALIGNMENT_MASK ≠ 0 then none
    else
      let mem := Function.update h.mem pxNewBlockLink
        { h.mem pxNewBlockLink with xBlockSize := (h.mem pxBlock).xBlockSize - xWantedSize }
      let mem := Function.update mem pxBlock { mem pxBlock with xBlockSize := xWantedSize }
      prvInsertBlockIntoFreeList L { h with mem } pxNewBlockLink
  else some h

/-- The block found is taken out of the list, and marked as allocated. -/
def allocateBlock (L : Layout) (h : Heap4) (pxPreviousBlock pxBlock xWantedSize : Nat) : Option Heap4 :=
  let mem := Function.update h.mem pxPreviousBlock
    { h.mem pxPreviousBlock with pxNextFreeBlock := (h.mem pxBlock).pxNextFreeBlock }
  (splitBlock L { h with mem } pxBlock xWantedSize).map fun h =>
    let xFreeBytesRemaining := h.xFreeBytesRemaining - (h.mem pxBlock).xBlockSize
    { h with
      mem := Function.update h.mem pxBlock ⟨0, (h.mem pxBlock).xBlockSize ||| h.xBlockAllocatedBit⟩
      xFreeBytesRemaining
      xMinimumEverFreeBytesRemaining :=
        if xFreeBytesRemaining < h.xMinimumEverFreeBytesRemaining then xFreeBytesRemaining
        else h.xMinimumEverFreeBytesRemaining }

/-- `pvPortMalloc`: the address that it returns, 0 for `NULL`. -/
def pvPortMalloc (L : Layout) (h : Heap4) (xWantedSize : UInt32) : Option (Nat × Heap4) :=
  let h := if h.pxEnd = 0 then prvHeapInit L h else h
  if xWantedSize.toNat &&& h.xBlockAllocatedBit = 0 then
    let xWantedSize := wantedSize xWantedSize.toNat
    if xWantedSize &&& portBYTE_ALIGNMENT_MASK ≠ 0 then none
    else if xWantedSize > 0 ∧ xWantedSize ≤ h.xFreeBytesRemaining then
      (findBlock h.mem xWantedSize walkLimit L.xStart (h.mem L.xStart).pxNextFreeBlock).bind fun (pxPreviousBlock, pxBlock) =>
        if pxBlock ≠ h.pxEnd then
          let pvReturn := (h.mem pxPreviousBlock).pxNextFreeBlock + xHeapStructSize
          if pvReturn &&& portBYTE_ALIGNMENT_MASK ≠ 0 then none
          else (allocateBlock L h pxPreviousBlock pxBlock xWantedSize).map fun h => (pvReturn, h)
        else some (0, h)
    else some (0, h)
  else some (0, h)

/-- `vPortFree`. -/
def vPortFree (L : Layout) (h : Heap4) (pv : Nat) : Option Heap4 :=
  if pv = 0 then some h
  else
    let pxLink := pv - xHeapStructSize
    if (h.mem pxLink).xBlockSize &&& h.xBlockAllocatedBit = 0 then none
    else if (h.mem pxLink).pxNextFreeBlock ≠ 0 then none
    else
      let xBlockSize := andNot (h.mem pxLink).xBlockSize h.xBlockAllocatedBit
      prvInsertBlockIntoFreeList L
        { h with
          mem := Function.update h.mem pxLink { h.mem pxLink with xBlockSize }
          xFreeBytesRemaining := h.xFreeBytesRemaining + xBlockSize } pxLink

/-! ## The heap and those who use it -/

/-- What a task can do with the heap. -/
inductive HeapCall where
  | malloc (xWantedSize : UInt32)
  | free (pv : Nat)
  /-- it writes into memory that it was given; these eight bytes read as a `BlockLink_t` afterwards -/
  | write (addr : Nat) (value : BlockLink)

/-- The heap, the blocks that were handed out and not taken back, each with the size asked for, and whether a call did not
come back. -/
structure HeapUse where
  heap : Heap4
  live : List (Nat × Nat)
  stuck : Bool

/-- Boot. -/
def HeapUse.boot (mem : Nat → BlockLink) : HeapUse := { heap := .boot mem, live := [], stuck := false }

/-- A call. A task frees what it was given and has not freed, or `NULL`, and writes into its own blocks only. -/
def HeapUse.step (L : Layout) (s : HeapUse) : HeapCall → HeapUse
  | .malloc xWantedSize =>
    match pvPortMalloc L s.heap xWantedSize with
    | none => { s with stuck := true }
    | some (pv, heap) => { s with heap, live := if pv = 0 then s.live else (pv, xWantedSize.toNat) :: s.live }
  | .free pv =>
    if pv = 0 ∨ pv ∈ s.live.map Prod.fst then
      match vPortFree L s.heap pv with
      | none => { s with stuck := true }
      | some heap => { s with heap, live := s.live.eraseP fun b => b.1 = pv }
    else s
  | .write addr value =>
    if s.live.any fun b => b.1 ≤ addr ∧ addr < b.1 + b.2 then
      { s with heap := { s.heap with mem := Function.update s.heap.mem addr value } }
    else s

end Rtu

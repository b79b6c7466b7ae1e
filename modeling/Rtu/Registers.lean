import Mathlib.Logic.Function.Basic

/-!
# Registers behind a serial bus

A chip whose registers are reached one word at a time: a word that is an address selects a register, any other word is stored in the
register selected, and every transfer answers with what the register selected before it holds. Nothing here names a particular chip.
-/

namespace Registers

universe u

variable {α : Type u} [DecidableEq α] {isAddress : α → Bool}

/-- The registers, and the one selected. -/
structure Chip (α : Type u) where
  regs : α → α
  addressed : α

/-- One transfer: the answer, and the chip after it. -/
def Chip.transfer (isAddress : α → Bool) (c : Chip α) (word : α) : α × Chip α :=
  (c.regs c.addressed,
    if isAddress word then { c with addressed := word } else { c with regs := Function.update c.regs c.addressed word })

/-- Some transfers, one after the other. -/
def Chip.transfers (isAddress : α → Bool) (c : Chip α) : List α → List α × Chip α
  | [] => ([], c)
  | word :: words =>
    let first := c.transfer isAddress word
    let rest := first.2.transfers isAddress words
    (first.1 :: rest.1, rest.2)

/-- An address selects. -/
theorem transfer_address (c : Chip α) {address : α} (h : isAddress address = true) :
    c.transfer isAddress address = (c.regs c.addressed, { c with addressed := address }) := by
  unfold Chip.transfer
  rw [if_pos h]

/-- Any other word is stored. -/
theorem transfer_data (c : Chip α) {data : α} (h : isAddress data = false) :
    c.transfer isAddress data = (c.regs c.addressed, { c with regs := Function.update c.regs c.addressed data }) := by
  unfold Chip.transfer
  rw [if_neg (by simp [h])]

/-- An address and a second one: the register of the first is read with the second. -/
theorem transfers_read (c : Chip α) {address next : α} (h : isAddress address = true) (hnext : isAddress next = true) :
    c.transfers isAddress [address, next] = ([c.regs c.addressed, c.regs address], { c with addressed := next }) := by
  simp only [Chip.transfers, transfer_address _ h, transfer_address _ hnext]

end Registers

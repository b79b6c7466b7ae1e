import Rtu.Roster
import Mathlib.Logic.Function.Basic

/-!
# The lists of the kernel

`list.c`: an item knows the items before and after it and the list that it is in, a list is closed to a circle by its end
marker `xListEnd`, and `pxIndex` walks the circle. The functions are written over the memory of the items; `Rosters` is
what the lists mean.

The owner of an item is set once, when its task is made, so an item stands for its owner here.
-/

namespace Rtu

open Rosters

/-- The longest wait, and the value of every end marker. -/
def portMAX_DELAY : Nat := 0xFFFFFFFF

variable {ι κ : Type}

/-- The address of an item, or of the end marker of a list. -/
inductive Node (ι κ : Type)
  | item (i : ι)
  | xListEnd (l : κ)
deriving DecidableEq, Repr

/-- `ListItem_t`. Of an end marker the first three fields are there. -/
structure ListItem (ι κ : Type) where
  xItemValue : Nat
  pxNext : Node ι κ
  pxPrevious : Node ι κ
  pvContainer : Option κ

/-- `List_t` without its end marker. -/
structure ListHead (ι κ : Type) where
  uxNumberOfItems : Nat
  pxIndex : Node ι κ

/-- The items and the lists in memory. -/
structure ListMemory (ι κ : Type) where
  nodes : Node ι κ → ListItem ι κ
  lists : κ → ListHead ι κ

namespace ListMemory

variable [DecidableEq ι] [DecidableEq κ]

/-- An assignment to fields of one item. -/
def set (m : ListMemory ι κ) (n : Node ι κ) (f : ListItem ι κ → ListItem ι κ) : ListMemory ι κ :=
  { m with nodes := Function.update m.nodes n (f (m.nodes n)) }

/-- An assignment to fields of one list. -/
def setList (m : ListMemory ι κ) (l : κ) (f : ListHead ι κ → ListHead ι κ) : ListMemory ι κ :=
  { m with lists := Function.update m.lists l (f (m.lists l)) }

def vListInitialise (m : ListMemory ι κ) (l : κ) : ListMemory ι κ :=
  let m := m.setList l fun h => { h with pxIndex := .xListEnd l }
  let m := m.set (.xListEnd l) fun n => { n with xItemValue := portMAX_DELAY }
  let m := m.set (.xListEnd l) fun n => { n with pxNext := .xListEnd l }
  let m := m.set (.xListEnd l) fun n => { n with pxPrevious := .xListEnd l }
  m.setList l fun h => { h with uxNumberOfItems := 0 }

def vListInitialiseItem (m : ListMemory ι κ) (i : ι) : ListMemory ι κ :=
  m.set (.item i) fun n => { n with pvContainer := none }

/-- Every list and every item is made ready. -/
def initialise (m : ListMemory ι κ) (lists : List κ) (items : List ι) : ListMemory ι κ :=
  items.foldl vListInitialiseItem (lists.foldl vListInitialise m)

def listSET_LIST_ITEM_VALUE (m : ListMemory ι κ) (i : ι) (xValue : Nat) : ListMemory ι κ :=
  m.set (.item i) fun n => { n with xItemValue := xValue }

def vListInsertEnd (m : ListMemory ι κ) (pxList : κ) (pxNewListItem : ι) : ListMemory ι κ :=
  let new := Node.item pxNewListItem
  let pxIndex := (m.lists pxList).pxIndex
  let m := m.set new fun n => { n with pxNext := pxIndex }
  let m := m.set new fun n => { n with pxPrevious := (m.nodes pxIndex).pxPrevious }
  let m := m.set (m.nodes pxIndex).pxPrevious fun n => { n with pxNext := new }
  let m := m.set pxIndex fun n => { n with pxPrevious := new }
  let m := m.set new fun n => { n with pvContainer := some pxList }
  m.setList pxList fun h => { h with uxNumberOfItems := h.uxNumberOfItems + 1 }

/-- The loop of `vListInsert`: from `pxIterator` on to the item behind which the new one comes. -/
def iterate (m : ListMemory ι κ) (xValueOfInsertion : Nat) : Nat → Node ι κ → Option (Node ι κ)
  | 0, _ => none
  | fuel + 1, pxIterator =>
    if (m.nodes (m.nodes pxIterator).pxNext).xItemValue ≤ xValueOfInsertion then
      m.iterate xValueOfInsertion fuel (m.nodes pxIterator).pxNext
    else
      some pxIterator

/-- The item behind which an item of a value comes. The loop may look at every item and at the end marker. -/
def insertionPoint (m : ListMemory ι κ) (pxList : κ) (xValueOfInsertion : Nat) : Option (Node ι κ) :=
  if xValueOfInsertion = portMAX_DELAY then
    some (m.nodes (.xListEnd pxList)).pxPrevious
  else
    m.iterate xValueOfInsertion ((m.lists pxList).uxNumberOfItems + 1) (.xListEnd pxList)

def vListInsert (m : ListMemory ι κ) (pxList : κ) (pxNewListItem : ι) : Option (ListMemory ι κ) := do
  let new := Node.item pxNewListItem
  let pxIterator ← m.insertionPoint pxList (m.nodes new).xItemValue
  let m := m.set new fun n => { n with pxNext := (m.nodes pxIterator).pxNext }
  let m := m.set (m.nodes new).pxNext fun n => { n with pxPrevious := new }
  let m := m.set new fun n => { n with pxPrevious := pxIterator }
  let m := m.set pxIterator fun n => { n with pxNext := new }
  let m := m.set new fun n => { n with pvContainer := some pxList }
  return m.setList pxList fun h => { h with uxNumberOfItems := h.uxNumberOfItems + 1 }

/-- An item that is in no list has no list to be taken out of. -/
def uxListRemove (m : ListMemory ι κ) (pxItemToRemove : ι) : Option (ListMemory ι κ × Nat) := do
  let item := Node.item pxItemToRemove
  let pxList ← (m.nodes item).pvContainer
  let m := m.set (m.nodes item).pxNext fun n => { n with pxPrevious := (m.nodes item).pxPrevious }
  let m := m.set (m.nodes item).pxPrevious fun n => { n with pxNext := (m.nodes item).pxNext }
  let m :=
    if (m.lists pxList).pxIndex = item then
      m.setList pxList fun h => { h with pxIndex := (m.nodes item).pxPrevious }
    else
      m
  let m := m.set item fun n => { n with pvContainer := none }
  let m := m.setList pxList fun h => { h with uxNumberOfItems := h.uxNumberOfItems - 1 }
  return (m, (m.lists pxList).uxNumberOfItems)

def listGET_OWNER_OF_NEXT_ENTRY (m : ListMemory ι κ) (pxConstList : κ) : ListMemory ι κ × Node ι κ :=
  let m := m.setList pxConstList fun h => { h with pxIndex := (m.nodes h.pxIndex).pxNext }
  let m :=
    if (m.lists pxConstList).pxIndex = .xListEnd pxConstList then
      m.setList pxConstList fun h => { h with pxIndex := (m.nodes h.pxIndex).pxNext }
    else
      m
  (m, (m.lists pxConstList).pxIndex)

def listGET_OWNER_OF_HEAD_ENTRY (m : ListMemory ι κ) (pxList : κ) : Node ι κ := (m.nodes (.xListEnd pxList)).pxNext

def listLIST_IS_EMPTY (m : ListMemory ι κ) (pxList : κ) : Bool := (m.lists pxList).uxNumberOfItems = 0

end ListMemory

/-- A call that changes the lists. -/
inductive ListCall (ι κ : Type)
  | setValue (i : ι) (xValue : Nat)
  | insertEnd (l : κ) (i : ι)
  | insert (l : κ) (i : ι)
  | remove (i : ι)
  | next (l : κ)
deriving DecidableEq, Repr

/-- What a call gives back: the number of items left, or the item that the index comes to. -/
inductive ListReply (ι κ : Type)
  | none
  | count (n : Nat)
  | owner (n : Node ι κ)
deriving DecidableEq, Repr

/-- A call in memory. -/
def ListMemory.call [DecidableEq ι] [DecidableEq κ] (m : ListMemory ι κ) :
    ListCall ι κ → Option (ListMemory ι κ × ListReply ι κ)
  | .setValue i xValue => some (m.listSET_LIST_ITEM_VALUE i xValue, .none)
  | .insertEnd l i => some (m.vListInsertEnd l i, .none)
  | .insert l i => (m.vListInsert l i).map fun m => (m, .none)
  | .remove i => (m.uxListRemove i).map fun r => (r.1, .count r.2)
  | .next l => some ((m.listGET_OWNER_OF_NEXT_ENTRY l).1, .owner (m.listGET_OWNER_OF_NEXT_ENTRY l).2)

/-- The calls of a list in order. -/
def ListMemory.calls [DecidableEq ι] [DecidableEq κ] (m : ListMemory ι κ) :
    List (ListCall ι κ) → Option (ListMemory ι κ × List (ListReply ι κ))
  | [] => some (m, [])
  | c :: cs => do
    let (m, reply) ← m.call c
    let (m, replies) ← m.calls cs
    return (m, reply :: replies)

/-! ## What the lists mean -/

/-- The values of the items, the list that each is in, and a roster for each list. -/
structure KernelLists (ι κ : Type) where
  value : ι → Nat
  container : ι → Option κ
  roster : κ → Roster ι

namespace KernelLists

variable [DecidableEq ι] [DecidableEq κ]

/-- The items of a list in order. -/
def items (a : KernelLists ι κ) (l : κ) : List ι := (a.roster l).items

/-- An item of no list becomes one of a list. -/
def join (a : KernelLists ι κ) (l : κ) (i : ι) (r : Roster ι) : KernelLists ι κ :=
  { a with container := Function.update a.container i (some l), roster := Function.update a.roster l r }

def setValue (a : KernelLists ι κ) (i : ι) (xValue : Nat) : KernelLists ι κ :=
  { a with value := Function.update a.value i xValue }

def insertEnd (a : KernelLists ι κ) (l : κ) (i : ι) : KernelLists ι κ := a.join l i ((a.roster l).push i)

/-- By value, behind the items of the same value. -/
def insert (a : KernelLists ι κ) (l : κ) (i : ι) : KernelLists ι κ :=
  a.join l i ((a.roster l).place (fun j => a.value j ≤ a.value i) i)

def remove (a : KernelLists ι κ) (i : ι) : KernelLists ι κ :=
  match a.container i with
  | none => a
  | some l =>
    { a with
      container := Function.update a.container i none
      roster := Function.update a.roster l ((a.roster l).remove i) }

def next (a : KernelLists ι κ) (l : κ) : KernelLists ι κ :=
  { a with roster := Function.update a.roster l (a.roster l).next }

def call (a : KernelLists ι κ) : ListCall ι κ → KernelLists ι κ
  | .setValue i xValue => a.setValue i xValue
  | .insertEnd l i => a.insertEnd l i
  | .insert l i => a.insert l i
  | .remove i => a.remove i
  | .next l => a.next l

/-- What a call gives back. -/
def reply (a : KernelLists ι κ) : ListCall ι κ → ListReply ι κ
  | .remove i =>
    match a.container i with
    | none => .none
    | some l => .count ((a.remove i).items l).length
  | .next l =>
    match (a.roster l).turn.head? with
    | none => .owner (.xListEnd l)
    | some i => .owner (.item i)
  | _ => .none

def calls (a : KernelLists ι κ) (cs : List (ListCall ι κ)) : KernelLists ι κ := cs.foldl call a

def replies (a : KernelLists ι κ) : List (ListCall ι κ) → List (ListReply ι κ)
  | [] => []
  | c :: cs => a.reply c :: (a.call c).replies cs

/-- What a caller of the lists has to see to: an item is put in while it is in no list, it is taken out of a list that it is in,
and the index is moved in a list with items. -/
def Legal (a : KernelLists ι κ) : ListCall ι κ → Prop
  | .setValue _ xValue => xValue ≤ portMAX_DELAY
  | .insertEnd _ i => a.container i = none
  | .insert _ i => a.container i = none
  | .remove i => a.container i ≠ none
  | .next l => a.items l ≠ []

/-- Every call of a list meets a condition where it is made. -/
def EachCall (P : KernelLists ι κ → ListCall ι κ → Prop) (a : KernelLists ι κ) : List (ListCall ι κ) → Prop
  | [] => True
  | c :: cs => P a c ∧ (a.call c).EachCall P cs

/-- Every call of a list is legal where it is made. -/
abbrev LegalCalls (a : KernelLists ι κ) (cs : List (ListCall ι κ)) : Prop := a.EachCall Legal cs

instance (a : KernelLists ι κ) (c : ListCall ι κ) : Decidable (a.Legal c) :=
  match c with
  | .setValue _ xValue => inferInstanceAs (Decidable (xValue ≤ portMAX_DELAY))
  | .insertEnd _ i => inferInstanceAs (Decidable (a.container i = none))
  | .insert _ i => inferInstanceAs (Decidable (a.container i = none))
  | .remove i => inferInstanceAs (Decidable (a.container i ≠ none))
  | .next l => inferInstanceAs (Decidable (a.items l ≠ []))

instance decidableEachCall (P : KernelLists ι κ → ListCall ι κ → Prop) [∀ a c, Decidable (P a c)] (a : KernelLists ι κ) :
    (cs : List (ListCall ι κ)) → Decidable (a.EachCall P cs)
  | [] => .isTrue trivial
  | c :: cs =>
    have := decidableEachCall P (a.call c) cs
    inferInstanceAs (Decidable (P a c ∧ (a.call c).EachCall P cs))

/-- The lists before the first call: all empty. -/
def initial (value : ι → Nat) : KernelLists ι κ := ⟨value, fun _ => none, fun _ => .empty⟩

end KernelLists

end Rtu

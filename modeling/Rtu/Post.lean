import Mathlib.Algebra.GroupWithZero.Nat
import Mathlib.Data.List.Nodup
import Mathlib.Logic.Function.Basic
import Rtu.Fifo

/-!
# Messages by address

One producer and several devices that share a heap. The producer allocates a block, fills it and sends its address to the queue of
a device; the device takes the address, reads the block and frees it. Nothing here names a particular producer or device.

An `Office` is the heap and who holds which address, with a record beside it that no operation reads: a block in use carries the
number it was given among the blocks allocated for its addressee, so that two messages on one address stay apart. `Kept` is the
invariant: the record tells one story, and every address in use is in exactly one place.
-/

namespace Post

universe u v

/-! ## Addresses and places -/

section Placed

variable {P : Type u} {β : Type v}

/-- The addresses in use are those that some place holds, and a place holds an address once and alone. -/
structure Placed (heap : Nat → Option β) (held : P → List Nat) : Prop where
  live : ∀ a, heap a ≠ none ↔ ∃ x, a ∈ held x
  nodup : ∀ x, (held x).Nodup
  apart : ∀ x y a, a ∈ held x → a ∈ held y → x = y

variable {heap : Nat → Option β} {held : P → List Nat}

/-- An address that a place holds is in use. -/
theorem Placed.exists_heap (h : Placed heap held) {x : P} {a : Nat} (ha : a ∈ held x) : ∃ b, heap a = some b :=
  Option.ne_none_iff_exists'.mp ((h.live a).mpr ⟨x, ha⟩)

/-- An address that is not in use is held nowhere. -/
theorem Placed.not_mem (h : Placed heap held) {a : Nat} (ha : heap a = none) (x : P) : a ∉ held x :=
  fun hx => (h.live a).mpr ⟨x, hx⟩ ha

variable [DecidableEq P]

/-- An address put to use is held by the place that has it last. -/
theorem Placed.add (h : Placed heap held) {a : Nat} (ha : heap a = none) (x : P) (b : β) :
    Placed (Function.update heap a (some b)) (Function.update held x (held x ++ [a])) := by
  have hmem : ∀ y c, c ∈ Function.update held x (held x ++ [a]) y ↔ c ∈ held y ∨ y = x ∧ c = a := by
    intro y c
    by_cases hy : y = x
    · subst hy
      simp
    · simp [hy]
  refine ⟨?_, ?_, ?_⟩
  · intro c
    simp only [hmem, exists_or, ← h.live c, exists_and_right, exists_eq, true_and]
    by_cases hc : c = a
    · simp [hc]
    · simp [hc]
  · intro y
    by_cases hy : y = x
    · subst hy
      rw [Function.update_self]
      refine List.nodup_append.mpr ⟨h.nodup y, List.pairwise_singleton _ a, ?_⟩
      rintro c hc d hd rfl
      rw [List.mem_singleton.mp hd] at hc
      exact Placed.not_mem h ha y hc
    · rw [Function.update_of_ne hy]
      exact h.nodup y
  · intro y z c hy hz
    rcases (hmem y c).mp hy with hy' | ⟨rfl, rfl⟩ <;> rcases (hmem z c).mp hz with hz' | ⟨rfl, hca⟩
    · exact h.apart y z c hy' hz'
    · rw [hca] at hy'
      exact absurd hy' (Placed.not_mem h ha y)
    · exact absurd hz' (Placed.not_mem h ha z)
    · rfl

/-- The first address of a place given back. -/
theorem Placed.drop (h : Placed heap held) {x : P} {a : Nat} {l : List Nat} (hx : held x = a :: l) :
    Placed (Function.update heap a none) (Function.update held x l) := by
  have hax : a ∈ held x := by simp [hx]
  have hnodup : a ∉ l ∧ l.Nodup := List.nodup_cons.mp (hx ▸ h.nodup x)
  have hmem : ∀ y c, c ∈ Function.update held x l y ↔ c ∈ held y ∧ c ≠ a := by
    intro y c
    by_cases hy : y = x
    · subst hy
      rw [Function.update_self, hx, List.mem_cons]
      refine ⟨fun hc => ⟨Or.inr hc, ?_⟩, fun hc => hc.1.resolve_left hc.2⟩
      rintro rfl
      exact hnodup.1 hc
    · rw [Function.update_of_ne hy]
      refine ⟨fun hc => ⟨hc, ?_⟩, fun hc => hc.1⟩
      rintro rfl
      exact hy (h.apart y x c hc hax)
  refine ⟨?_, ?_, ?_⟩
  · intro c
    simp only [hmem, exists_and_right, ← h.live c]
    by_cases hc : c = a
    · simp [hc]
    · simp [hc]
  · intro y
    by_cases hy : y = x
    · subst hy
      rw [Function.update_self]
      exact hnodup.2
    · rw [Function.update_of_ne hy]
      exact h.nodup y
  · intro y z c hy hz
    exact h.apart y z c ((hmem y c).mp hy).1 ((hmem z c).mp hz).1

/-- The first address of a place passed on to another. -/
theorem Placed.move (h : Placed heap held) {x y : P} {a : Nat} {l : List Nat} (hne : y ≠ x) (hx : held x = a :: l) :
    Placed heap (Function.update (Function.update held x l) y (held y ++ [a])) := by
  obtain ⟨b, hb⟩ := Placed.exists_heap h (x := x) (a := a) (by simp [hx])
  have hadd := Placed.add (Placed.drop h hx) (a := a) (Function.update_self ..) y b
  rw [Function.update_idem, ← hb, Function.update_eq_self, Function.update_of_ne hne] at hadd
  exact hadd

end Placed

/-! ## The office -/

variable {D : Type u} {B : Type v} {cap : D → Nat}

/-- The heap, the places where an address can be, and the record. -/
structure Office (D : Type u) (B : Type v) (cap : D → Nat) where
  /-- the blocks in use: their contents and their numbers -/
  heap : Nat → Option (B × Nat)
  /-- the message that the producer has allocated and not sent: its addressee and its address -/
  hand : Option (D × Nat)
  queue : (d : D) → Fifo.Queue Nat (cap d)
  /-- the message that a device has received and not freed -/
  taken : D → Option Nat
  /-- the contents allocated for a device, in order -/
  allocated : D → List B
  /-- what the blocks held when they were sent -/
  sent : D → List (B × Nat)
  /-- what the blocks held when they were received -/
  handled : D → List (B × Nat)
  /-- the numbers of the blocks freed by a device, in order -/
  freed : D → List Nat

/-- Nothing allocated. -/
def Office.empty (D : Type u) (B : Type v) (cap : D → Nat) : Office D B cap :=
  { heap := fun _ => none, hand := none, queue := fun d => .empty Nat (cap d), taken := fun _ => none
    allocated := fun _ => [], sent := fun _ => [], handled := fun _ => [], freed := fun _ => [] }

/-- The addresses in the charge of a device: the one it holds and those in its queue. -/
def Office.charge (p : Office D B cap) (d : D) : List Nat := (p.taken d).toList ++ (p.queue d).items

/-- The addresses that a device has in its charge, or the producer in its hand. -/
def Office.held (p : Office D B cap) : Option D → List Nat
  | none => (p.hand.map Prod.snd).toList
  | some d => p.charge d

/-- The messages in the queue of a device. -/
def Office.queued (p : Office D B cap) (d : D) : List (B × Nat) := (p.queue d).items.filterMap p.heap

/-- The number of the message that a device holds. -/
def Office.inUse (p : Office D B cap) (d : D) : List Nat := (((p.taken d).bind p.heap).map Prod.snd).toList

section Operations

variable [DecidableEq D]

/-- The message for a device that the producer holds. -/
def Office.drafted (p : Office D B cap) (d : D) : List (B × Nat) :=
  match p.hand with
  | none => []
  | some (d', a) => if d' = d then (p.heap a).toList else []

/-- The producer holds one message. -/
theorem length_drafted_le (p : Office D B cap) (d : D) : (p.drafted d).length ≤ 1 := by
  unfold Office.drafted
  split
  · exact Nat.zero_le 1
  · rename_i d' a _
    split
    · cases p.heap a <;> simp
    · exact Nat.zero_le 1

/-- The producer holds nothing for a device. -/
theorem drafted_eq_nil {p : Office D B cap} {d : D} (h : ∀ a, p.hand ≠ some (d, a)) : p.drafted d = [] := by
  unfold Office.drafted
  split
  · rfl
  · rename_i d' a hhand
    refine if_neg ?_
    rintro rfl
    exact h a hhand

/-- The producer allocates the block at an address and fills it. The allocator gives no address in use, and the producer
allocates nothing before it has sent what it holds. -/
def Office.alloc (p : Office D B cap) (d : D) (a : Nat) (b : B) : Option (Office D B cap) :=
  if p.hand = none ∧ p.heap a = none then
    some { p with
      heap := Function.update p.heap a (some (b, (p.allocated d).length)), hand := some (d, a)
      allocated := Function.update p.allocated d (p.allocated d ++ [b]) }
  else none

/-- The producer sends what it holds, if the queue has room. -/
def Office.send (p : Office D B cap) : Option (Office D B cap) :=
  match p.hand with
  | none => none
  | some (d, a) =>
    ((p.queue d).send a).map fun q =>
      { p with
        hand := none, queue := Function.update p.queue d q
        sent := Function.update p.sent d (p.sent d ++ (p.heap a).toList) }

/-- A device that holds nothing takes the oldest message of its queue and reads it. -/
def Office.take (p : Office D B cap) (d : D) : Option (Option B × Office D B cap) :=
  match p.taken d, (p.queue d).receive with
  | none, some (a, q) =>
    some ((p.heap a).map Prod.fst, { p with
      queue := Function.update p.queue d q, taken := Function.update p.taken d (some a)
      handled := Function.update p.handled d (p.handled d ++ (p.heap a).toList) })
  | _, _ => none

/-- A device frees the message that it holds. -/
def Office.free (p : Office D B cap) (d : D) : Option (Office D B cap) :=
  match p.taken d with
  | none => none
  | some a =>
    some { p with
      heap := Function.update p.heap a none, taken := Function.update p.taken d none
      freed := Function.update p.freed d (p.freed d ++ ((p.heap a).map Prod.snd).toList) }

/-! ## What an operation does -/

variable {p p' : Office D B cap}

theorem alloc_eq_some {d : D} {a : Nat} {b : B} (h : p.alloc d a b = some p') :
    p.hand = none ∧ p.heap a = none ∧
      p' = { p with
        heap := Function.update p.heap a (some (b, (p.allocated d).length)), hand := some (d, a)
        allocated := Function.update p.allocated d (p.allocated d ++ [b]) } := by
  unfold Office.alloc at h
  split at h
  · rename_i hfree
    exact ⟨hfree.1, hfree.2, (Option.some_inj.mp h).symm⟩
  · cases h

theorem send_eq_some (h : p.send = some p') :
    ∃ d a q, p.hand = some (d, a) ∧ (p.queue d).send a = some q ∧
      p' = { p with
        hand := none, queue := Function.update p.queue d q
        sent := Function.update p.sent d (p.sent d ++ (p.heap a).toList) } := by
  unfold Office.send at h
  split at h
  · cases h
  · rename_i d a hhand
    obtain ⟨q, hq, heq⟩ := Option.map_eq_some_iff.mp h
    exact ⟨d, a, q, hhand, hq, heq.symm⟩

theorem take_eq_some {d : D} {b : Option B} (h : p.take d = some (b, p')) :
    ∃ a q, p.taken d = none ∧ (p.queue d).receive = some (a, q) ∧ b = (p.heap a).map Prod.fst ∧
      p' = { p with
        queue := Function.update p.queue d q, taken := Function.update p.taken d (some a)
        handled := Function.update p.handled d (p.handled d ++ (p.heap a).toList) } := by
  unfold Office.take at h
  split at h
  · rename_i a q htaken hq
    obtain ⟨rfl, rfl⟩ := Prod.mk.inj (Option.some_inj.mp h)
    exact ⟨a, q, htaken, hq, rfl, rfl⟩
  · cases h

theorem free_eq_some {d : D} (h : p.free d = some p') :
    ∃ a, p.taken d = some a ∧
      p' = { p with
        heap := Function.update p.heap a none, taken := Function.update p.taken d none
        freed := Function.update p.freed d (p.freed d ++ ((p.heap a).map Prod.snd).toList) } := by
  unfold Office.free at h
  split at h
  · cases h
  · rename_i a htaken
    exact ⟨a, htaken, (Option.some_inj.mp h).symm⟩

theorem held_alloc {d : D} {a : Nat} {b : B} (h : p.alloc d a b = some p') :
    p'.held = Function.update p.held none (p.held none ++ [a]) := by
  obtain ⟨hhand, -, rfl⟩ := alloc_eq_some h
  funext x
  cases x with
  | none => simp [Office.held, hhand]
  | some d' => rfl

theorem held_send {d : D} {a : Nat} (hhand : p.hand = some (d, a)) (h : p.send = some p') :
    p'.held = Function.update (Function.update p.held none []) (some d) (p.held (some d) ++ [a]) := by
  obtain ⟨d₁, a₁, q, hhand₁, hsend, rfl⟩ := send_eq_some h
  have hitems := Fifo.Queue.items_of_send hsend
  rw [hhand] at hhand₁
  cases hhand₁
  funext x
  cases x with
  | none => simp [Office.held]
  | some d' =>
    by_cases hd : d' = d
    · subst hd
      simp [Office.held, Office.charge, hitems]
    · simp [Office.held, Office.charge, hd]

theorem held_take {d : D} {b : Option B} (h : p.take d = some (b, p')) : p'.held = p.held := by
  obtain ⟨a, q, htaken, hreceive, -, rfl⟩ := take_eq_some h
  have hitems := Fifo.Queue.items_of_receive hreceive
  funext x
  cases x with
  | none => rfl
  | some d' =>
    by_cases hd : d' = d
    · subst hd
      simp [Office.held, Office.charge, htaken, hitems]
    · simp [Office.held, Office.charge, hd]

theorem held_free {d : D} (h : p.free d = some p') : p'.held = Function.update p.held (some d) (p.queue d).items := by
  obtain ⟨a, -, rfl⟩ := free_eq_some h
  funext x
  cases x with
  | none => rfl
  | some d' =>
    by_cases hd : d' = d
    · subst hd
      simp [Office.held, Office.charge]
    · simp [Office.held, Office.charge, hd]

/-! ## The invariant -/

/-- The invariant. For every device, the messages allocated are those sent and the one that the producer holds; those sent are those
received and those in the queue, in this order; those received are those freed and the one that the device holds. An address in
use is in exactly one place. -/
structure Office.Kept (p : Office D B cap) : Prop where
  sent : ∀ d, (p.allocated d).zipIdx = p.sent d ++ p.drafted d
  handled : ∀ d, p.sent d = p.handled d ++ p.queued d
  freed : ∀ d, (p.handled d).map Prod.snd = p.freed d ++ p.inUse d
  placed : Placed p.heap p.held

theorem kept_empty : (Office.empty D B cap).Kept where
  sent _ := rfl
  handled _ := rfl
  freed _ := rfl
  placed := by
    have hheld : (Office.empty D B cap).held = fun _ => [] := by
      funext x
      cases x <;> rfl
    rw [hheld]
    refine ⟨?_, ?_, ?_⟩ <;> simp [Office.empty]

/-- What is read at some addresses does not change with the block at another. -/
theorem filterMap_update {β : Type v} (heap : Nat → Option β) (x : Option β) {a : Nat} {l : List Nat} (h : a ∉ l) :
    l.filterMap (Function.update heap a x) = l.filterMap heap := by
  induction l with
  | nil => rfl
  | cons c l ih =>
    obtain ⟨hc, hl⟩ := not_or.mp (List.mem_cons.not.mp h)
    simp only [List.filterMap_cons, Function.update_of_ne (Ne.symm hc), ih hl]

/-- What is read at an address and at those after it. -/
theorem filterMap_cons_toList {β : Type v} (heap : Nat → Option β) (a : Nat) (l : List Nat) :
    (a :: l).filterMap heap = (heap a).toList ++ l.filterMap heap := by
  cases h : heap a <;> simp [h]

omit [DecidableEq D] in
/-- The messages that are held, where an address that nobody holds is given another block. -/
theorem queued_update (p : Office D B cap) (d : D) (x : Option (B × Nat)) {a : Nat} (h : a ∉ (p.queue d).items) :
    (p.queue d).items.filterMap (Function.update p.heap a x) = p.queued d :=
  filterMap_update p.heap x h

omit [DecidableEq D] in
/-- The number of the message that a device holds, where an address that it does not hold is given another block. -/
theorem inUse_update (p : Office D B cap) (d : D) (x : Option (B × Nat)) {a : Nat} (h : a ∉ p.taken d) :
    (((p.taken d).bind (Function.update p.heap a x)).map Prod.snd).toList = p.inUse d := by
  unfold Office.inUse
  cases ht : p.taken d with
  | none => rfl
  | some c =>
    have hne : c ≠ a := by
      rintro rfl
      exact h ht
    rw [Option.bind_some, Option.bind_some, Function.update_of_ne hne]

/-- An allocation. -/
theorem Office.Kept.alloc (h : p.Kept) {d : D} {a : Nat} {b : B} (hp : p.alloc d a b = some p') : p'.Kept := by
  obtain ⟨hhand, hheap, rfl⟩ := alloc_eq_some hp
  -- the address is nowhere: what is read elsewhere is as it was
  have hnew : ∀ d', a ∉ p.charge d' := fun d' => Placed.not_mem h.placed hheap (some d')
  refine ⟨?_, ?_, ?_, ?_⟩
  · intro d'
    have hsent := h.sent d'
    simp only [Office.drafted, hhand, List.append_nil] at hsent ⊢
    by_cases hd : d = d'
    · subst hd
      simp [List.zipIdx_append, hsent]
    · rw [Function.update_of_ne (Ne.symm hd), if_neg hd, List.append_nil, hsent]
  · intro d'
    rw [h.handled d', ← queued_update p d' _ fun ha => hnew d' (List.mem_append_right _ ha)]
    rfl
  · intro d'
    rw [h.freed d', ← inUse_update p d' _ fun ha => hnew d' (List.mem_append_left _ (Option.mem_toList.mpr ha))]
    rfl
  · rw [held_alloc hp]
    exact Placed.add h.placed hheap none _

/-- A send: the address passes from the producer to its addressee. -/
theorem Office.Kept.send (h : p.Kept) (hp : p.send = some p') : p'.Kept := by
  obtain ⟨d, a, q, hhand, hsend, rfl⟩ := send_eq_some hp
  have hitems := Fifo.Queue.items_of_send hsend
  refine ⟨?_, ?_, h.freed, ?_⟩
  · intro d'
    have hsent := h.sent d'
    simp only [Office.drafted, hhand] at hsent ⊢
    by_cases hd : d = d'
    · subst hd
      simpa using hsent
    · rw [Function.update_of_ne (Ne.symm hd)]
      simpa [hd] using hsent
  · intro d'
    by_cases hd : d' = d
    · subst hd
      simp [Office.queued, hitems, h.handled d', filterMap_cons_toList]
    · simp only [Office.queued, Function.update_of_ne hd]
      exact h.handled d'
  · rw [held_send hhand hp]
    exact Placed.move h.placed (by simp) (by simp [Office.held, hhand])

/-- A receive: the address stays in the charge of the device. -/
theorem Office.Kept.take (h : p.Kept) {d : D} {b : Option B} (hp : p.take d = some (b, p')) : p'.Kept := by
  obtain ⟨a, q, htaken, hreceive, -, rfl⟩ := take_eq_some hp
  have hitems := Fifo.Queue.items_of_receive hreceive
  refine ⟨h.sent, ?_, ?_, ?_⟩
  · intro d'
    by_cases hd : d' = d
    · subst hd
      simp [h.handled d', Office.queued, hitems, filterMap_cons_toList]
    · simp only [Office.queued, Function.update_of_ne hd]
      exact h.handled d'
  · intro d'
    by_cases hd : d' = d
    · subst hd
      have hfreed := h.freed d'
      simp only [Office.inUse, htaken, Option.bind_none, Option.map_none, Option.toList_none, List.append_nil] at hfreed
      cases ha : p.heap a <;> simp [Office.inUse, hfreed, ha]
    · simp only [Office.inUse, Function.update_of_ne hd]
      exact h.freed d'
  · rw [held_take hp]
    exact h.placed

/-- A free: the address goes out of use. -/
theorem Office.Kept.free (h : p.Kept) {d : D} (hp : p.free d = some p') : p'.Kept := by
  obtain ⟨a, htaken, rfl⟩ := free_eq_some hp
  have hcharge : p.held (some d) = a :: (p.queue d).items := by simp [Office.held, Office.charge, htaken]
  have hheld : a ∈ p.held (some d) := by simp [hcharge]
  -- the address is nowhere else
  have hqueue : ∀ d', a ∉ (p.queue d').items := by
    intro d' ha
    by_cases hd : d' = d
    · subst hd
      exact (List.nodup_cons.mp (hcharge ▸ h.placed.nodup (some d'))).1 ha
    · exact hd (Option.some_inj.mp (h.placed.apart (some d') (some d) a (List.mem_append_right _ ha) hheld))
  have hother : ∀ d', d' ≠ d → a ∉ p.taken d' := by
    intro d' hd ha
    exact hd (Option.some_inj.mp (h.placed.apart (some d') (some d) a (List.mem_append_left _ (Option.mem_toList.mpr ha)) hheld))
  refine ⟨?_, ?_, ?_, ?_⟩
  · intro d'
    rw [h.sent d']
    congr 1
    simp only [Office.drafted]
    cases hhand : p.hand with
    | none => rfl
    | some m =>
      have hne : m.2 ≠ a := by
        rintro rfl
        simpa using h.placed.apart none (some d) m.2 (by simp [Office.held, hhand]) hheld
      simp only [Function.update_of_ne hne]
  · intro d'
    rw [h.handled d', ← queued_update p d' none (hqueue d')]
    rfl
  · intro d'
    by_cases hd : d' = d
    · subst hd
      simp [h.freed d', Office.inUse, htaken]
    · rw [h.freed d', ← inUse_update p d' none (hother d' hd)]
      simp only [Office.inUse, Function.update_of_ne hd]
  · rw [held_free hp]
    exact Placed.drop h.placed hcharge

/-- The record of an office goes on from that of another. -/
structure Office.Extends (p p' : Office D B cap) : Prop where
  allocated : ∀ d, p.allocated d <+: p'.allocated d
  sent : ∀ d, p.sent d <+: p'.sent d
  freed : ∀ d, p.freed d <+: p'.freed d

omit [DecidableEq D] in
theorem Office.Extends.refl (p : Office D B cap) : p.Extends p :=
  ⟨fun _ => List.prefix_refl _, fun _ => List.prefix_refl _, fun _ => List.prefix_refl _⟩

omit [DecidableEq D] in
theorem Office.Extends.trans {p p' p'' : Office D B cap} (h : p.Extends p') (h' : p'.Extends p'') : p.Extends p'' :=
  ⟨fun d => (h.allocated d).trans (h'.allocated d), fun d => (h.sent d).trans (h'.sent d),
    fun d => (h.freed d).trans (h'.freed d)⟩

/-- A list of each device that is continued for one of them. -/
theorem prefix_update {β : Type v} (f : D → List β) (d : D) (l : List β) (d' : D) :
    f d' <+: Function.update f d (f d ++ l) d' := by
  by_cases hd : d' = d
  · subst hd
    simp
  · simp [hd]

theorem extends_alloc {d : D} {a : Nat} {b : B} (h : p.alloc d a b = some p') : p.Extends p' := by
  obtain ⟨-, -, rfl⟩ := alloc_eq_some h
  exact ⟨prefix_update p.allocated d [b], fun _ => List.prefix_refl _, fun _ => List.prefix_refl _⟩

theorem extends_send (h : p.send = some p') : p.Extends p' := by
  obtain ⟨d, a, q, -, -, rfl⟩ := send_eq_some h
  exact ⟨fun _ => List.prefix_refl _, prefix_update p.sent d _, fun _ => List.prefix_refl _⟩

theorem extends_take {d : D} {b : Option B} (h : p.take d = some (b, p')) : p.Extends p' := by
  obtain ⟨a, q, -, -, -, rfl⟩ := take_eq_some h
  exact ⟨fun _ => List.prefix_refl _, fun _ => List.prefix_refl _, fun _ => List.prefix_refl _⟩

theorem extends_free {d : D} (h : p.free d = some p') : p.Extends p' := by
  obtain ⟨a, -, rfl⟩ := free_eq_some h
  exact ⟨fun _ => List.prefix_refl _, fun _ => List.prefix_refl _, prefix_update p.freed d _⟩

/-- An address that is held after a free reads as before. -/
theorem heap_free (h : p.Kept) {d : D} (hp : p.free d = some p') {x : Option D} {a : Nat} (ha : a ∈ p'.held x) :
    p'.heap a = p.heap a := by
  obtain ⟨b, hb⟩ := Placed.exists_heap (h.free hp).placed ha
  obtain ⟨c, -, rfl⟩ := free_eq_some hp
  refine Function.update_of_ne ?_ _ _
  rintro rfl
  simp at hb

/-- An address that is held before an allocation reads as before. -/
theorem heap_alloc (h : p.Kept) {d : D} {c : Nat} {b : B} (hp : p.alloc d c b = some p') {x : Option D} {a : Nat}
    (ha : a ∈ p.held x) : p'.heap a = p.heap a := by
  obtain ⟨-, hfree, rfl⟩ := alloc_eq_some hp
  refine Function.update_of_ne ?_ _ _
  rintro rfl
  exact Placed.not_mem h.placed hfree x ha

end Operations

/-! ## What the invariant says -/

section Kept

variable [DecidableEq D] {p : Office D B cap}

/-- What a device has received is a beginning of what was sent to it. -/
theorem Office.Kept.handled_prefix (h : p.Kept) (d : D) : p.handled d <+: p.sent d := by
  rw [h.handled d]
  exact List.prefix_append _ _

/-- What was sent to a device is a beginning of what was allocated for it, in the order of the numbers. -/
theorem Office.Kept.sent_prefix (h : p.Kept) (d : D) : p.sent d <+: (p.allocated d).zipIdx := by
  rw [h.sent d]
  exact List.prefix_append _ _

/-- A beginning of the numbers from zero on is the numbers up to its length. -/
theorem eq_range_of_prefix {l : List Nat} {n : Nat} (h : l <+: List.range n) : l = List.range l.length := by
  refine List.ext_getElem (by simp) fun i hi _ => ?_
  rw [h.getElem hi, List.getElem_range, List.getElem_range]

/-- The numbers of the messages freed by a device are those from zero on: each once, in order. -/
theorem Office.Kept.freed_eq_range (h : p.Kept) (d : D) : p.freed d = List.range (p.freed d).length := by
  have hnum : (p.allocated d).zipIdx.map Prod.snd = List.range (p.allocated d).length := by
    rw [List.zipIdx_map_snd, List.range_eq_range']
  have hfreed : p.freed d <+: (p.handled d).map Prod.snd := by
    rw [h.freed d]
    exact List.prefix_append _ _
  exact eq_range_of_prefix (n := (p.allocated d).length)
    (hnum ▸ hfreed.trans (((h.handled_prefix d).trans (h.sent_prefix d)).map Prod.snd))

/-- The number of messages received is that of the messages freed, and one more if the device holds one. -/
theorem Office.Kept.length_handled (h : p.Kept) (d : D) :
    (p.handled d).length = (p.freed d).length + (p.taken d).toList.length := by
  have hlen := congrArg List.length (h.freed d)
  rw [List.length_map, List.length_append] at hlen
  rw [hlen]
  unfold Office.inUse
  cases ht : p.taken d with
  | none => rfl
  | some a =>
    obtain ⟨b, hb⟩ := Placed.exists_heap h.placed (x := some d) (a := a) (by simp [Office.held, Office.charge, ht])
    simp [hb]

/-- The number of messages in a queue is that of the addresses in it. -/
theorem Office.Kept.length_queued (h : p.Kept) (d : D) : (p.queued d).length = (p.queue d).items.length := by
  have hall : ∀ l : List Nat, (∀ a ∈ l, ∃ b, p.heap a = some b) → (l.filterMap p.heap).length = l.length := by
    intro l hl
    induction l with
    | nil => rfl
    | cons a l ih =>
      obtain ⟨b, hb⟩ := hl a (by simp)
      simp [hb, ih fun c hc => hl c (List.mem_cons_of_mem a hc)]
  exact hall _ fun a ha => Placed.exists_heap h.placed (x := some d) (List.mem_append_right _ ha)

/-- A device that holds nothing and whose queue is empty has freed all that was sent to it. -/
theorem Office.Kept.length_sent_of_idle (h : p.Kept) {d : D} (htaken : p.taken d = none) (hqueue : (p.queue d).items = []) :
    (p.sent d).length = (p.freed d).length := by
  rw [h.handled d, List.length_append, h.length_handled d, h.length_queued d, htaken, hqueue]
  rfl

omit [DecidableEq D] in
/-- A device has no more in its charge than its queue holds, and one. -/
theorem length_charge_le (p : Office D B cap) (d : D) : (p.charge d).length ≤ cap d + 1 := by
  have hq := (p.queue d).bound
  have ht : (p.taken d).toList.length ≤ 1 := by cases p.taken d <;> simp
  rw [Office.charge, List.length_append]
  omega

/-- What was sent to a device and not freed is in its charge. -/
theorem Office.Kept.length_sent_le (h : p.Kept) (d : D) : (p.sent d).length ≤ (p.freed d).length + (cap d + 1) := by
  have hcharge := length_charge_le p d
  rw [Office.charge, List.length_append] at hcharge
  rw [h.handled d, List.length_append, h.length_handled d, h.length_queued d]
  omega

/-- The addresses in use, where `ds` are the devices: that in the hand of the producer, and those in the charge of each device. -/
def Office.inUseBy (p : Office D B cap) (ds : List D) : List Nat := p.held none ++ ds.flatMap p.charge

/-- These are all, and each of them once. -/
theorem Office.Kept.inUseBy (h : p.Kept) {ds : List D} (hds : ds.Nodup) (hall : ∀ d, d ∈ ds) :
    (p.inUseBy ds).Nodup ∧ ∀ a, p.heap a ≠ none ↔ a ∈ p.inUseBy ds := by
  refine ⟨?_, ?_⟩
  · refine List.nodup_append.mpr ⟨h.placed.nodup none, ?_, ?_⟩
    · refine List.nodup_flatMap.mpr ⟨fun d _ => h.placed.nodup (some d), hds.imp ?_⟩
      intro d d' hne a ha ha'
      exact hne (Option.some_inj.mp (h.placed.apart (some d) (some d') a ha ha'))
    · rintro a ha b hb rfl
      obtain ⟨d, -, hd⟩ := List.mem_flatMap.mp hb
      exact absurd (h.placed.apart none (some d) a ha hd) (by simp)
  · intro a
    rw [h.placed.live a, Office.inUseBy, List.mem_append, List.mem_flatMap]
    constructor
    · rintro ⟨_ | d, hx⟩
      · exact Or.inl hx
      · exact Or.inr ⟨d, hall d, hx⟩
    · rintro (hx | ⟨d, -, hd⟩)
      · exact ⟨none, hx⟩
      · exact ⟨some d, hd⟩

omit [DecidableEq D] in
/-- There are no more addresses in use than the queues hold, one for each device and one for the producer. -/
theorem length_inUseBy_le (p : Office D B cap) (ds : List D) : (p.inUseBy ds).length ≤ 1 + (ds.map fun d => cap d + 1).sum := by
  have hhand : (p.held none).length ≤ 1 := by cases h : p.hand <;> simp [Office.held, h]
  have hcharge : (ds.flatMap p.charge).length ≤ (ds.map fun d => cap d + 1).sum := by
    induction ds with
    | nil => exact Nat.le_refl 0
    | cons d ds ih =>
      rw [List.flatMap_cons, List.length_append, List.map_cons, List.sum_cons]
      exact Nat.add_le_add (length_charge_le p d) ih
  rw [Office.inUseBy, List.length_append]
  exact Nat.add_le_add hhand hcharge

end Kept

end Post

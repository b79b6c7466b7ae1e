/-!
# Bounded queues

A first-in first-out queue of a fixed capacity. A send to a full queue and a receive from an empty one give nothing: the caller
waits. Nothing here names a particular queue.
-/

namespace Fifo

universe u

/-- The items of a queue, oldest first, no more than its capacity. -/
structure Queue (α : Type u) (cap : Nat) where
  items : List α
  bound : items.length ≤ cap

variable {α : Type u} {cap : Nat}

instance [DecidableEq α] : DecidableEq (Queue α cap)
  | ⟨a, _⟩, ⟨b, _⟩ => decidable_of_iff (a = b) (by rw [Queue.mk.injEq])

/-- The empty queue. -/
def Queue.empty (α : Type u) (cap : Nat) : Queue α cap := ⟨[], Nat.zero_le cap⟩

/-- A send: at the end, if there is room. -/
def Queue.send (q : Queue α cap) (a : α) : Option (Queue α cap) :=
  if h : q.items.length < cap then some ⟨q.items ++ [a], by simpa using Nat.succ_le_of_lt h⟩ else none

/-- A receive: the oldest item, and the queue without it. -/
def Queue.receive (q : Queue α cap) : Option (α × Queue α cap) :=
  match q with
  | ⟨[], _⟩ => none
  | ⟨a :: items, h⟩ => some (a, ⟨items, Nat.le_of_succ_le h⟩)

/-- The same queue, each item read as something else. -/
def Queue.map {β : Type u} (q : Queue α cap) (f : α → β) : Queue β cap :=
  ⟨q.items.map f, by simpa using q.bound⟩

/-- What a send leaves. -/
theorem Queue.items_of_send {q q' : Queue α cap} {a : α} (h : q.send a = some q') : q'.items = q.items ++ [a] := by
  unfold Queue.send at h
  split at h
  · rw [← Option.some_inj.mp h]
  · cases h

/-- A queue that is not full can be sent to. -/
theorem Queue.exists_send {q : Queue α cap} (h : q.items.length < cap) (a : α) : ∃ q' : Queue α cap, q.send a = some q' := by
  unfold Queue.send
  exact ⟨_, dif_pos h⟩

/-- What a receive takes and leaves. -/
theorem Queue.items_of_receive {q q' : Queue α cap} {a : α} (h : q.receive = some (a, q')) :
    q.items = a :: q'.items := by
  unfold Queue.receive at h
  split at h
  · cases h
  · obtain ⟨rfl, rfl⟩ := Prod.mk.inj (Option.some_inj.mp h)
    rfl

/-- A queue that is not empty can be received from. -/
theorem Queue.receive_of_items {q : Queue α cap} {a : α} {items : List α} (h : q.items = a :: items) :
    ∃ q' : Queue α cap, q.receive = some (a, q') ∧ q'.items = items := by
  obtain ⟨items', hb⟩ := q
  simp only at h
  subst h
  exact ⟨⟨items, Nat.le_of_succ_le hb⟩, rfl, rfl⟩

/-- What holds of every item holds of every item after a send of one of which it holds. -/
theorem Queue.forall_send {P : α → Prop} {q q' : Queue α cap} {a : α} (h : q.send a = some q') (hq : ∀ x ∈ q.items, P x)
    (ha : P a) : ∀ x ∈ q'.items, P x := by
  rw [items_of_send h]
  intro x hx
  rcases List.mem_append.mp hx with hx | hx
  · exact hq x hx
  · rw [List.mem_singleton.mp hx]
    exact ha

/-! ## Queues read as others -/

section Map

variable {β : Type u} (f : α → β)

@[simp] theorem Queue.map_empty : (Queue.empty α cap).map f = Queue.empty β cap := rfl

/-- Two readings that agree on the items. -/
theorem Queue.map_congr {f g : α → β} {q : Queue α cap} (h : ∀ a ∈ q.items, f a = g a) : q.map f = q.map g := by
  simp only [Queue.map, Queue.mk.injEq]
  exact List.map_congr_left h

/-- A send, read as another. -/
theorem Queue.send_map (q : Queue α cap) (a : α) : (q.map f).send (f a) = (q.send a).map fun q' => q'.map f := by
  unfold Queue.send
  by_cases hroom : q.items.length < cap
  · have hroom' : (q.map f).items.length < cap := by simpa [Queue.map] using hroom
    rw [dif_pos hroom, dif_pos hroom']
    simp [Queue.map]
  · have hroom' : ¬(q.map f).items.length < cap := by simpa [Queue.map] using hroom
    rw [dif_neg hroom, dif_neg hroom']
    rfl

/-- A receive, read as another. -/
theorem Queue.receive_map (q : Queue α cap) : (q.map f).receive = q.receive.map fun x => (f x.1, x.2.map f) := by
  obtain ⟨items, h⟩ := q
  cases items <;> rfl

end Map

end Fifo

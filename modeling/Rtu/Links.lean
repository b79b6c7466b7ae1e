import Mathlib.Data.List.Basic
import Mathlib.Logic.Function.Basic

/-!
# Linked lists in a memory

A memory gives a node at every address, and `next` reads the pointer of a node. `Path next mem p l q` says that from `p` one
follows the pointers over the nodes of `l`, in this order, and comes to `q`. Nothing here names a particular node.
-/

namespace Links

universe u v

variable {α : Type u} {ν : Type v} {next : ν → α} {mem mem' : α → ν} {p q r a : α} {l l₁ l₂ : List α}

/-- From `p` over the nodes of `l` to `q`. -/
def Path (next : ν → α) (mem : α → ν) : α → List α → α → Prop
  | p, [], q => p = q
  | p, a :: l, q => p = a ∧ Path next mem (next (mem a)) l q

@[simp] theorem path_nil : Path next mem p [] q ↔ p = q := Iff.rfl

@[simp] theorem path_cons : Path next mem p (a :: l) q ↔ p = a ∧ Path next mem (next (mem a)) l q := Iff.rfl

/-- A path in two parts. -/
theorem path_append : Path next mem p (l₁ ++ l₂) q ↔ ∃ r, Path next mem p l₁ r ∧ Path next mem r l₂ q := by
  induction l₁ generalizing p with
  | nil => simp
  | cons a l₁ ih =>
    rw [List.cons_append, path_cons, ih]
    simp only [path_cons]
    constructor
    · rintro ⟨rfl, r, h1, h2⟩
      exact ⟨r, ⟨rfl, h1⟩, h2⟩
    · rintro ⟨r, ⟨rfl, h1⟩, h2⟩
      exact ⟨rfl, r, h1, h2⟩

/-- The last node of a path points to its end. -/
theorem path_snoc : Path next mem p (l ++ [a]) q ↔ Path next mem p l a ∧ next (mem a) = q := by
  rw [path_append]
  constructor
  · rintro ⟨r, h1, rfl, h2⟩
    exact ⟨h1, h2⟩
  · rintro ⟨h1, h2⟩
    exact ⟨a, h1, rfl, h2⟩

/-- The last node, or the one that points to the path, points to its end. -/
theorem path_getLastD {it : α} (h : Path next mem (next (mem it)) l q) : next (mem (l.getLastD it)) = q := by
  induction l generalizing it with
  | nil => exact h
  | cons a l ih =>
    obtain ⟨-, h⟩ := path_cons.mp h
    rw [List.getLastD_cons]
    exact ih h

/-- A node of a path points to a node of it or to its end. -/
theorem next_of_path (h : Path next mem p l q) (ha : a ∈ l) : next (mem a) ∈ l ∨ next (mem a) = q := by
  induction l generalizing p with
  | nil => cases ha
  | cons b l ih =>
    obtain ⟨-, h⟩ := path_cons.mp h
    rcases List.mem_cons.mp ha with rfl | ha
    · cases l with
      | nil => exact Or.inr h
      | cons c l => exact Or.inl (by rw [(path_cons.mp h).1]; simp)
    · rcases ih h ha with h' | h'
      · exact Or.inl (List.mem_cons_of_mem b h')
      · exact Or.inr h'

/-- A path depends on the pointers of its nodes only. -/
theorem path_congr (h : ∀ a ∈ l, next (mem' a) = next (mem a)) : Path next mem' p l q ↔ Path next mem p l q := by
  induction l generalizing p with
  | nil => rfl
  | cons a l ih =>
    obtain ⟨ha, hrest⟩ := List.forall_mem_cons.mp h
    rw [path_cons, path_cons, ha, ih hrest]

/-- A path stays when a node that is not on it is written. -/
theorem path_update [DecidableEq α] (n : ν) (h : a ∉ l) :
    Path next (Function.update mem a n) p l q ↔ Path next mem p l q := by
  refine path_congr ?_
  intro b hb
  rw [Function.update_of_ne (ne_of_mem_of_not_mem hb h)]

/-! ## Loops -/

/-- From `e` over the nodes of `l` back to `e`. -/
def Loop (next : ν → α) (mem : α → ν) (e : α) (l : List α) : Prop := Path next mem e (e :: l) e

@[simp] theorem loop_nil {e : α} : Loop next mem e [] ↔ next (mem e) = e := by
  simp [Loop]

/-- Each node of a loop points to the one after it, the last one to the node where the loop begins. -/
theorem Loop.next_getLastD {e : α} (h : Loop next mem e (l₁ ++ l₂)) : next (mem (l₁.getLastD e)) = l₂.headD e := by
  obtain ⟨-, h⟩ := path_cons.mp h
  obtain ⟨r, h1, h2⟩ := path_append.mp h
  rw [path_getLastD h1]
  cases l₂ with
  | nil => exact path_nil.mp h2
  | cons b l₂ => exact (path_cons.mp h2).1

/-- A list of nodes behind a first one, taken apart before the last. -/
theorem cons_eq_snoc_getLastD (e : α) (l : List α) : e :: l = (e :: l).dropLast ++ [l.getLastD e] := by
  have h := (List.dropLast_append_getLast (List.cons_ne_nil e l)).symm
  rwa [List.getLast_eq_getLastD] at h

/-- A node is put behind the node `l₁.getLastD e`. -/
theorem Loop.insert {e x : α} (h : Loop next mem e (l₁ ++ l₂)) (hnodup : (e :: (l₁ ++ l₂)).Nodup)
    (hit : next (mem' (l₁.getLastD e)) = x) (hx : next (mem' x) = l₂.headD e)
    (hrest : ∀ a ∈ e :: (l₁ ++ l₂), a ≠ l₁.getLastD e → next (mem' a) = next (mem a)) : Loop next mem' e (l₁ ++ x :: l₂) := by
  have hnext := h.next_getLastD
  unfold Loop at h ⊢
  rw [← List.cons_append, cons_eq_snoc_getLastD e l₁] at h hnodup hrest ⊢
  generalize l₁.getLastD e = it at h hnodup hrest hit hnext ⊢
  generalize (e :: l₁).dropLast = p at h hnodup hrest ⊢
  simp only [List.append_assoc, List.singleton_append] at h hnodup hrest ⊢
  obtain ⟨r, h1, h2⟩ := path_append.mp h
  obtain ⟨rfl, h2⟩ := path_cons.mp h2
  have hp : ∀ a ∈ p, next (mem' a) = next (mem a) := by
    intro a ha
    refine hrest a (List.mem_append_left _ ha) ?_
    exact (List.nodup_append.mp hnodup).2.2 a ha r List.mem_cons_self
  have hl₂ : ∀ a ∈ l₂, next (mem' a) = next (mem a) := by
    intro a ha
    refine hrest a (List.mem_append_right _ (List.mem_cons_of_mem r ha)) ?_
    rintro rfl
    exact (List.nodup_cons.mp (List.nodup_append.mp hnodup).2.1).1 ha
  refine path_append.mpr ⟨r, (path_congr hp).mpr h1, path_cons.mpr ⟨rfl, path_cons.mpr ⟨hit, ?_⟩⟩⟩
  rw [hx, ← hnext]
  exact (path_congr hl₂).mpr h2

/-- The node behind the node `l₁.getLastD e` is taken out. -/
theorem Loop.remove {e x : α} (h : Loop next mem e (l₁ ++ x :: l₂)) (hnodup : (e :: (l₁ ++ x :: l₂)).Nodup)
    (hit : next (mem' (l₁.getLastD e)) = next (mem x))
    (hrest : ∀ a ∈ e :: (l₁ ++ l₂), a ≠ l₁.getLastD e → next (mem' a) = next (mem a)) : Loop next mem' e (l₁ ++ l₂) := by
  unfold Loop at h ⊢
  rw [← List.cons_append, cons_eq_snoc_getLastD e l₁] at h hnodup hrest ⊢
  generalize l₁.getLastD e = it at h hnodup hrest hit ⊢
  generalize (e :: l₁).dropLast = p at h hnodup hrest ⊢
  simp only [List.append_assoc, List.singleton_append] at h hnodup hrest ⊢
  obtain ⟨r, h1, h2⟩ := path_append.mp h
  obtain ⟨rfl, h2⟩ := path_cons.mp h2
  obtain ⟨-, h2⟩ := path_cons.mp h2
  have hp : ∀ a ∈ p, next (mem' a) = next (mem a) := by
    intro a ha
    refine hrest a (List.mem_append_left _ ha) ?_
    exact (List.nodup_append.mp hnodup).2.2 a ha r List.mem_cons_self
  have hl₂ : ∀ a ∈ l₂, next (mem' a) = next (mem a) := by
    intro a ha
    refine hrest a (List.mem_append_right _ (List.mem_cons_of_mem r ha)) ?_
    rintro rfl
    exact (List.nodup_cons.mp (List.nodup_append.mp hnodup).2.1).1 (List.mem_cons_of_mem x ha)
  refine path_append.mpr ⟨r, (path_congr hp).mpr h1, path_cons.mpr ⟨rfl, ?_⟩⟩
  rw [hit]
  exact (path_congr hl₂).mpr h2

/-- A loop depends on the pointers of its nodes only. -/
theorem Loop.congr {e : α} (h : Loop next mem e l) (heq : ∀ a ∈ e :: l, next (mem' a) = next (mem a)) :
    Loop next mem' e l :=
  (path_congr heq).mpr h

end Links

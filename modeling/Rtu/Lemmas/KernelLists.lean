import Rtu.KernelLists

/-!
# The lists of the kernel, by what they mean

An item is in one list at most and knows which: `Coherent`. Every call that is legal keeps this.
-/

namespace Rtu

open Rosters

variable {ι κ : Type} {a : KernelLists ι κ} {i : ι} {l : κ} {l₁ l₂ : List ι}

/-- An item knows the list that it is in, and is there once. -/
structure KernelLists.Coherent (a : KernelLists ι κ) : Prop where
  member : ∀ i l, a.container i = some l ↔ i ∈ a.items l
  nodup : ∀ l, (a.items l).Nodup
  bounded : ∀ i, a.value i ≤ portMAX_DELAY

/-- The item that a call is about. -/
def ListCall.item : ListCall ι κ → Option ι
  | .setValue i _ => some i
  | .insertEnd _ i => some i
  | .insert _ i => some i
  | .remove i => some i
  | .next _ => none

namespace KernelLists

theorem coherent_initial {value : ι → Nat} (hvalue : ∀ i, value i ≤ portMAX_DELAY) :
    (initial value : KernelLists ι κ).Coherent := by
  refine ⟨?_, ?_, hvalue⟩
  · intro i l
    simp [initial, items]
  · intro l
    simp [initial, items]

theorem Coherent.notMem (h : a.Coherent) (hi : a.container i = none) (l : κ) : i ∉ a.items l := by
  intro hmem
  have := (h.member i l).mpr hmem
  rw [hi] at this
  cases this

/-- An item is in one list at most. -/
theorem Coherent.unique (h : a.Coherent) {l' : κ} (hl : i ∈ a.items l) (hl' : i ∈ a.items l') : l = l' := by
  have h1 := (h.member i l).mpr hl
  have h2 := (h.member i l').mpr hl'
  exact Option.some.inj (h1.symm.trans h2)

variable [DecidableEq ι] [DecidableEq κ]

theorem items_join (a : KernelLists ι κ) (l : κ) (i : ι) (r : Roster ι) (l' : κ) :
    (a.join l i r).items l' = if l' = l then r.items else a.items l' := by
  by_cases hl : l' = l
  · subst hl
    simp [join, items]
  · simp [join, items, hl]

theorem Coherent.join (h : a.Coherent) (hi : a.container i = none) (hsplit : a.items l = l₁ ++ l₂) {r : Roster ι}
    (hr : r.items = l₁ ++ i :: l₂) : (a.join l i r).Coherent := by
  refine ⟨?_, ?_, h.bounded⟩
  · intro j l'
    rw [items_join]
    by_cases hj : j = i
    · subst hj
      by_cases hl : l' = l
      · subst hl
        simp [KernelLists.join, hr]
      · simp [KernelLists.join, hl, Ne.symm hl, h.notMem hi l']
    · have hmember := h.member j l'
      by_cases hl : l' = l
      · subst hl
        rw [hsplit] at hmember
        simpa [KernelLists.join, hr, hj] using hmember
      · simpa [KernelLists.join, hj, hl] using hmember
  · intro l'
    rw [items_join]
    split
    · have hnodup := h.nodup l
      have hout := h.notMem hi l
      rw [hsplit] at hnodup hout
      rw [hr, List.nodup_middle]
      exact List.nodup_cons.mpr ⟨hout, hnodup⟩
    · exact h.nodup l'

theorem items_remove (h : a.Coherent) (hl : a.container i = some l) (l' : κ) :
    (a.remove i).items l' = if l' = l then (a.items l).erase i else a.items l' := by
  by_cases hl' : l' = l
  · subst hl'
    simp [remove, hl, items, Roster.remove_items (h.nodup l')]
  · simp [remove, hl, items, hl']

theorem Coherent.remove (h : a.Coherent) (i : ι) : (a.remove i).Coherent := by
  cases hl : a.container i with
  | none =>
    rw [KernelLists.remove, hl]
    exact h
  | some l =>
    have hcontainer : (a.remove i).container = Function.update a.container i none := by
      simp [KernelLists.remove, hl]
    refine ⟨?_, ?_, ?_⟩
    · intro j l'
      rw [items_remove h hl, hcontainer]
      by_cases hj : j = i
      · subst hj
        by_cases hl' : l' = l
        · subst hl'
          simp [(h.nodup l').not_mem_erase]
        · have hout : j ∉ a.items l' := fun hmem => hl' (h.unique hmem ((h.member j l).mp hl))
          simp [hl', hout]
      · by_cases hl' : l' = l
        · subst hl'
          simpa [hj, List.mem_erase_of_ne hj] using h.member j l'
        · simpa [hj, hl'] using h.member j l'
    · intro l'
      rw [items_remove h hl]
      split
      · exact (h.nodup l).erase i
      · exact h.nodup l'
    · simpa [KernelLists.remove, hl] using h.bounded

omit [DecidableEq ι] in
theorem items_next (a : KernelLists ι κ) (l l' : κ) : (a.next l).items l' = a.items l' := by
  by_cases hl : l' = l
  · subst hl
    simp [next, items, Roster.next_items]
  · simp [next, items, hl]

omit [DecidableEq ι] in
theorem Coherent.next (h : a.Coherent) (l : κ) : (a.next l).Coherent := by
  refine ⟨?_, ?_, h.bounded⟩
  · intro i l'
    rw [items_next]
    exact h.member i l'
  · intro l'
    rw [items_next]
    exact h.nodup l'

omit [DecidableEq κ] in
theorem Coherent.setValue (h : a.Coherent) (i : ι) {xValue : Nat} (hvalue : xValue ≤ portMAX_DELAY) :
    (a.setValue i xValue).Coherent := by
  refine ⟨h.member, h.nodup, ?_⟩
  intro j
  by_cases hj : j = i
  · subst hj
    simpa [KernelLists.setValue] using hvalue
  · simpa [KernelLists.setValue, hj] using h.bounded j

theorem Coherent.insertEnd (h : a.Coherent) (hi : a.container i = none) (l : κ) : (a.insertEnd l i).Coherent := by
  obtain ⟨l₁, l₂, hsplit, hpush, -⟩ := Roster.push_items i (a.roster l)
  exact h.join hi hsplit hpush

theorem Coherent.insert (h : a.Coherent) (hi : a.container i = none) (l : κ) : (a.insert l i).Coherent :=
  h.join hi List.takeWhile_append_dropWhile.symm (Roster.place_items _ i _)

/-- A legal call keeps the lists coherent. -/
theorem Coherent.call (h : a.Coherent) {c : ListCall ι κ} (hlegal : a.Legal c) : (a.call c).Coherent := by
  cases c with
  | setValue i xValue => exact h.setValue i hlegal
  | insertEnd l i => exact h.insertEnd hlegal l
  | insert l i => exact h.insert hlegal l
  | remove i => exact h.remove i
  | next l => exact h.next l

/-! ## What a call changes -/

section Frames

variable (a : KernelLists ι κ) (l l' : κ) (i : ι)

omit [DecidableEq κ] in
@[simp] theorem container_setValue (xValue : Nat) : (a.setValue i xValue).container = a.container := rfl

omit [DecidableEq κ] in
@[simp] theorem value_setValue (xValue : Nat) : (a.setValue i xValue).value = Function.update a.value i xValue := rfl

omit [DecidableEq κ] in
@[simp] theorem items_setValue (xValue : Nat) : (a.setValue i xValue).items l = a.items l := rfl

@[simp] theorem container_insertEnd : (a.insertEnd l i).container = Function.update a.container i (some l) := rfl

@[simp] theorem value_insertEnd : (a.insertEnd l i).value = a.value := rfl

@[simp] theorem container_insert : (a.insert l i).container = Function.update a.container i (some l) := rfl

@[simp] theorem value_insert : (a.insert l i).value = a.value := rfl

@[simp] theorem container_remove : (a.remove i).container = Function.update a.container i none := by
  unfold remove
  split
  · rename_i h
    exact (Function.update_eq_self_iff.mpr h.symm).symm
  · rfl

@[simp] theorem value_remove : (a.remove i).value = a.value := by
  unfold remove
  split <;> rfl

omit [DecidableEq ι] in
@[simp] theorem container_next : (a.next l).container = a.container := rfl

omit [DecidableEq ι] in
@[simp] theorem value_next : (a.next l).value = a.value := rfl

variable {a l l'}

theorem items_insertEnd_of_ne (h : l' ≠ l) : (a.insertEnd l i).items l' = a.items l' := by
  simp [insertEnd, items_join, h]

theorem items_insert_of_ne (h : l' ≠ l) : (a.insert l i).items l' = a.items l' := by
  simp [insert, items_join, h]

/-- Items leave a list and the others stay in order. -/
theorem items_remove_sublist (h : a.Coherent) (l : κ) : ((a.remove i).items l).Sublist (a.items l) := by
  cases hl : a.container i with
  | none =>
    rw [remove, hl]
  | some l' =>
    rw [items_remove h hl]
    split
    · rename_i heq
      rw [heq]
      exact List.erase_sublist
    · exact List.Sublist.refl _

/-- A list is empty when its last item is taken out. -/
theorem items_remove_eq_nil (h : a.Coherent) :
    (a.remove i).items l = [] ↔ ∀ j, j ≠ i → a.container j ≠ some l := by
  rw [List.eq_nil_iff_forall_not_mem]
  refine forall_congr' fun j => ?_
  rw [← (h.remove i).member, container_remove]
  by_cases hj : j = i
  · subst hj
    simp
  · simp [hj]

end Frames

/-- A list is in the order of its values when an item is put in by its value. -/
theorem sorted_insert (hsorted : (a.items l).Pairwise fun x y => a.value x ≤ a.value y) (i : ι) :
    ((a.insert l i).items l).Pairwise fun x y => a.value x ≤ a.value y := by
  rw [insert, items_join, if_pos rfl, Roster.place_items]
  have hsplit : (a.roster l).items = (a.roster l).items.takeWhile (fun j => a.value j ≤ a.value i) ++
      (a.roster l).items.dropWhile fun j => a.value j ≤ a.value i := List.takeWhile_append_dropWhile.symm
  have hdrop := List.head?_dropWhile_not (fun j => decide (a.value j ≤ a.value i)) (a.roster l).items
  rw [items, hsplit] at hsorted
  obtain ⟨h₁, h₂, h₁₂⟩ := List.pairwise_append.mp hsorted
  have hbefore : ∀ x ∈ (a.roster l).items.takeWhile (fun j => a.value j ≤ a.value i), a.value x ≤ a.value i := by
    intro x hx
    simpa using List.mem_takeWhile_imp hx
  have hbehind : ∀ y ∈ (a.roster l).items.dropWhile (fun j => a.value j ≤ a.value i), a.value i ≤ a.value y := by
    intro y hy
    cases hcase : (a.roster l).items.dropWhile (fun j => a.value j ≤ a.value i) with
    | nil =>
      rw [hcase] at hy
      cases hy
    | cons z rest =>
      rw [hcase] at hy hdrop h₂
      have hz : a.value i < a.value z := by simpa using hdrop
      rcases List.mem_cons.mp hy with rfl | hy
      · exact Nat.le_of_lt hz
      · exact Nat.le_trans (Nat.le_of_lt hz) ((List.pairwise_cons.mp h₂).1 y hy)
  refine List.pairwise_append.mpr ⟨h₁, List.pairwise_cons.mpr ⟨hbehind, h₂⟩, ?_⟩
  intro x hx y hy
  rcases List.mem_cons.mp hy with rfl | hy
  · exact hbefore x hx
  · exact h₁₂ x hx y hy

/-- The others stay in order when an item is put in by its value. -/
theorem items_sublist_insert (a : KernelLists ι κ) (l : κ) (i : ι) : (a.items l).Sublist ((a.insert l i).items l) := by
  rw [insert, items_join, if_pos rfl, Roster.place_items]
  have hsplit : (a.roster l).items.takeWhile (fun j => a.value j ≤ a.value i) ++
      (a.roster l).items.dropWhile (fun j => a.value j ≤ a.value i) = a.items l := List.takeWhile_append_dropWhile
  rw [← hsplit]
  exact (List.Sublist.refl _).append (List.sublist_cons_self _ _)

/-- An item that is put in by its value comes behind those of no greater value. -/
theorem pair_sublist_insert (hsorted : (a.items l).Pairwise fun x y => a.value x ≤ a.value y) {j : ι} (hj : j ∈ a.items l)
    (hle : a.value j ≤ a.value i) : [j, i].Sublist ((a.insert l i).items l) := by
  rw [insert, items_join, if_pos rfl, Roster.place_items]
  have hsplit : a.items l = (a.roster l).items.takeWhile (fun j => a.value j ≤ a.value i) ++
      (a.roster l).items.dropWhile (fun j => a.value j ≤ a.value i) := List.takeWhile_append_dropWhile.symm
  have hdrop := List.head?_dropWhile_not (fun j => decide (a.value j ≤ a.value i)) (a.roster l).items
  rw [hsplit] at hsorted hj
  have hbefore : j ∈ (a.roster l).items.takeWhile (fun j => a.value j ≤ a.value i) := by
    refine (List.mem_append.mp hj).resolve_right fun hbehind => ?_
    obtain ⟨-, h₂, -⟩ := List.pairwise_append.mp hsorted
    cases hcase : (a.roster l).items.dropWhile (fun j => a.value j ≤ a.value i) with
    | nil =>
      rw [hcase] at hbehind
      cases hbehind
    | cons z rest =>
      rw [hcase] at hbehind hdrop h₂
      have hz : a.value i < a.value z := by simpa using hdrop
      rcases List.mem_cons.mp hbehind with rfl | hbehind
      · exact Nat.not_lt_of_le hle hz
      · exact Nat.not_lt_of_le (Nat.le_trans ((List.pairwise_cons.mp h₂).1 j hbehind) hle) hz
  exact List.Sublist.append (List.singleton_sublist.mpr hbefore) (List.singleton_sublist.mpr List.mem_cons_self)

omit [DecidableEq κ] in
/-- The value of an item that is in no list does not matter to the order of a list. -/
theorem Coherent.sorted_setValue (h : a.Coherent) (hi : a.container i = none) (xValue : Nat)
    (hsorted : (a.items l).Pairwise fun x y => a.value x ≤ a.value y) :
    ((a.setValue i xValue).items l).Pairwise fun x y => (a.setValue i xValue).value x ≤ (a.setValue i xValue).value y := by
  have hne : ∀ x ∈ a.items l, x ≠ i := by
    rintro x hx rfl
    exact h.notMem hi l hx
  refine hsorted.imp_of_mem ?_
  intro x y hx hy hle
  rwa [value_setValue, Function.update_of_ne (hne x hx), Function.update_of_ne (hne y hy)]

/-- A legal call that gives a value only to an item of no list, and so leaves every list in the order of the values. -/
def Tidy (a : KernelLists ι κ) : ListCall ι κ → Prop
  | .setValue i xValue => a.container i = none ∧ xValue ≤ portMAX_DELAY
  | c => a.Legal c

omit [DecidableEq ι] [DecidableEq κ] in
theorem Tidy.legal {c : ListCall ι κ} (h : a.Tidy c) : a.Legal c := by
  cases c with
  | setValue i xValue => exact h.2
  | _ => exact h

/-! ## Runs of calls -/

theorem calls_append (a : KernelLists ι κ) (cs ds : List (ListCall ι κ)) : a.calls (cs ++ ds) = (a.calls cs).calls ds :=
  List.foldl_append

theorem eachCall_append {P : KernelLists ι κ → ListCall ι κ → Prop} {cs ds : List (ListCall ι κ)} :
    a.EachCall P (cs ++ ds) ↔ a.EachCall P cs ∧ (a.calls cs).EachCall P ds := by
  induction cs generalizing a with
  | nil => simp [EachCall, calls]
  | cons c cs ih => simp [EachCall, calls, ih, and_assoc]

theorem EachCall.imp {P Q : KernelLists ι κ → ListCall ι κ → Prop} (himp : ∀ a c, P a c → Q a c) {cs : List (ListCall ι κ)}
    (h : a.EachCall P cs) : a.EachCall Q cs := by
  induction cs generalizing a with
  | nil => trivial
  | cons c cs ih => exact ⟨himp a c h.1, ih h.2⟩

/-- Legal calls keep the lists coherent. -/
theorem Coherent.calls (h : a.Coherent) {cs : List (ListCall ι κ)} (hlegal : a.LegalCalls cs) : (a.calls cs).Coherent := by
  induction cs generalizing a with
  | nil => exact h
  | cons c cs ih => exact ih (h.call hlegal.1) hlegal.2

end KernelLists

end Rtu

import Rtu.XQueue

/-!
# Helpers for queues: the items that the bytes are

`Stores S q items` says that the storage area of a queue holds these items, first to last, and that the pointers and the count fit
them. Each function of `XQueue` is one operation on the list.
-/

namespace Rtu

variable {uxLength uxItemSize : Nat} {S : Storage uxLength uxItemSize} {q : XQueue} {mem : Nat → UInt8}
  {items : List (Vector UInt8 uxItemSize)} {x : Vector UInt8 uxItemSize}

/-- The address of a cell. -/
def Storage.cellAddr (S : Storage uxLength uxItemSize) (k : Nat) : Nat := S.pcHead + k * uxItemSize

/-- What a cell holds. -/
def Storage.cells (S : Storage uxLength uxItemSize) (mem : Nat → UInt8) (k : Nat) : Vector UInt8 uxItemSize :=
  bytesAt mem (S.cellAddr k) uxItemSize

/-- Whether an address is in the storage area. -/
def Storage.Covers (S : Storage uxLength uxItemSize) (a : Nat) : Prop := S.pcHead ≤ a ∧ a < S.pcHead + uxLength * uxItemSize

/-- The queue holds these items. -/
structure Stores (S : Storage uxLength uxItemSize) (q : XQueue) (items : List (Vector UInt8 uxItemSize)) : Prop where
  pcTail : q.pcTail = S.pcHead + uxLength * uxItemSize
  uxMessagesWaiting : q.uxMessagesWaiting = items.length
  ring : ∃ r < uxLength, q.pcReadFrom = S.cellAddr r ∧ q.pcWriteTo = S.cellAddr (Ring.place uxLength r items.length) ∧
    Ring.Holds uxLength (S.cells q.mem) r items

theorem Stores.length_le (h : Stores S q items) : items.length ≤ uxLength :=
  h.ring.elim fun _ hr => hr.2.2.2.fits

/-! ## Cells -/

/-- What was copied to an address is read there. -/
theorem bytesAt_memcpy (dst : Nat) : bytesAt (memcpy mem dst x) dst uxItemSize = x := by
  ext j hj
  simp [bytesAt, memcpy]

/-- Away from it, what was there before. -/
theorem bytesAt_memcpy_of_apart {dst src : Nat} (h : src + uxItemSize ≤ dst ∨ dst + uxItemSize ≤ src) :
    bytesAt (memcpy mem dst x) src uxItemSize = bytesAt mem src uxItemSize := by
  ext j hj
  have hnot : ¬(dst ≤ src + j ∧ src + j < dst + uxItemSize) := by omega
  simp [bytesAt, memcpy, hnot]

/-- Two cells do not overlap. -/
theorem Storage.cellAddr_apart (S : Storage uxLength uxItemSize) {j k : Nat} (h : j ≠ k) :
    S.cellAddr k + uxItemSize ≤ S.cellAddr j ∨ S.cellAddr j + uxItemSize ≤ S.cellAddr k := by
  have hle : ∀ {a b : Nat}, a < b → S.cellAddr a + uxItemSize ≤ S.cellAddr b := by
    intro a b hab
    have := Nat.mul_le_mul_right uxItemSize (Nat.succ_le_of_lt hab)
    rw [Nat.succ_mul] at this
    unfold Storage.cellAddr
    omega
  rcases Nat.lt_or_gt_of_ne h with hlt | hgt
  · exact Or.inr (hle hlt)
  · exact Or.inl (hle hgt)

/-- An item copied to a cell. -/
theorem cells_memcpy (k : Nat) : S.cells (memcpy mem (S.cellAddr k) x) = Function.update (S.cells mem) k x := by
  funext j
  by_cases hj : j = k
  · subst hj
    rw [Function.update_self, Storage.cells, bytesAt_memcpy]
  · rw [Function.update_of_ne hj, Storage.cells, bytesAt_memcpy_of_apart (S.cellAddr_apart (Ne.symm hj)), Storage.cells]

/-- A copy to a cell writes nothing outside the storage area. -/
theorem memcpy_of_not_covers {k a : Nat} (hk : k < uxLength) (ha : ¬S.Covers a) : memcpy mem (S.cellAddr k) x a = mem a := by
  have hle := Nat.mul_le_mul_right uxItemSize (Nat.succ_le_of_lt hk)
  rw [Nat.succ_mul] at hle
  have hnot : ¬(S.cellAddr k ≤ a ∧ a < S.cellAddr k + uxItemSize) := by
    unfold Storage.cellAddr
    unfold Storage.Covers at ha
    omega
  exact dif_neg hnot

/-- The pointer behind a cell, put back to the start at the end of the area. -/
theorem Storage.cellAddr_next (S : Storage uxLength uxItemSize) (hsize : 0 < uxItemSize) {r : Nat} (hr : r < uxLength) :
    (if S.cellAddr r + uxItemSize ≥ S.pcHead + uxLength * uxItemSize then S.pcHead else S.cellAddr r + uxItemSize) =
      S.cellAddr (Ring.next uxLength r) := by
  have hsucc : S.cellAddr r + uxItemSize = S.cellAddr (r + 1) := by
    unfold Storage.cellAddr
    rw [Nat.succ_mul, Nat.add_assoc]
  have hiff : S.cellAddr (r + 1) ≥ S.pcHead + uxLength * uxItemSize ↔ r + 1 ≥ uxLength := by
    unfold Storage.cellAddr
    rw [ge_iff_le, Nat.add_le_add_iff_left, Nat.mul_le_mul_right_iff hsize]
  rw [hsucc, Ring.next_eq hr]
  simp only [hiff]
  split
  · simp [Storage.cellAddr]
  · rfl

/-- The pointer before a cell, put to the last cell at the start of the area. -/
theorem Storage.cellAddr_prev (S : Storage uxLength uxItemSize) (hsize : 0 < uxItemSize) (r : Nat) :
    (if S.cellAddr r - uxItemSize < S.pcHead then S.pcHead + uxLength * uxItemSize - uxItemSize
      else S.cellAddr r - uxItemSize) = S.cellAddr (Ring.prev uxLength r) := by
  unfold Ring.prev Storage.cellAddr
  have hlt := S.uxItemSize_lt
  have hlen := S.uxLength_pos
  cases r with
  | zero =>
    have hle := Nat.mul_le_mul_right uxItemSize (Nat.succ_le_of_lt hlen)
    rw [if_pos (by omega), if_pos rfl, Nat.sub_mul]
    omega
  | succ r =>
    rw [Nat.succ_mul, if_neg (by omega), if_neg (Nat.succ_ne_zero r), Nat.add_sub_cancel]
    omega

/-- Items without bytes are all the same. -/
theorem cells_eq_of_size_zero (hsize : uxItemSize = 0) (c c' : Nat → Vector UInt8 uxItemSize) : c = c' := by
  subst hsize
  funext k
  ext j hj
  exact absurd hj (Nat.not_lt_zero j)

theorem Storage.cellAddr_of_size_zero (S : Storage uxLength uxItemSize) (hsize : uxItemSize = 0) (j k : Nat) :
    S.cellAddr j = S.cellAddr k := by
  subst hsize
  rfl

/-! ## One operation at a time -/

/-- A new queue is empty. -/
theorem stores_reset (S : Storage uxLength uxItemSize) (mem : Nat → UInt8) : Stores S (xQueueGenericReset S mem) [] where
  pcTail := rfl
  uxMessagesWaiting := rfl
  ring := by
    have hlen := S.uxLength_pos
    refine ⟨uxLength - 1, by omega, rfl, ?_, .nil⟩
    rw [List.length_nil, Ring.place_zero, Ring.next, show uxLength - 1 + 1 = uxLength by omega, Nat.mod_self]
    simp [xQueueGenericReset, Storage.cellAddr]

/-- A copy to the back puts the item behind the last. -/
theorem Stores.copyToBack (h : Stores S q items) (hroom : items.length < uxLength) :
    Stores S (prvCopyDataToQueue S q x .queueSEND_TO_BACK) (items ++ [x]) := by
  obtain ⟨htail, hcount, r, hr, hread, hwrite, hring⟩ := h
  have hback := hring.back (x := x) hroom
  have hplace : Ring.next uxLength (Ring.place uxLength r items.length) = Ring.place uxLength r (items ++ [x]).length := by
    rw [List.length_append, List.length_singleton, Ring.next, Ring.place, Ring.place, Nat.mod_add_mod, Nat.add_assoc]
  unfold prvCopyDataToQueue
  split
  next hsize =>
    refine ⟨htail, by simp [hcount], r, hr, hread, ?_, ?_⟩
    · exact hwrite.trans (S.cellAddr_of_size_zero hsize _ _)
    · rwa [cells_eq_of_size_zero hsize (S.cells _)]
  next hsize =>
    rw [if_pos rfl]
    refine ⟨htail, by simp [hcount], r, hr, hread, ?_, ?_⟩
    · simp only [hwrite, htail]
      rw [S.cellAddr_next (Nat.pos_of_ne_zero hsize) (Ring.place_lt S.uxLength_pos _), hplace]
    · simp only [hwrite, cells_memcpy]
      exact hback

/-- A copy to the front puts it before the first. -/
theorem Stores.copyToFront (h : Stores S q items) (hroom : items.length < uxLength) :
    Stores S (prvCopyDataToQueue S q x .queueSEND_TO_FRONT) (x :: items) := by
  obtain ⟨htail, hcount, r, hr, hread, hwrite, hring⟩ := h
  have hfront := hring.front (x := x) hr hroom
  have hplace : Ring.place uxLength r items.length = Ring.place uxLength (Ring.prev uxLength r) (x :: items).length :=
    (Ring.place_prev_succ hr items.length).symm
  unfold prvCopyDataToQueue
  split
  next hsize =>
    refine ⟨htail, by simp [hcount], Ring.prev uxLength r, Ring.prev_lt hr, ?_, ?_, ?_⟩
    · exact hread.trans (S.cellAddr_of_size_zero hsize _ _)
    · exact hwrite.trans (S.cellAddr_of_size_zero hsize _ _)
    · rwa [cells_eq_of_size_zero hsize (S.cells _)]
  next hsize =>
    rw [if_neg (by decide)]
    refine ⟨htail, by simp [hcount], Ring.prev uxLength r, Ring.prev_lt hr, ?_, ?_, ?_⟩
    · simp only [hread, htail]
      exact S.cellAddr_prev (Nat.pos_of_ne_zero hsize) r
    · simp only [hwrite, hplace]
    · simp only [hread, cells_memcpy]
      exact hfront

/-- In a queue of one item, an overwriting copy puts the item in the place of the one there was, if there was one. -/
theorem Stores.overwrite (h : Stores S q items) (hone : uxLength = 1) (hsize : uxItemSize ≠ 0) :
    Stores S (prvCopyDataToQueue S q x .queueOVERWRITE) [x] := by
  have hle := h.length_le
  obtain ⟨htail, hcount, r, hr, hread, hwrite, hring⟩ := h
  have hnil : Ring.Holds uxLength (S.cells q.mem) r [] := .nil
  have hfront := hnil.front (x := x) hr S.uxLength_pos
  have hzero : ∀ i, Ring.place uxLength r i = 0 := by
    intro i
    have := Ring.place_lt (r := r) S.uxLength_pos i
    omega
  have hprev : Ring.prev uxLength r = r := by
    have := Ring.prev_lt hr
    omega
  have hone' : ∀ i, Ring.place uxLength (Ring.prev uxLength r) i = 0 := by rwa [hprev]
  unfold prvCopyDataToQueue
  rw [if_neg hsize, if_neg (by decide)]
  refine ⟨htail, ?_, Ring.prev uxLength r, Ring.prev_lt hr, ?_, ?_, ?_⟩
  · simp only [hcount, List.length_singleton, true_and]
    split <;> omega
  · simp only [hread, htail]
    exact S.cellAddr_prev (Nat.pos_of_ne_zero hsize) r
  · simp only [hwrite, hzero, hone']
  · simp only [hread, cells_memcpy]
    exact hfront

/-- A copy from the queue gives the first item. -/
theorem Stores.copyFrom_fst (h : Stores S q (x :: items)) : (prvCopyDataFromQueue S q).1 = x := by
  obtain ⟨htail, -, r, hr, hread, -, hring⟩ := h
  unfold prvCopyDataFromQueue
  split
  next hsize =>
    simp only [hread, htail]
    rw [S.cellAddr_next (Nat.pos_of_ne_zero hsize) hr]
    exact hring.head
  next hsize =>
    have hzero : uxItemSize = 0 := not_not.mp hsize
    exact congrFun (cells_eq_of_size_zero hzero (fun _ => _) (fun _ => x)) 0

/-- It stays in the queue until the count is lowered. -/
theorem Stores.copyFrom_snd (h : Stores S q (x :: items)) :
    Stores S { (prvCopyDataFromQueue S q).2 with uxMessagesWaiting := q.uxMessagesWaiting - 1 } items := by
  obtain ⟨htail, hcount, r, hr, hread, hwrite, hring⟩ := h
  have hplace : Ring.place uxLength r (x :: items).length = Ring.place uxLength (Ring.next uxLength r) items.length :=
    (Ring.place_next items.length).symm
  unfold prvCopyDataFromQueue
  split
  next hsize =>
    refine ⟨htail, by simp [hcount], Ring.next uxLength r, Ring.next_lt S.uxLength_pos, ?_, ?_, hring.tail⟩
    · simp only [hread, htail]
      exact S.cellAddr_next (Nat.pos_of_ne_zero hsize) hr
    · simp only [hwrite, hplace]
  next hsize =>
    have hzero : uxItemSize = 0 := not_not.mp hsize
    refine ⟨htail, by simp [hcount], Ring.next uxLength r, Ring.next_lt S.uxLength_pos, ?_, ?_, hring.tail⟩
    · exact hread.trans (S.cellAddr_of_size_zero hzero _ _)
    · exact hwrite.trans (S.cellAddr_of_size_zero hzero _ _)

/-! ## Nothing outside the area is written -/

theorem Stores.copyTo_frame (h : Stores S q items) (xPosition : CopyPosition) {a : Nat} (ha : ¬S.Covers a) :
    (prvCopyDataToQueue S q x xPosition).mem a = q.mem a := by
  obtain ⟨-, -, r, hr, hread, hwrite, -⟩ := h
  unfold prvCopyDataToQueue
  split
  · rfl
  · split
    · simp only [hwrite]
      exact memcpy_of_not_covers (Ring.place_lt S.uxLength_pos _) ha
    · simp only [hread]
      exact memcpy_of_not_covers hr ha

theorem copyFrom_mem (S : Storage uxLength uxItemSize) (q : XQueue) : (prvCopyDataFromQueue S q).2.mem = q.mem := by
  unfold prvCopyDataFromQueue
  split <;> rfl

end Rtu

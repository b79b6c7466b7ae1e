import Mathlib.Data.Nat.Bitwise
import Mathlib.Tactic.IntervalCases
import Mathlib.Tactic.Common
import Rtu.Heap4

/-!
# The heap, as blocks of an interval

`Heap4.Represents` connects the memory with a list of blocks: the free ones are linked, the others are marked. The operations
are `Tiling.take` and `Tiling.give`.
-/

namespace Rtu

/-! ## Words -/

theorem and_alignmentMask (x : Nat) : x &&& portBYTE_ALIGNMENT_MASK = x % 8 := Nat.and_two_pow_sub_one_eq_mod x 3

theorem andNot_alignmentMask {x : Nat} (h : x < 2 ^ 32) : andNot x portBYTE_ALIGNMENT_MASK = x / 8 * 8 := by
  unfold andNot portBYTE_ALIGNMENT_MASK
  have hmask : 2 ^ 32 - 1 - 7 = (2 ^ 29 - 1) <<< 3 := by decide
  have hx : x / 8 * 8 = (x >>> 3) <<< 3 := by rw [Nat.shiftRight_eq_div_pow, Nat.shiftLeft_eq]
  rw [hmask, hx]
  refine Nat.eq_of_testBit_eq ?_
  intro i
  rw [Nat.testBit_and, Nat.testBit_shiftLeft, Nat.testBit_shiftLeft, Nat.testBit_two_pow_sub_one, Nat.testBit_shiftRight]
  by_cases hi : 3 ≤ i
  · rw [Nat.add_sub_cancel' hi]
    by_cases hi' : i < 32
    · have : i - 3 < 29 := by omega
      simp [hi, this]
    · have : x.testBit i = false := Nat.testBit_lt_two_pow (h.trans_le (Nat.pow_le_pow_right (by decide) (by omega)))
      simp [this]
  · simp [hi]

theorem and_allocatedBit {x : Nat} (h : x < 2 ^ 31) : x &&& (1 <<< 31) = 0 := by
  refine Nat.eq_of_testBit_eq ?_
  intro i
  rw [Nat.testBit_and, Nat.one_shiftLeft, Nat.testBit_two_pow, Nat.zero_testBit]
  by_cases hi : 31 = i
  · subst hi
    rw [Nat.testBit_lt_two_pow h, Bool.false_and]
  · simp [hi]

theorem or_allocatedBit {x : Nat} (h : x < 2 ^ 31) : x ||| (1 <<< 31) = 2 ^ 31 + x := by
  rw [Nat.one_shiftLeft, Nat.or_comm]
  exact (Nat.two_pow_add_eq_or_of_lt h 1).symm ▸ by simp

theorem and_allocatedBit_eq_zero {x : Nat} (h : x < 2 ^ 32) : x &&& (1 <<< 31) = 0 ↔ x < 2 ^ 31 := by
  refine ⟨?_, and_allocatedBit⟩
  intro hx
  by_contra hlt
  have hbit : (x &&& (1 <<< 31)).testBit 31 = true := by
    rw [Nat.testBit_and, Nat.one_shiftLeft, Nat.testBit_two_pow_self, Bool.and_true, Nat.testBit_eq_decide_div_mod_eq,
      decide_eq_true_iff]
    omega
  rw [hx, Nat.zero_testBit] at hbit
  cases hbit

/-- The mark of a block that is allocated can be read. -/
theorem marked_and {x : Nat} (h : x < 2 ^ 31) : (x ||| (1 <<< 31)) &&& (1 <<< 31) ≠ 0 := by
  rw [Ne, and_allocatedBit_eq_zero (by rw [or_allocatedBit h]; omega), or_allocatedBit h]
  omega

/-- And taken away again. -/
theorem marked_andNot {x : Nat} (h : x < 2 ^ 31) : andNot (x ||| (1 <<< 31)) (1 <<< 31) = x := by
  have hmask : 2 ^ 32 - 1 - 1 <<< 31 = 2 ^ 31 - 1 := by decide
  rw [andNot, hmask, Nat.and_two_pow_sub_one_eq_mod, or_allocatedBit h, Nat.add_mod_left, Nat.mod_eq_of_lt h]

theorem xHeapStructSize_eq : xHeapStructSize = 8 := by decide

theorem heapMINIMUM_BLOCK_SIZE_eq : heapMINIMUM_BLOCK_SIZE = 16 := by decide

theorem wantedSize_zero : wantedSize 0 = 0 := rfl

/-- The size that is looked for. -/
theorem wantedSize_eq {n : Nat} (h : 0 < n) : wantedSize n = (n + 15) / 8 * 8 := by
  unfold wantedSize
  rw [if_pos h, xHeapStructSize_eq]
  simp only [and_alignmentMask, portBYTE_ALIGNMENT]
  split <;> omega

/-! ## Where the heap lies -/

namespace Layout

variable (L : Layout)

theorem pucAlignedHeap_eq : L.pucAlignedHeap = (L.ucHeap + 7) / 8 * 8 := by
  have hend := L.ucHeap_end
  unfold configTOTAL_HEAP_SIZE at hend
  unfold pucAlignedHeap portBYTE_ALIGNMENT
  rw [and_alignmentMask]
  split
  · rw [andNot_alignmentMask (by omega)]
  · omega

theorem endAddress_eq : L.endAddress = (L.ucHeap + configTOTAL_HEAP_SIZE - 8) / 8 * 8 := by
  have hend := L.ucHeap_end
  have hp := L.pucAlignedHeap_eq
  unfold endAddress xTotalHeapSize
  rw [xHeapStructSize_eq]
  unfold configTOTAL_HEAP_SIZE at *
  rw [andNot_alignmentMask (by omega)]
  omega

/-- What the rest of the module needs to know of the two addresses. -/
theorem bounds :
    0 < L.pucAlignedHeap ∧ L.ucHeap ≤ L.pucAlignedHeap ∧ 8 ∣ L.pucAlignedHeap ∧ 8 ∣ L.endAddress ∧
      L.pucAlignedHeap + 40936 ≤ L.endAddress ∧ L.endAddress + 8 ≤ L.ucHeap + configTOTAL_HEAP_SIZE := by
  have hpos := L.ucHeap_pos
  have hp := L.pucAlignedHeap_eq
  have he := L.endAddress_eq
  unfold configTOTAL_HEAP_SIZE at *
  omega

/-- The bytes between the start of the heap and the mark at its end. -/
def room : Nat := L.endAddress - L.pucAlignedHeap

theorem add_room : L.pucAlignedHeap + L.room = L.endAddress := by
  have := L.bounds
  unfold room
  omega

theorem room_bounds : 40936 ≤ L.room ∧ L.room ≤ configTOTAL_HEAP_SIZE - 8 := by
  have := L.bounds
  unfold room configTOTAL_HEAP_SIZE at *
  omega

theorem room_dvd : 8 ∣ L.room := by
  obtain ⟨-, -, h1, h2, -⟩ := L.bounds
  exact Nat.dvd_sub h2 h1

/-- The start of the list lies outside the array. -/
theorem xStart_ne {a : Nat} (h1 : L.pucAlignedHeap ≤ a) (h2 : a ≤ L.endAddress) : L.xStart ≠ a := by
  have hb := L.bounds
  have hx := L.xStart_apart
  omega

end Layout

/-! ## The loops -/

section Walks

variable {mem : Nat → BlockLink} {l : List Nat} {q limit : Nat}

/-- The first loop comes to the last entry below the block to insert. -/
theorem findPlace_of_path {b pxIterator : Nat}
    (hp : Links.Path BlockLink.pxNextFreeBlock mem (mem pxIterator).pxNextFreeBlock l q) (hl : ∀ a ∈ l, a < b) (hq : b ≤ q)
    (hlimit : l.length < limit) : findPlace mem b limit pxIterator = some (l.getLastD pxIterator) := by
  induction l generalizing pxIterator limit with
  | nil =>
    obtain ⟨limit, rfl⟩ := Nat.exists_eq_add_one.mpr hlimit
    rw [Links.path_nil] at hp
    rw [findPlace, hp, if_neg (Nat.not_lt_of_le hq), List.getLastD_nil]
  | cons a l ih =>
    obtain ⟨limit, rfl⟩ := Nat.exists_eq_add_one.mpr (Nat.zero_lt_of_lt hlimit)
    obtain ⟨ha, hrest⟩ := List.forall_mem_cons.mp hl
    obtain ⟨hp1, hp2⟩ := Links.path_cons.mp hp
    rw [findPlace, hp1, if_pos ha, ih hp2 hrest (Nat.lt_of_succ_lt_succ hlimit), List.getLastD_cons]

/-- The second loop goes on over the blocks that are too small and are not the last entry. -/
theorem findBlock_of_path {n pxPreviousBlock pxBlock : Nat} (hp : Links.Path BlockLink.pxNextFreeBlock mem pxBlock l q)
    (hl : ∀ a ∈ l, (mem a).xBlockSize < n ∧ (mem a).pxNextFreeBlock ≠ 0)
    (hq : ¬((mem q).xBlockSize < n ∧ (mem q).pxNextFreeBlock ≠ 0)) (hlimit : l.length < limit) :
    findBlock mem n limit pxPreviousBlock pxBlock = some (l.getLastD pxPreviousBlock, q) := by
  induction l generalizing pxPreviousBlock pxBlock limit with
  | nil =>
    obtain ⟨limit, rfl⟩ := Nat.exists_eq_add_one.mpr hlimit
    obtain rfl := Links.path_nil.mp hp
    rw [findBlock, if_neg hq, List.getLastD_nil]
  | cons a l ih =>
    obtain ⟨limit, rfl⟩ := Nat.exists_eq_add_one.mpr (Nat.zero_lt_of_lt hlimit)
    obtain ⟨ha, hrest⟩ := List.forall_mem_cons.mp hl
    obtain ⟨rfl, hp⟩ := Links.path_cons.mp hp
    rw [findBlock, if_pos ha, ih hp hrest (Nat.lt_of_succ_lt_succ hlimit), List.getLastD_cons]

end Walks

/-! ## The list of the free blocks -/

/-- The free blocks, each with its length, as they are linked in the memory. -/
structure Linked (L : Layout) (mem : Nat → BlockLink) (F : List (Nat × Nat)) : Prop where
  path : Links.Path BlockLink.pxNextFreeBlock mem L.xStart (L.xStart :: F.map Prod.fst) L.endAddress
  sizes : ∀ x ∈ F, (mem x.1).xBlockSize = x.2
  start : (mem L.xStart).xBlockSize = 0
  endMark : mem L.endAddress = ⟨0, 0⟩

/-- Free blocks in the order of their addresses, inside the heap, and fewer than a walk has steps. -/
structure InOrder (L : Layout) (F : List (Nat × Nat)) : Prop where
  sorted : F.Pairwise fun x y => x.1 + x.2 ≤ y.1
  inside : ∀ x ∈ F, L.pucAlignedHeap ≤ x.1 ∧ x.1 + x.2 ≤ L.endAddress
  pos : ∀ x ∈ F, 0 < x.2
  short : F.length < walkLimit

section Insert

variable {L : Layout} {mem : Nat → BlockLink} {F F₁ F₂ : List (Nat × Nat)} {b n it : Nat} {P : List Nat}

/-- The free blocks of a heap are in order. -/
theorem inOrder_pick {bs : List Tiling.Block} (hs : Tiling.Sound 8 bs) (hspan : Tiling.span bs = L.room) :
    InOrder L (Tiling.pick false L.pucAlignedHeap bs) := by
  have hpos : ∀ x ∈ Tiling.pick false L.pucAlignedHeap bs, 0 < x.2 := by
    intro x hx
    obtain ⟨pre, post, rfl, -⟩ := Tiling.mem_pick.mp hx
    exact hs.pos ⟨x.2, false⟩ (by simp)
  refine ⟨Tiling.pick_sorted _ _ _, ?_, hpos, ?_⟩
  · intro x hx
    have := Tiling.bounds_of_mem_pick hx
    rw [hspan, L.add_room] at this
    exact this
  · have hlen := Tiling.length_le_total hpos
    have htotal := Tiling.total_used_add_free L.pucAlignedHeap bs
    have hroom := L.room_bounds
    unfold walkLimit configTOTAL_HEAP_SIZE at *
    omega

/-- What the end of the insertion makes of the block and of those behind it: only the block itself is written. -/
theorem mergeAfter_spec (mem : Nat → BlockLink) {c k : Nat}
    (hp : Links.Path BlockLink.pxNextFreeBlock mem (mem it).pxNextFreeBlock (F₂.map Prod.fst) L.endAddress)
    (hsz : ∀ x ∈ F₂, (mem x.1).xBlockSize = x.2) (hc : ∀ x ∈ F₂, c < x.1) (hend : ∀ x ∈ F₂, x.1 ≠ L.endAddress)
    (hk : (mem c).xBlockSize = k) :
    ∃ node, mergeAfter mem L.endAddress it c = Function.update mem c node ∧
      ∀ mem' : Nat → BlockLink, mem' c = node → (∀ x ∈ F₂, mem' x.1 = mem x.1) →
        Links.Path BlockLink.pxNextFreeBlock mem' c ((Tiling.fuse c k F₂).map Prod.fst) L.endAddress ∧
          ∀ x ∈ Tiling.fuse c k F₂, (mem' x.1).xBlockSize = x.2 := by
  cases F₂ with
  | nil =>
    rw [List.map_nil, Links.path_nil] at hp
    refine ⟨⟨L.endAddress, k⟩, ?_, ?_⟩
    · unfold mergeAfter
      simp [hp, hk]
    · intro mem' hmem' _
      simp [Tiling.fuse, hmem']
  | cons x F₂ =>
    obtain ⟨d, m⟩ := x
    obtain ⟨hd, hp⟩ := Links.path_cons.mp hp
    obtain ⟨hm, hsz⟩ := List.forall_mem_cons.mp hsz
    obtain ⟨hcd, hc⟩ := List.forall_mem_cons.mp hc
    have hdend := hend (d, m) List.mem_cons_self
    simp only at hd hp hm hcd hdend
    by_cases htouch : c + k = d
    · refine ⟨⟨(mem d).pxNextFreeBlock, k + m⟩, ?_, ?_⟩
      · unfold mergeAfter
        simp [hd, hk, htouch, hdend, hm]
      · intro mem' hmem' hrest
        obtain ⟨-, hrest⟩ := List.forall_mem_cons.mp hrest
        rw [Tiling.fuse, if_pos htouch, List.map_cons, Links.path_cons, hmem']
        refine ⟨⟨rfl, ?_⟩, ?_⟩
        · refine (Links.path_congr ?_).mpr hp
          intro a ha
          obtain ⟨x, hx, rfl⟩ := List.mem_map.mp ha
          rw [hrest x hx]
        · refine List.forall_mem_cons.mpr ⟨by rw [hmem'], ?_⟩
          intro x hx
          rw [hrest x hx, hsz x hx]
    · refine ⟨⟨d, k⟩, ?_, ?_⟩
      · unfold mergeAfter
        simp [hd, hk, htouch]
      · intro mem' hmem' hrest
        rw [Tiling.fuse, if_neg htouch, List.map_cons, Links.path_cons, hmem']
        refine ⟨⟨rfl, ?_⟩, ?_⟩
        · refine (Links.path_congr ?_).mpr (Links.path_cons.mpr ⟨rfl, hp⟩)
          intro a ha
          have ha' : a ∈ ((d, m) :: F₂).map Prod.fst := ha
          obtain ⟨x, hx, rfl⟩ := List.mem_map.mp ha'
          rw [hrest x hx]
        · refine List.forall_mem_cons.mpr ⟨by rw [hmem'], ?_⟩
          intro x hx
          rw [hrest x hx]
          rcases List.mem_cons.mp hx with rfl | hx
          · exact hm
          · exact hsz x hx

/-- The insertion behind a block that touches the one to insert: the two are one block, at the address of the first. -/
theorem insertBehind_touch {m : Nat} (hP : Links.Path BlockLink.pxNextFreeBlock mem L.xStart P it) (hit : it ∉ P)
    (hp : Links.Path BlockLink.pxNextFreeBlock mem (mem it).pxNextFreeBlock (F₂.map Prod.fst) L.endAddress)
    (hsz : ∀ x ∈ F₂, (mem x.1).xBlockSize = x.2) (hF : ∀ x ∈ F₂, it < x.1) (hend : ∀ x ∈ F₂, x.1 ≠ L.endAddress)
    (hm : (mem it).xBlockSize = m) (hn : (mem b).xBlockSize = n) (htouch : it + m = b) :
    Links.Path BlockLink.pxNextFreeBlock (insertBehind mem L.endAddress it b) L.xStart
        (P ++ (Tiling.fuse it (m + n) F₂).map Prod.fst) L.endAddress ∧
      (∀ x ∈ Tiling.fuse it (m + n) F₂, (insertBehind mem L.endAddress it b x.1).xBlockSize = x.2) ∧
      ∀ a, a ≠ it → insertBehind mem L.endAddress it b a = mem a := by
  have hbefore : mergeBefore mem it b =
      (Function.update mem it { mem it with xBlockSize := (mem it).xBlockSize + (mem b).xBlockSize }, it) := by
    unfold mergeBefore
    rw [if_pos (by rw [hm, htouch])]
  generalize hmem₁ : Function.update mem it { mem it with xBlockSize := (mem it).xBlockSize + (mem b).xBlockSize } = mem₁
    at hbefore
  have hmem_it : mem₁ it = { mem it with xBlockSize := m + n } := by rw [← hmem₁, Function.update_self, hm, hn]
  have hmem_ne : ∀ a, a ≠ it → mem₁ a = mem a := by
    intro a ha
    rw [← hmem₁, Function.update_of_ne ha]
  have hF_ne : ∀ x ∈ F₂, x.1 ≠ it := fun x hx => (hF x hx).ne'
  have hitF : it ∉ F₂.map Prod.fst := by
    intro h
    obtain ⟨x, hx, hxit⟩ := List.mem_map.mp h
    exact hF_ne x hx hxit
  obtain ⟨node, hafter, hnode⟩ := mergeAfter_spec mem₁ (c := it) (k := m + n)
    (by rw [hmem_it, ← hmem₁]; exact (Links.path_update _ hitF).mpr hp)
    (fun x hx => by rw [hmem_ne _ (hF_ne x hx), hsz x hx]) hF hend (by rw [hmem_it])
  have heq : insertBehind mem L.endAddress it b = Function.update mem₁ it node := by
    unfold insertBehind
    rw [hbefore]
    simp [hafter]
  obtain ⟨hpath, hsizes⟩ := hnode (Function.update mem₁ it node) (by rw [Function.update_self])
    (fun x hx => by rw [Function.update_of_ne (hF_ne x hx)])
  rw [heq]
  refine ⟨Links.path_append.mpr ⟨it, ?_, hpath⟩, hsizes, ?_⟩
  · rw [Links.path_update _ hit, ← hmem₁, Links.path_update _ hit]
    exact hP
  · intro a ha
    rw [Function.update_of_ne ha, hmem_ne a ha]

/-- The insertion behind an entry that does not touch the block to insert: the block stands behind it, joined with the next. -/
theorem insertBehind_apart (hP : Links.Path BlockLink.pxNextFreeBlock mem L.xStart P it) (hit : it ∉ P) (hb : b ∉ P)
    (hitb : it ≠ b)
    (hp : Links.Path BlockLink.pxNextFreeBlock mem (mem it).pxNextFreeBlock (F₂.map Prod.fst) L.endAddress)
    (hsz : ∀ x ∈ F₂, (mem x.1).xBlockSize = x.2) (hF : ∀ x ∈ F₂, b < x.1) (hF_it : ∀ x ∈ F₂, x.1 ≠ it)
    (hend : ∀ x ∈ F₂, x.1 ≠ L.endAddress) (hn : (mem b).xBlockSize = n) (hapart : it + (mem it).xBlockSize ≠ b) :
    Links.Path BlockLink.pxNextFreeBlock (insertBehind mem L.endAddress it b) L.xStart
        (P ++ it :: (Tiling.fuse b n F₂).map Prod.fst) L.endAddress ∧
      (∀ x ∈ Tiling.fuse b n F₂, (insertBehind mem L.endAddress it b x.1).xBlockSize = x.2) ∧
      (insertBehind mem L.endAddress it b it).xBlockSize = (mem it).xBlockSize ∧
      ∀ a, a ≠ it → a ≠ b → insertBehind mem L.endAddress it b a = mem a := by
  have hbefore : mergeBefore mem it b = (mem, b) := if_neg hapart
  obtain ⟨node, hafter, hnode⟩ := mergeAfter_spec mem hp hsz hF hend hn
  have heq : insertBehind mem L.endAddress it b =
      Function.update (Function.update mem b node) it { mem it with pxNextFreeBlock := b } := by
    unfold insertBehind
    rw [hbefore]
    simp [hafter, hitb]
  generalize hmem' : insertBehind mem L.endAddress it b = mem' at heq ⊢
  have hmem_it : mem' it = { mem it with pxNextFreeBlock := b } := by rw [heq, Function.update_self]
  have hmem_b : mem' b = node := by rw [heq, Function.update_of_ne hitb.symm, Function.update_self]
  have hmem_ne : ∀ a, a ≠ it → a ≠ b → mem' a = mem a := by
    intro a h1 h2
    rw [heq, Function.update_of_ne h1, Function.update_of_ne h2]
  obtain ⟨hpath, hsizes⟩ := hnode mem' hmem_b fun x hx => hmem_ne x.1 (hF_it x hx) (hF x hx).ne'
  refine ⟨Links.path_append.mpr ⟨it, ?_, ?_⟩, hsizes, by rw [hmem_it], hmem_ne⟩
  · refine (Links.path_congr ?_).mpr hP
    intro a ha
    rw [hmem_ne a (ne_of_mem_of_not_mem ha hit) (ne_of_mem_of_not_mem ha hb)]
  · rw [Links.path_cons, hmem_it]
    exact ⟨rfl, hpath⟩

/-- The entries of the list below an address come first. -/
theorem exists_split (hs : F.Pairwise fun x y => x.1 + x.2 ≤ y.1) (b : Nat) :
    ∃ F₁ F₂, F = F₁ ++ F₂ ∧ (∀ x ∈ F₁, x.1 < b) ∧ ∀ x ∈ F₂, b ≤ x.1 := by
  induction F with
  | nil => exact ⟨[], [], rfl, by simp, by simp⟩
  | cons x F ih =>
    obtain ⟨hx, hs⟩ := List.pairwise_cons.mp hs
    by_cases hxb : x.1 < b
    · obtain ⟨F₁, F₂, rfl, h1, h2⟩ := ih hs
      exact ⟨x :: F₁, F₂, rfl, List.forall_mem_cons.mpr ⟨hxb, h1⟩, h2⟩
    · refine ⟨[], x :: F, rfl, by simp, List.forall_mem_cons.mpr ⟨Nat.le_of_not_lt hxb, ?_⟩⟩
      intro y hy
      exact (Nat.le_of_not_lt hxb).trans ((Nat.le_add_right _ _).trans (hx y hy))

/-- `prvInsertBlockIntoFreeList` inserts into the list of the free blocks. Of the memory outside the list and the block itself,
nothing changes. -/
theorem prvInsertBlockIntoFreeList_spec {h : Heap4} (hend : h.pxEnd = L.endAddress) (hl : Linked L h.mem F)
    (ho : InOrder L F) (hb : L.pucAlignedHeap ≤ b) (hbn : b + n ≤ L.endAddress) (hpos : 0 < n)
    (hn : (h.mem b).xBlockSize = n) (hF : ∀ x ∈ F, x.1 + x.2 ≤ b ∨ b + n ≤ x.1) :
    ∃ mem, prvInsertBlockIntoFreeList L h b = some { h with mem } ∧ Linked L mem (Tiling.insert b n F) ∧
      ∀ a, a ≠ L.xStart → a ≠ b → (∀ x ∈ F, a ≠ x.1) → mem a = h.mem a := by
  obtain ⟨F₁, F₂, rfl, hF₁, hF₂⟩ := exists_split ho.sorted b
  have hbelow : ∀ x ∈ F₁, x.1 + x.2 ≤ b := by
    intro x hx
    have := hF₁ x hx
    rcases hF x (List.mem_append_left _ hx) with h' | h'
    · exact h'
    · omega
  have hend₂ : ∀ x ∈ F₂, x.1 ≠ L.endAddress := by
    intro x hx
    have h1 := (ho.inside x (List.mem_append_right _ hx)).2
    have h2 := ho.pos x (List.mem_append_right _ hx)
    omega
  have habove : ∀ x ∈ F₂, b < x.1 := by
    intro x hx
    have h1 := hF₂ x hx
    have h2 := ho.pos x (List.mem_append_right _ hx)
    rcases hF x (List.mem_append_right _ hx) with h' | h'
    · omega
    · omega
  have hsz₂ : ∀ x ∈ F₂, (h.mem x.1).xBlockSize = x.2 := fun x hx => hl.sizes x (List.mem_append_right _ hx)
  have hxb : L.xStart ≠ b := L.xStart_ne hb (by omega)
  have hpath := hl.path
  rw [List.map_append, ← List.cons_append] at hpath
  obtain ⟨q, hp₁, hp₂⟩ := Links.path_append.mp hpath
  have hq : b ≤ q := by
    cases F₂ with
    | nil =>
      obtain rfl := Links.path_nil.mp hp₂
      omega
    | cons x F₂ =>
      obtain ⟨rfl, -⟩ := Links.path_cons.mp hp₂
      exact hF₂ x List.mem_cons_self
  have hplace : findPlace h.mem b walkLimit L.xStart = some ((F₁.map Prod.fst).getLastD L.xStart) := by
    refine findPlace_of_path (Links.path_cons.mp hp₁).2 ?_ hq ?_
    · intro a ha
      obtain ⟨x, hx, rfl⟩ := List.mem_map.mp ha
      exact hF₁ x hx
    · have := ho.short
      rw [List.length_append] at this
      rw [List.length_map]
      omega
  have hresult : prvInsertBlockIntoFreeList L h b =
      some { h with mem := insertBehind h.mem L.endAddress ((F₁.map Prod.fst).getLastD L.xStart) b } := by
    unfold prvInsertBlockIntoFreeList
    rw [hplace, Option.map_some, hend]
  refine ⟨_, hresult, ?_⟩
  rcases List.eq_nil_or_concat F₁ with rfl | ⟨G, ⟨a, m⟩, rfl⟩
  · -- the block comes first in the list
    rw [List.map_nil, List.getLastD_nil, List.nil_append, Tiling.insert_of_le hF₂]
    have hF_it : ∀ x ∈ F₂, x.1 ≠ L.xStart := by
      intro x hx
      have hin := ho.inside x hx
      exact (L.xStart_ne hin.1 (by omega)).symm
    have hP : Links.Path BlockLink.pxNextFreeBlock h.mem L.xStart [] L.xStart := rfl
    obtain ⟨h1, h2, h3, h4⟩ := insertBehind_apart hP (by simp) (by simp) hxb
      (by rw [(Links.path_cons.mp hp₁).2]; exact hp₂) hsz₂ habove hF_it hend₂ hn (by rw [hl.start]; exact hxb)
    refine ⟨⟨h1, h2, h3.trans hl.start, ?_⟩, fun c hc1 hc2 _ => h4 c hc1 hc2⟩
    rw [h4 _ (L.xStart_ne (by omega) (Nat.le_refl _)).symm (by omega), hl.endMark]
  · rw [List.concat_eq_append] at *
    have hmem_a : (a, m) ∈ G ++ [(a, m)] ++ F₂ := by simp
    have hin := ho.inside _ hmem_a
    have hm : (h.mem a).xBlockSize = m := hl.sizes _ hmem_a
    have hmpos : 0 < m := ho.pos _ hmem_a
    have hab : a + m ≤ b := hbelow (a, m) (by simp)
    have hxa : L.xStart ≠ a := L.xStart_ne hin.1 (by omega)
    have hG : ∀ x ∈ G, x.1 + x.2 ≤ a ∧ 0 < x.2 := by
      intro x hx
      have hsorted := (List.pairwise_append.mp (List.pairwise_append.mp ho.sorted).1).2.2
      exact ⟨hsorted x hx (a, m) (by simp), ho.pos x (by simp [hx])⟩
    have hG_ne : ∀ x ∈ G, x.1 ≠ a ∧ x.1 ≠ b := by
      intro x hx
      have := hG x hx
      omega
    have ha_notin : a ∉ L.xStart :: G.map Prod.fst := by
      intro h'
      rcases List.mem_cons.mp h' with h' | h'
      · exact hxa h'.symm
      · obtain ⟨x, hx, hxa'⟩ := List.mem_map.mp h'
        exact (hG_ne x hx).1 hxa'
    have hb_notin : b ∉ L.xStart :: G.map Prod.fst := by
      intro h'
      rcases List.mem_cons.mp h' with h' | h'
      · exact hxb h'.symm
      · obtain ⟨x, hx, hxb'⟩ := List.mem_map.mp h'
        exact (hG_ne x hx).2 hxb'
    rw [List.map_append, List.map_singleton, ← List.cons_append, Links.path_snoc] at hp₁
    obtain ⟨hP, rfl⟩ := hp₁
    rw [List.map_append, List.map_singleton, List.getLastD_concat, List.append_assoc, List.singleton_append,
      Tiling.insert_append fun x hx => by have := hG x hx; omega, Tiling.insert, if_pos (by omega)]
    by_cases htouch : a + m = b
    · rw [if_pos htouch]
      obtain ⟨h1, h2, h3⟩ := insertBehind_touch hP ha_notin hp₂ hsz₂ (fun x hx => by have := habove x hx; omega) hend₂ hm
        hn htouch
      refine ⟨⟨?_, ?_, ?_, ?_⟩, ?_⟩
      · rw [List.map_append, ← List.cons_append]
        exact h1
      · intro x hx
        rcases List.mem_append.mp hx with hx | hx
        · rw [h3 _ (hG_ne x hx).1]
          exact hl.sizes x (by simp [hx])
        · exact h2 x hx
      · rw [h3 _ hxa]
        exact hl.start
      · rw [h3 _ (by omega)]
        exact hl.endMark
      · intro c _ _ hc
        exact h3 c (hc (a, m) (by simp))
    · rw [if_neg htouch, Tiling.insert_of_le hF₂]
      have hF_it : ∀ x ∈ F₂, x.1 ≠ a := by
        intro x hx
        have := habove x hx
        omega
      obtain ⟨h1, h2, h3, h4⟩ := insertBehind_apart hP ha_notin hb_notin (by omega) hp₂ hsz₂ habove hF_it hend₂ hn
        (by rw [hm]; exact htouch)
      refine ⟨⟨?_, ?_, ?_, ?_⟩, ?_⟩
      · rw [List.map_append, List.map_cons, ← List.cons_append]
        exact h1
      · intro x hx
        rcases List.mem_append.mp hx with hx | hx
        · rw [h4 _ (hG_ne x hx).1 (hG_ne x hx).2]
          exact hl.sizes x (by simp [hx])
        · rcases List.mem_cons.mp hx with rfl | hx
          · exact h3.trans hm
          · exact h2 x hx
      · rw [h4 _ hxa hxb]
        exact hl.start
      · rw [h4 _ (by omega) (by omega)]
        exact hl.endMark
      · intro c _ hc hc'
        exact h4 c (hc' (a, m) (by simp)) hc

end Insert

/-! ## The whole heap -/

/-- The heap of the memory is these blocks: the free ones are linked, and the others carry the mark and the pointer `NULL`. -/
structure Heap4.Represents (L : Layout) (h : Heap4) (bs : List Tiling.Block) : Prop where
  sound : Tiling.Sound 8 bs
  span : Tiling.span bs = L.room
  pxEnd : h.pxEnd = L.endAddress
  bit : h.xBlockAllocatedBit = 1 <<< 31
  linked : Linked L h.mem (Tiling.pick false L.pucAlignedHeap bs)
  marked : ∀ x ∈ Tiling.pick true L.pucAlignedHeap bs, h.mem x.1 = ⟨0, x.2 ||| 1 <<< 31⟩
  free : h.xFreeBytesRemaining = Tiling.total (Tiling.pick false L.pucAlignedHeap bs)

section Represents

open Tiling

variable {L : Layout} {h h' : Heap4} {bs bs' : List Block} {u : Bool} {x : Nat × Nat} {p : Nat}

/-- A block of the heap is long, aligned, inside the heap and shorter than the mark. -/
theorem block_bounds (hs : Sound 8 bs) (hspan : span bs = L.room) (hx : x ∈ pick u L.pucAlignedHeap bs) :
    0 < x.2 ∧ 8 ∣ x.1 ∧ 8 ∣ x.2 ∧ L.pucAlignedHeap ≤ x.1 ∧ x.1 + x.2 ≤ L.endAddress ∧ x.2 < 2 ^ 31 := by
  have hb := bounds_of_mem_pick hx
  have hroom := L.room_bounds
  rw [hspan, L.add_room] at hb
  obtain ⟨pre, post, rfl, hp⟩ := mem_pick.mp hx
  have hpre : 8 ∣ span pre := dvd_span fun c hc => hs.grains c (List.mem_append_left _ hc)
  have hpos := hs.pos ⟨x.2, u⟩ (by simp)
  have hdvd := hs.grains ⟨x.2, u⟩ (by simp)
  rw [← L.add_room] at hb
  refine ⟨hpos, ?_, hdvd, hb.1, by rw [← L.add_room]; exact hb.2, ?_⟩
  · rw [hp]
    exact Nat.dvd_add L.bounds.2.2.1 hpre
  · unfold configTOTAL_HEAP_SIZE at hroom
    omega

/-- After `prvHeapInit` the heap is one free block. -/
theorem represents_init (L : Layout) (h : Heap4) : (prvHeapInit L h).Represents L [⟨L.room, false⟩] := by
  have hb := L.bounds
  have hroom := L.room_bounds
  have hx₁ : L.xStart ≠ L.pucAlignedHeap := L.xStart_ne (Nat.le_refl _) (by omega)
  have hx₂ : L.xStart ≠ L.endAddress := L.xStart_ne (by omega) (Nat.le_refl _)
  have hne : L.endAddress ≠ L.pucAlignedHeap := by omega
  refine ⟨Sound.single (by omega) L.room_dvd, by simp, rfl, rfl, ⟨?_, ?_, ?_, ?_⟩, ?_, ?_⟩
  · simp [prvHeapInit, pick, hx₁, hx₂]
  · simp [prvHeapInit, pick, Layout.room]
  · simp [prvHeapInit, hx₁, hx₂]
  · simp [prvHeapInit, hne]
  · simp [pick]
  · simp [prvHeapInit, pick, Layout.room]

/-- The addresses of two blocks differ when the blocks do. -/
theorem block_ne (hs : Sound 8 bs) {v : Bool} {y : Nat × Nat} (hx : x ∈ pick u L.pucAlignedHeap bs)
    (hy : y ∈ pick v L.pucAlignedHeap bs) (hne : x ≠ y ∨ u ≠ v) : x.1 ≠ y.1 := by
  intro h
  obtain ⟨rfl, rfl⟩ := pick_unique hs.pos hx hy h
  rcases hne with hne | hne
  · exact hne rfl
  · exact hne rfl

/-- The list of the free blocks depends on what it is written in only. -/
theorem Linked.congr {mem mem' : Nat → BlockLink} {F : List (Nat × Nat)} (hl : Linked L mem F)
    (hx : mem' L.xStart = mem L.xStart) (he : mem' L.endAddress = mem L.endAddress)
    (hF : ∀ x ∈ F, mem' x.1 = mem x.1) : Linked L mem' F := by
  refine ⟨?_, ?_, by rw [hx]; exact hl.start, by rw [he]; exact hl.endMark⟩
  · refine (Links.path_congr ?_).mpr hl.path
    intro a ha
    rcases List.mem_cons.mp ha with rfl | ha
    · rw [hx]
    · obtain ⟨x, hxF, rfl⟩ := List.mem_map.mp ha
      rw [hF x hxF]
  · intro x hxF
    rw [hF x hxF, hl.sizes x hxF]

/-- A header of a block is neither the start of the list nor the mark at its end. -/
theorem block_ne_ends (hs : Sound 8 bs) (hspan : span bs = L.room) (hx : x ∈ pick u L.pucAlignedHeap bs) :
    x.1 ≠ L.xStart ∧ x.1 ≠ L.endAddress := by
  obtain ⟨h1, -, -, h2, h3, -⟩ := block_bounds hs hspan hx
  exact ⟨(L.xStart_ne h2 (by omega)).symm, by omega⟩

/-- `vPortFree` of a block in use takes it back. -/
theorem vPortFree_spec {n : Nat} (R : h.Represents L bs) (hx : (p, n) ∈ pick true L.pucAlignedHeap bs)
    (hg : give p L.pucAlignedHeap bs = some bs') :
    ∃ h', vPortFree L h (p + 8) = some h' ∧ h'.Represents L bs' ∧ h'.xFreeBytesRemaining = h.xFreeBytesRemaining + n ∧
      h'.xMinimumEverFreeBytesRemaining = h.xMinimumEverFreeBytesRemaining := by
  obtain ⟨hpos, -, -, hp₁, hp₂, hsmall⟩ := block_bounds R.sound R.span hx
  obtain ⟨hpx, hpe⟩ := block_ne_ends R.sound R.span hx
  obtain ⟨m, U₁, U₂, hU, hU', hF⟩ := pick_give R.sound hg
  obtain rfl : n = m := by
    have hmem : (p, m) ∈ pick true L.pucAlignedHeap bs := by rw [hU]; simp
    exact (Prod.mk.inj (pick_unique R.sound.pos hx hmem rfl).1).2
  have hhead : h.mem p = ⟨0, n ||| 1 <<< 31⟩ := R.marked _ hx
  have hmark : (h.mem p).xBlockSize &&& h.xBlockAllocatedBit ≠ 0 := by
    rw [hhead, R.bit]
    exact marked_and hsmall
  have hsize : andNot (h.mem p).xBlockSize h.xBlockAllocatedBit = n := by
    rw [hhead, R.bit]
    exact marked_andNot hsmall
  have hne : ∀ x ∈ pick false L.pucAlignedHeap bs, x.1 ≠ p :=
    fun x hxF => block_ne R.sound hxF hx (Or.inr Bool.false_ne_true)
  generalize hmem₁ : Function.update h.mem p { h.mem p with xBlockSize := n } = mem₁
  have hmem_ne : ∀ a, a ≠ p → mem₁ a = h.mem a := by
    intro a ha
    rw [← hmem₁, Function.update_of_ne ha]
  have hl : Linked L mem₁ (pick false L.pucAlignedHeap bs) :=
    R.linked.congr (hmem_ne _ hpx.symm) (hmem_ne _ hpe.symm) fun x hxF => hmem_ne _ (hne x hxF)
  have hapart : ∀ x ∈ pick false L.pucAlignedHeap bs, x.1 + x.2 ≤ p ∨ p + n ≤ x.1 := by
    intro x hxF
    rcases pick_apart hxF hx with h' | h'
    · cases h'.2
    · exact h'
  obtain ⟨mem, hins, hl', hframe⟩ := prvInsertBlockIntoFreeList_spec (n := n) (b := p)
    (h := { h with mem := mem₁, xFreeBytesRemaining := h.xFreeBytesRemaining + n }) R.pxEnd hl
    (inOrder_pick R.sound R.span) hp₁ hp₂ hpos (by rw [← hmem₁]; simp) hapart
  have htotal := total_used_add_free L.pucAlignedHeap bs
  have htotal' := total_used_add_free L.pucAlignedHeap bs'
  rw [span_give hg, hU', total_append] at htotal'
  rw [hU, total_append, total_cons] at htotal
  have hfree := R.free
  refine ⟨{ h with mem, xFreeBytesRemaining := h.xFreeBytesRemaining + n }, ?_,
    ⟨R.sound.give hg, (span_give hg).trans R.span, R.pxEnd, R.bit, ?_, ?_, ?_⟩, rfl, rfl⟩
  · unfold vPortFree
    rw [if_neg (Nat.succ_ne_zero _), xHeapStructSize_eq, Nat.add_sub_cancel]
    simp only
    rw [if_neg hmark, if_neg (not_not.mpr (by rw [hhead])), hsize, hmem₁]
    exact hins
  · rw [hF]
    exact hl'
  · intro x hxU
    rw [hU'] at hxU
    have hxbs : x ∈ pick true L.pucAlignedHeap bs := by
      rw [hU]
      rcases List.mem_append.mp hxU with hxU | hxU
      · simp [hxU]
      · simp [hxU]
    have hxp : x.1 ≠ p := by
      have hsorted := pick_sorted true L.pucAlignedHeap bs
      have hxpos := (block_bounds R.sound R.span hxbs).1
      rw [hU] at hsorted
      rcases List.mem_append.mp hxU with hxU | hxU
      · have := (List.pairwise_append.mp hsorted).2.2 x hxU (p, n) (by simp)
        simp only at this
        omega
      · have := (List.pairwise_cons.mp (List.pairwise_append.mp hsorted).2.1).1 x hxU
        simp only at this
        omega
    have hends := block_ne_ends R.sound R.span hxbs
    calc mem x.1 = mem₁ x.1 :=
          hframe x.1 hends.1 hxp fun y hy => block_ne R.sound hxbs hy (Or.inr Bool.false_ne_true.symm)
      _ = h.mem x.1 := hmem_ne _ hxp
      _ = ⟨0, x.2 ||| 1 <<< 31⟩ := R.marked x hxbs
  · simp only
    omega

/-- The list without one of its entries. -/
theorem Linked.remove {mem : Nat → BlockLink} {F₁ F₂ : List (Nat × Nat)} {n : Nat}
    (hl : Linked L mem (F₁ ++ (p, n) :: F₂)) (ho : InOrder L (F₁ ++ (p, n) :: F₂)) {it : Nat}
    (hit : it = (F₁.map Prod.fst).getLastD L.xStart) :
    (mem it).pxNextFreeBlock = p ∧
      Linked L (Function.update mem it { mem it with pxNextFreeBlock := (mem p).pxNextFreeBlock }) (F₁ ++ F₂) := by
  have hpath := hl.path
  rw [List.map_append, ← List.cons_append, List.map_cons] at hpath
  obtain ⟨q, hp₁, hp₂⟩ := Links.path_append.mp hpath
  obtain ⟨rfl, hp₂⟩ := Links.path_cons.mp hp₂
  generalize hmem' : Function.update mem it { mem it with pxNextFreeBlock := (mem q).pxNextFreeBlock } = mem'
  have hmem_it : mem' it = { mem it with pxNextFreeBlock := (mem q).pxNextFreeBlock } := by
    rw [← hmem', Function.update_self]
  have hmem_ne : ∀ a, a ≠ it → mem' a = mem a := by
    intro a ha
    rw [← hmem', Function.update_of_ne ha]
  have hsize : ∀ a, (mem' a).xBlockSize = (mem a).xBlockSize := by
    intro a
    by_cases ha : a = it
    · rw [ha, hmem_it]
    · rw [hmem_ne a ha]
  have hnext : (mem it).pxNextFreeBlock = q := by
    rw [hit]
    exact Links.path_getLastD (Links.path_cons.mp hp₁).2
  have hgap : ∀ x ∈ F₁, ∀ y ∈ F₂, x.1 < y.1 := by
    intro x hx y hy
    have h1 := (List.pairwise_append.mp ho.sorted).2.2 x hx y (List.mem_cons_of_mem _ hy)
    have h2 := ho.pos x (List.mem_append_left _ hx)
    omega
  have hx_out : ∀ x ∈ F₁ ++ (q, n) :: F₂, L.xStart ≠ x.1 ∧ x.1 ≠ L.endAddress := by
    intro x hx
    have h1 := ho.inside x hx
    have h2 := ho.pos x hx
    exact ⟨L.xStart_ne h1.1 (by omega), by omega⟩
  have hsuffix : ∀ a ∈ F₂.map Prod.fst, a ≠ it := by
    intro a ha
    obtain ⟨y, hy, rfl⟩ := List.mem_map.mp ha
    rcases List.eq_nil_or_concat F₁ with rfl | ⟨G, x, rfl⟩
    · rw [hit]
      exact (hx_out y (by simp [hy])).1.symm
    · rw [hit, List.concat_eq_append, List.map_append, List.map_singleton, List.getLastD_concat]
      exact (hgap x (by simp) y hy).ne'
  have hpath₂ : Links.Path BlockLink.pxNextFreeBlock mem' (mem q).pxNextFreeBlock (F₂.map Prod.fst) L.endAddress := by
    refine (Links.path_congr ?_).mpr hp₂
    intro a ha
    rw [hmem_ne a (hsuffix a ha)]
  have hpath₁ : Links.Path BlockLink.pxNextFreeBlock mem' L.xStart (L.xStart :: F₁.map Prod.fst) (mem q).pxNextFreeBlock := by
    rcases List.eq_nil_or_concat F₁ with rfl | ⟨G, x, rfl⟩
    · rw [List.map_nil, List.getLastD_nil] at hit
      rw [List.map_nil, Links.path_cons, ← hit, hmem_it]
      exact ⟨rfl, rfl⟩
    · rw [List.concat_eq_append] at *
      rw [List.map_append, List.map_singleton, List.getLastD_concat] at hit
      rw [List.map_append, List.map_singleton, ← List.cons_append, Links.path_snoc] at hp₁ ⊢
      rw [← hit] at hp₁ ⊢
      refine ⟨(Links.path_congr ?_).mpr hp₁.1, by rw [hmem_it]⟩
      intro a ha
      rw [hmem_ne a ?_]
      rcases List.mem_cons.mp ha with rfl | ha
      · rw [hit]
        exact (hx_out x (by simp)).1
      · obtain ⟨y, hy, rfl⟩ := List.mem_map.mp ha
        have hsorted := (List.pairwise_append.mp (List.pairwise_append.mp ho.sorted).1).2.2 y hy x (by simp)
        have hypos := ho.pos y (by simp [hy])
        omega
  refine ⟨hnext, ?_, ?_, ?_, ?_⟩
  · rw [List.map_append, ← List.cons_append]
    exact Links.path_append.mpr ⟨_, hpath₁, hpath₂⟩
  · intro x hx
    rw [hsize]
    refine hl.sizes x ?_
    rcases List.mem_append.mp hx with hx | hx
    · simp [hx]
    · simp [hx]
  · rw [hsize]
    exact hl.start
  · rw [hmem_ne, hl.endMark]
    intro he
    rcases List.eq_nil_or_concat F₁ with rfl | ⟨G, x, rfl⟩
    · rw [List.map_nil, List.getLastD_nil] at hit
      have hb := L.bounds
      exact L.xStart_ne (by omega) (Nat.le_refl _) (hit.symm.trans he.symm)
    · rw [List.concat_eq_append, List.map_append, List.map_singleton, List.getLastD_concat] at hit
      exact (hx_out x (by simp)).2 (hit.symm.trans he.symm)

/-- Some of the free blocks are in order, too. -/
theorem InOrder.sublist {F F' : List (Nat × Nat)} (ho : InOrder L F) (h : F'.Sublist F) : InOrder L F' :=
  ⟨ho.sorted.sublist h, fun x hx => ho.inside x (h.subset hx), fun x hx => ho.pos x (h.subset hx),
    Nat.lt_of_le_of_lt h.length_le ho.short⟩

/-- The block found is split as `Tiling.take` splits it: the rest, if any, is put into the list. -/
theorem splitBlock_spec {F₁ F₂ : List (Nat × Nat)} {n need : Nat} (hend : h.pxEnd = L.endAddress)
    (hl : Linked L h.mem (F₁ ++ F₂)) (ho : InOrder L (F₁ ++ (p, n) :: F₂)) (hF₁ : ∀ x ∈ F₁, x.1 + x.2 < p)
    (hF₂ : ∀ x ∈ F₂, p + n < x.1) (hn : (h.mem p).xBlockSize = n) (hp8 : 8 ∣ p) (hneed8 : 8 ∣ need) (hneed : 0 < need)
    (hle : need ≤ n) :
    ∃ mem, splitBlock L h p need = some { h with mem } ∧ Linked L mem (F₁ ++ rest need 16 p n ++ F₂) ∧
      (mem p).xBlockSize = got need 16 n ∧
      ∀ a, a ≠ L.xStart → (∀ x ∈ F₁ ++ F₂, a ≠ x.1) → (a < p ∨ p + n ≤ a) → mem a = h.mem a := by
  have hin := ho.inside (p, n) (by simp)
  simp only at hin
  unfold splitBlock rest got
  rw [heapMINIMUM_BLOCK_SIZE_eq, hn]
  by_cases hsplit : 16 < n - need
  · rw [if_pos hsplit, if_pos hsplit, if_pos hsplit]
    have haligned : p + need &&& portBYTE_ALIGNMENT_MASK = 0 := by
      rw [and_alignmentMask]
      omega
    simp only
    rw [if_neg (not_not.mpr haligned)]
    generalize hmem₁ : Function.update h.mem (p + need) { h.mem (p + need) with xBlockSize := n - need } = mem₁
    generalize hmem₂ : Function.update mem₁ p { mem₁ p with xBlockSize := need } = mem₂
    have hmem₂_ne : ∀ a, a ≠ p → a ≠ p + need → mem₂ a = h.mem a := by
      intro a h1 h2
      rw [← hmem₂, Function.update_of_ne h1, ← hmem₁, Function.update_of_ne h2]
    have hmem₂_p : (mem₂ p).xBlockSize = need := by rw [← hmem₂, Function.update_self]
    have hmem₂_new : (mem₂ (p + need)).xBlockSize = n - need := by
      rw [← hmem₂, Function.update_of_ne (by omega), ← hmem₁, Function.update_self]
    have hout : ∀ x ∈ F₁ ++ F₂, x.1 + x.2 ≤ p ∨ p + n < x.1 := by
      intro x hx
      rcases List.mem_append.mp hx with hx | hx
      · exact Or.inl (hF₁ x hx).le
      · exact Or.inr (hF₂ x hx)
    have hsub : (F₁ ++ F₂).Sublist (F₁ ++ (p, n) :: F₂) := (List.sublist_cons_self _ _).append_left F₁
    have ho' : InOrder L (F₁ ++ F₂) := ho.sublist hsub
    have hne : ∀ x ∈ F₁ ++ F₂, x.1 ≠ p ∧ x.1 ≠ p + need := by
      intro x hx
      have h1 := hout x hx
      have h2 := ho'.pos x hx
      omega
    have hb := L.bounds
    have hl₂ : Linked L mem₂ (F₁ ++ F₂) :=
      hl.congr (hmem₂_ne _ (L.xStart_ne hin.1 (by omega)) (L.xStart_ne (by omega) (by omega)))
        (hmem₂_ne _ (by omega) (by omega)) fun x hx => hmem₂_ne _ (hne x hx).1 (hne x hx).2
    obtain ⟨mem, hins, hl', hframe⟩ := prvInsertBlockIntoFreeList_spec (n := n - need) (b := p + need)
      (h := { h with mem := mem₂ }) hend hl₂ ho' (by omega) (by omega) (by omega) hmem₂_new fun x hx => by
        have := hout x hx
        omega
    refine ⟨mem, hins, ?_, ?_, ?_⟩
    · have hins_eq : Tiling.insert (p + need) (n - need) (F₁ ++ F₂) = F₁ ++ [(p + need, n - need)] ++ F₂ := by
        rw [Tiling.insert_append fun x hx => by have := hF₁ x hx; omega,
          Tiling.insert_of_le fun x hx => by have := hF₂ x hx; omega,
          Tiling.fuse_of_lt fun x hx => by have := hF₂ x hx; omega, List.append_assoc, List.singleton_append]
      rw [← hins_eq]
      exact hl'
    · rw [hframe p (L.xStart_ne hin.1 (by omega)).symm (by omega) fun x hx => (hne x hx).1.symm]
      exact hmem₂_p
    · intro a h1 h2 h3
      rw [hframe a h1 (by omega) h2]
      exact hmem₂_ne a (by omega) (by omega)
  · rw [if_neg hsplit, if_neg hsplit, if_neg hsplit, List.append_nil]
    exact ⟨h.mem, rfl, hl, hn, fun _ _ _ _ => rfl⟩

/-- The block found is handed out as `Tiling.take` hands it out. -/
theorem allocateBlock_spec {F₁ F₂ : List (Nat × Nat)} {n need : Nat} (R : h.Represents L bs)
    (hF : pick false L.pucAlignedHeap bs = F₁ ++ (p, n) :: F₂) (hneed8 : 8 ∣ need) (hneed : 0 < need) (hle : need ≤ n)
    {prev : Nat} (hprev : prev = (F₁.map Prod.fst).getLastD L.xStart) :
    ∃ h', allocateBlock L h prev p need = some h' ∧ h'.pxEnd = L.endAddress ∧ h'.xBlockAllocatedBit = 1 <<< 31 ∧
      Linked L h'.mem (F₁ ++ rest need 16 p n ++ F₂) ∧ h'.mem p = ⟨0, got need 16 n ||| 1 <<< 31⟩ ∧
      (∀ x ∈ pick true L.pucAlignedHeap bs, h'.mem x.1 = h.mem x.1) ∧
      h'.xFreeBytesRemaining = h.xFreeBytesRemaining - got need 16 n ∧
      h'.xMinimumEverFreeBytesRemaining = min h.xMinimumEverFreeBytesRemaining h'.xFreeBytesRemaining := by
  have hmem_p : (p, n) ∈ pick false L.pucAlignedHeap bs := by rw [hF]; simp
  have ho := inOrder_pick R.sound R.span
  have hl := R.linked
  have hsorted := R.sound.pick_sorted_lt L.pucAlignedHeap
  obtain ⟨-, hp8, -, hp₁, hp₂, -⟩ := block_bounds R.sound R.span hmem_p
  have hends := block_ne_ends R.sound R.span hmem_p
  rw [hF] at ho hl hsorted
  obtain ⟨hs₁, hs₂, hs₁₂⟩ := List.pairwise_append.mp hsorted
  have hF₁ : ∀ x ∈ F₁, x.1 + x.2 < p := fun x hx => hs₁₂ x hx (p, n) (by simp)
  have hF₂ : ∀ x ∈ F₂, p + n < x.1 := fun x hx => (List.pairwise_cons.mp hs₂).1 x hx
  have hn : (h.mem p).xBlockSize = n := R.linked.sizes (p, n) hmem_p
  have hprev_ne : prev = L.xStart ∨ ∃ x ∈ F₁, prev = x.1 := by
    rcases List.eq_nil_or_concat F₁ with rfl | ⟨G, x, rfl⟩
    · exact Or.inl hprev
    · rw [List.concat_eq_append, List.map_append, List.map_singleton, List.getLastD_concat] at hprev
      exact Or.inr ⟨x, by simp, hprev⟩
  have hprev_p : prev ≠ p := by
    rcases hprev_ne with rfl | ⟨x, hx, rfl⟩
    · exact hends.1.symm
    · have := hF₁ x hx
      omega
  obtain ⟨-, hl₁⟩ := hl.remove ho hprev
  generalize hmem₁ : Function.update h.mem prev { h.mem prev with pxNextFreeBlock := (h.mem p).pxNextFreeBlock } = mem₁ at hl₁
  have hn₁ : (mem₁ p).xBlockSize = n := by rw [← hmem₁, Function.update_of_ne hprev_p.symm, hn]
  obtain ⟨mem, hsplit, hl', hgot, hframe⟩ := splitBlock_spec (h := { h with mem := mem₁ }) R.pxEnd hl₁ ho hF₁ hF₂ hn₁ hp8
    hneed8 hneed hle
  have hp_notin : ∀ x ∈ F₁ ++ rest need 16 p n ++ F₂, x.1 ≠ p := by
    intro x hx
    rcases List.mem_append.mp hx with hx | hx
    · rcases List.mem_append.mp hx with hx | hx
      · have := hF₁ x hx
        omega
      · unfold rest at hx
        split at hx
        · rw [List.mem_singleton.mp hx]
          simp only
          omega
        · cases hx
    · have := hF₂ x hx
      omega
  refine ⟨{ h with
      mem := Function.update mem p ⟨0, got need 16 n ||| 1 <<< 31⟩
      xFreeBytesRemaining := h.xFreeBytesRemaining - got need 16 n
      xMinimumEverFreeBytesRemaining := min h.xMinimumEverFreeBytesRemaining (h.xFreeBytesRemaining - got need 16 n) },
    ?_, R.pxEnd, R.bit, ?_, ?_, ?_, rfl, rfl⟩
  · unfold allocateBlock
    simp only
    rw [hmem₁, hsplit, Option.map_some]
    simp only [hgot, R.bit]
    congr 2
    split <;> omega
  · exact hl'.congr (Function.update_of_ne hends.1.symm _ _) (Function.update_of_ne hends.2.symm _ _)
      fun x hx => Function.update_of_ne (hp_notin x hx) _ _
  · exact Function.update_self _ _ _
  · intro x hx
    have hxp : x.1 ≠ p := block_ne R.sound hx hmem_p (Or.inr Bool.false_ne_true.symm)
    have hx_out : x.1 < p ∨ p + n ≤ x.1 := by
      have hpos := (block_bounds R.sound R.span hx).1
      rcases pick_apart hx hmem_p with h' | h'
      · cases h'.2
      · simp only at h'
        omega
    have hx_free : ∀ y ∈ F₁ ++ (p, n) :: F₂, x.1 ≠ y.1 := by
      intro y hy
      rw [← hF] at hy
      exact block_ne R.sound hx hy (Or.inr Bool.false_ne_true.symm)
    have hx_prev : x.1 ≠ prev := by
      rcases hprev_ne with rfl | ⟨y, hy, rfl⟩
      · exact (block_ne_ends R.sound R.span hx).1
      · exact hx_free y (by simp [hy])
    calc Function.update mem p _ x.1 = mem x.1 := Function.update_of_ne hxp _ _
      _ = mem₁ x.1 := by
          refine hframe x.1 (block_ne_ends R.sound R.span hx).1 (fun y hy => hx_free y ?_) hx_out
          rcases List.mem_append.mp hy with hy | hy
          · simp [hy]
          · simp [hy]
      _ = h.mem x.1 := by rw [← hmem₁, Function.update_of_ne hx_prev]

/-- What `pvPortMalloc` does to the blocks of the heap. -/
def allot (L : Layout) (n : Nat) (bs : List Block) : Option (Nat × List Block) :=
  if n = 0 ∨ 2 ^ 31 ≤ n then none else take (wantedSize n) 16 L.pucAlignedHeap bs

/-- The size that is looked for is aligned, and large enough for a `BlockLink_t` and what was asked for. -/
theorem wantedSize_bounds {n : Nat} (h : 0 < n) : 8 ∣ wantedSize n ∧ n + 8 ≤ wantedSize n ∧ wantedSize n < n + 16 := by
  rw [wantedSize_eq h]
  omega

theorem wantedSize_aligned (n : Nat) : wantedSize n &&& portBYTE_ALIGNMENT_MASK = 0 := by
  rw [and_alignmentMask]
  rcases Nat.eq_zero_or_pos n with rfl | h
  · rfl
  · exact Nat.mod_eq_zero_of_dvd (wantedSize_bounds h).1

/-- The heap that is ready is not initialised again. -/
theorem Heap4.Represents.pxEnd_ne (R : h.Represents L bs) : h.pxEnd ≠ 0 := by
  have hb := L.bounds
  rw [R.pxEnd]
  omega

/-- The first call makes the heap ready before anything else. -/
theorem pvPortMalloc_of_pxEnd_eq (L : Layout) (hend : h.pxEnd = 0) (n : UInt32) :
    pvPortMalloc L h n = pvPortMalloc L (prvHeapInit L h) n := by
  have hne : (prvHeapInit L h).pxEnd ≠ 0 := (represents_init L h).pxEnd_ne
  unfold pvPortMalloc
  rw [if_pos hend, if_neg hne]

/-- The loop of `pvPortMalloc`, over the blocks that are too small to the first one that is not, or to the end. -/
theorem findBlock_spec (R : h.Represents L bs) {F₁ F₂ : List (Nat × Nat)} {q need : Nat}
    (hF : pick false L.pucAlignedHeap bs = F₁ ++ F₂) (hshort : ∀ x ∈ F₁, x.2 < need)
    (hq : q = (F₂.map Prod.fst).headD L.endAddress) (hstop : F₂ = [] ∨ ∃ n, need ≤ n ∧ (q, n) ∈ F₂) :
    findBlock h.mem need walkLimit L.xStart (h.mem L.xStart).pxNextFreeBlock =
      some ((F₁.map Prod.fst).getLastD L.xStart, q) := by
  have hb := L.bounds
  have ho := inOrder_pick R.sound R.span
  have hl := R.linked
  rw [hF] at ho hl
  have hpath := (Links.path_cons.mp hl.path).2
  have hpos : ∀ a ∈ (F₁ ++ F₂).map Prod.fst, 0 < a := by
    intro a ha
    obtain ⟨x, hx, rfl⟩ := List.mem_map.mp ha
    have := ho.inside x hx
    omega
  have hnext : ∀ a ∈ (F₁ ++ F₂).map Prod.fst, (h.mem a).pxNextFreeBlock ≠ 0 := by
    intro a ha
    rcases Links.next_of_path hpath ha with h' | h'
    · exact (hpos _ h').ne'
    · rw [h']
      omega
  rw [List.map_append] at hpath
  obtain ⟨r, hp₁, hp₂⟩ := Links.path_append.mp hpath
  have hr : r = q := by
    rw [hq]
    cases F₂ with
    | nil => exact hp₂
    | cons x F₂ => exact hp₂.1
  subst hr
  refine findBlock_of_path hp₁ ?_ ?_ ?_
  · intro a ha
    refine ⟨?_, hnext a (by rw [List.map_append]; exact List.mem_append_left _ ha)⟩
    obtain ⟨x, hx, rfl⟩ := List.mem_map.mp ha
    rw [hl.sizes x (List.mem_append_left _ hx)]
    exact hshort x hx
  · rcases hstop with rfl | ⟨n, hn, hmem⟩
    · obtain rfl : r = L.endAddress := hq
      rw [hl.endMark]
      simp
    · rw [hl.sizes _ (List.mem_append_right F₁ hmem)]
      exact fun h' => Nat.not_lt_of_le hn h'.1
  · have := ho.short
    rw [List.length_append] at this
    rw [List.length_map]
    omega

/-- A request that cannot be met leaves the heap as it is and gives `NULL`. -/
theorem pvPortMalloc_none (R : h.Represents L bs) {n : UInt32} (ha : allot L n.toNat bs = none) :
    pvPortMalloc L h n = some (0, h) := by
  unfold pvPortMalloc
  rw [if_neg R.pxEnd_ne]
  simp only [R.bit]
  by_cases hbig : 2 ^ 31 ≤ n.toNat
  · have hbit : ¬n.toNat &&& 1 <<< 31 = 0 := by
      rw [and_allocatedBit_eq_zero n.toNat_lt]
      omega
    rw [if_neg hbit]
  · rw [if_pos (and_allocatedBit (Nat.lt_of_not_le hbig)), if_neg (not_not.mpr (wantedSize_aligned _))]
    by_cases hneed : wantedSize n.toNat > 0 ∧ wantedSize n.toNat ≤ h.xFreeBytesRemaining
    · have hzero : n.toNat ≠ 0 := by
        intro h0
        rw [h0, wantedSize_zero] at hneed
        exact Nat.lt_irrefl 0 hneed.1
      have htake : take (wantedSize n.toNat) 16 L.pucAlignedHeap bs = none := by
        unfold allot at ha
        rwa [if_neg (by omega)] at ha
      have hfind := findBlock_spec R (List.append_nil _).symm (take_eq_none.mp htake) rfl (Or.inl rfl)
      rw [if_pos hneed, hfind, Option.bind_some]
      simp only [List.map_nil, List.headD_nil]
      rw [if_neg (not_not.mpr R.pxEnd.symm)]
    · rw [if_neg hneed]

/-- A request that can be met is met with the first free block that is large enough. -/
theorem pvPortMalloc_some (R : h.Represents L bs) {n : UInt32} (ha : allot L n.toNat bs = some (p, bs')) :
    ∃ h', pvPortMalloc L h n = some (p + 8, h') ∧ h'.Represents L bs' ∧
      h'.xMinimumEverFreeBytesRemaining = min h.xMinimumEverFreeBytesRemaining h'.xFreeBytesRemaining := by
  have hreq : ¬(n.toNat = 0 ∨ 2 ^ 31 ≤ n.toNat) := by
    intro hor
    rw [allot, if_pos hor] at ha
    cases ha
  rw [allot, if_neg hreq] at ha
  have hpos : 0 < n.toNat := by omega
  obtain ⟨hneed8, hneed, -⟩ := wantedSize_bounds hpos
  generalize hw : wantedSize n.toNat = need at ha hneed8 hneed
  obtain ⟨m, F₁, F₂, U₁, U₂, hle, hshort, hF, hF', hU, hU'⟩ := pick_take ha
  have hmem_p : (p, m) ∈ pick false L.pucAlignedHeap bs := by rw [hF]; simp
  obtain ⟨-, hp8, -, hp₁, hp₂, hsmall⟩ := block_bounds R.sound R.span hmem_p
  have hends := block_ne_ends R.sound R.span hmem_p
  have hfind := findBlock_spec R hF hshort rfl (Or.inr ⟨m, hle, by simp⟩)
  simp only [List.map_cons, List.headD_cons] at hfind
  have ho := inOrder_pick R.sound R.span
  have hl := R.linked
  rw [hF] at ho hl
  have hprev := (hl.remove ho rfl).1
  have hgot : need ≤ got need 16 m ∧ got need 16 m ≤ need + 16 ∧ got need 16 m ≤ m := le_got hle
  obtain ⟨h', halloc, hend, hbit, hl', hp', hkeep, hfree, hmin⟩ := allocateBlock_spec R hF hneed8 (by omega) hle rfl
  have htotal := total_used_add_free L.pucAlignedHeap bs
  have htotal' := total_used_add_free L.pucAlignedHeap bs'
  rw [span_take ha, hU', total_append, total_cons] at htotal'
  rw [hU, total_append] at htotal
  have hfree_le : need ≤ h.xFreeBytesRemaining := by
    rw [R.free]
    exact hle.trans (le_total_of_mem hmem_p)
  refine ⟨h', ?_, ⟨R.sound.take (by omega) hneed8 ha, (span_take ha).trans R.span, hend, hbit, ?_, ?_, ?_⟩, hmin⟩
  · unfold pvPortMalloc
    rw [if_neg R.pxEnd_ne]
    simp only [R.bit, hw]
    have haligned : ¬p + 8 &&& portBYTE_ALIGNMENT_MASK ≠ 0 := by
      rw [and_alignmentMask]
      simp only at hp8
      omega
    rw [if_pos (and_allocatedBit (by omega)), if_neg (by rw [← hw]; exact not_not.mpr (wantedSize_aligned _)),
      if_pos ⟨by omega, hfree_le⟩, hfind, Option.bind_some]
    simp only
    rw [if_pos (by rw [R.pxEnd]; exact hends.2), hprev, xHeapStructSize_eq, if_neg haligned, halloc, Option.map_some]
  · rw [hF']
    exact hl'
  · intro x hx
    rw [hU'] at hx
    rcases List.mem_append.mp hx with hx | hx
    · have hxbs : x ∈ pick true L.pucAlignedHeap bs := by rw [hU]; simp [hx]
      rw [hkeep x hxbs, R.marked x hxbs]
    · rcases List.mem_cons.mp hx with rfl | hx
      · exact hp'
      · have hxbs : x ∈ pick true L.pucAlignedHeap bs := by rw [hU]; simp [hx]
        rw [hkeep x hxbs, R.marked x hxbs]
  · have hfree₀ := R.free
    rw [hfree]
    omega

/-- A write into a block in use, behind its header, changes nothing of the heap. -/
theorem Heap4.Represents.write {n addr : Nat} (R : h.Represents L bs) (hx : (p, n) ∈ pick true L.pucAlignedHeap bs)
    (h₁ : p < addr) (h₂ : addr < p + n) (value : BlockLink) :
    Heap4.Represents L { h with mem := Function.update h.mem addr value } bs := by
  obtain ⟨-, -, -, hp₁, hp₂, -⟩ := block_bounds R.sound R.span hx
  simp only at hp₁ hp₂
  have hne : ∀ u, ∀ y ∈ pick u L.pucAlignedHeap bs, y.1 ≠ addr := by
    intro u y hy
    have hpos := (block_bounds R.sound R.span hy).1
    rcases pick_apart hy hx with ⟨rfl, -⟩ | h' | h'
    · exact h₁.ne
    · simp only at h'
      omega
    · simp only at h'
      omega
  refine ⟨R.sound, R.span, R.pxEnd, R.bit, ?_, ?_, R.free⟩
  · exact R.linked.congr (Function.update_of_ne (L.xStart_ne (by omega) (by omega)) _ _)
      (Function.update_of_ne (by omega) _ _) fun y hy => Function.update_of_ne (hne false y hy) _ _
  · intro y hy
    calc Function.update h.mem addr value y.1 = h.mem y.1 := Function.update_of_ne (hne true y hy) _ _
      _ = ⟨0, y.2 ||| 1 <<< 31⟩ := R.marked y hy

end Represents

end Rtu

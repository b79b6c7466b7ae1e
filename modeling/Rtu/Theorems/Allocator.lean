import Rtu.Lemmas.HeapUse

/-!
# What the allocator promises

Over every run of requests of any size, of frees and of writes of the owners into their own blocks, no call gets stuck and the
blocks handed out never overlap (`heap_blocks_apart`); no byte is lost to the counter or to its low-water mark
(`heap_bytes_counted`); a request fails only when no free block is large enough, so only when the free bytes are few or scattered
between many live blocks (`malloc_fails_iff`); and once everything is freed the heap is as good as new (`heap_recovers`).
-/

namespace Rtu

open Tiling

/-- The pointers that are out are good: aligned, inside the array, each with the header before it, and no two blocks overlap. -/
structure HeapUse.Apart (L : Layout) (s : HeapUse) : Prop where
  stuck : s.stuck = false
  inside : ∀ x ∈ s.live, 8 ∣ x.1 ∧ L.ucHeap + 8 ≤ x.1 ∧ x.1 + x.2 + 8 ≤ L.ucHeap + configTOTAL_HEAP_SIZE
  apart : s.live.Pairwise fun x y => x.1 + x.2 + 8 ≤ y.1 ∨ y.1 + y.2 + 8 ≤ x.1

/-- The bytes that are looked for, for all that is out. -/
def HeapUse.wanted (s : HeapUse) : Nat := (s.live.map fun x => wantedSize x.2).sum

/-- The counter of the free bytes counts those of the blocks in the list, which lie in order and do not touch; what is missing is
what is out, with at most 16 bytes too much for each block. -/
structure HeapUse.Counted (L : Layout) (s : HeapUse) (F : List (Nat × Nat)) : Prop where
  linked : Linked L s.heap.mem F
  sorted : F.Pairwise fun x y => x.1 + x.2 < y.1
  free : s.heap.xFreeBytesRemaining = total F
  atMost : s.heap.xFreeBytesRemaining + s.wanted ≤ L.room
  atLeast : L.room ≤ s.heap.xFreeBytesRemaining + s.wanted + 16 * s.live.length

/-- The mark is the least value that the counter had in a state of the run in which the heap was ready. -/
def LowWater (L : Layout) (mem : Nat → BlockLink) (sched : List HeapCall) : Prop :=
  let run := Runs.run (HeapUse.step L) (.boot mem)
  (∀ pre, pre <+: sched → (run pre).heap.pxEnd ≠ 0 →
      (run sched).heap.xMinimumEverFreeBytesRemaining ≤ (run pre).heap.xFreeBytesRemaining) ∧
    ∃ pre, pre <+: sched ∧ (run pre).heap.pxEnd ≠ 0 ∧
      (run sched).heap.xMinimumEverFreeBytesRemaining = (run pre).heap.xFreeBytesRemaining

namespace AllocatorAux

variable {L : Layout} {s : HeapUse} {e : Estate} {bs : List Block} {owned : List (Nat × Nat)}

theorem apart_of_owns (hstuck : s.stuck = false) (ho : s.Owns L bs owned) : s.Apart L := by
  have hb := L.bounds
  refine ⟨hstuck, ?_, ?_⟩
  · intro x hx
    obtain ⟨b, hmem, hp, hpos, hle, -⟩ := ho.block hx
    obtain ⟨-, h8, -, hlo, hhi, -⟩ := block_bounds ho.represents.sound ho.represents.span hmem
    have hneed := (wantedSize_bounds hpos).2.1
    omega
  · have hsorted : owned.Pairwise fun b c => b.1 + b.2 ≤ c.1 ∨ c.1 + c.2 ≤ b.1 := by
      refine (ho.perm.pairwise_iff fun h => h.symm).mpr ?_
      exact (pick_sorted true L.pucAlignedHeap bs).imp fun h => Or.inl h
    refine pairwise_of_partners ho.holds hsorted ?_
    rintro x y b c ⟨hx, hxpos, hxle, -⟩ ⟨hy, hypos, hyle, -⟩ hbc
    have h1 := (wantedSize_bounds hxpos).2.1
    have h2 := (wantedSize_bounds hypos).2.1
    omega

theorem apart_of_models (hm : s.Models L e) : s.Apart L := by
  rcases hm.order with ⟨-, he⟩ | ⟨owned, ho⟩
  · have hlive : s.live = [] := hm.live.trans (congrArg Estate.live he)
    exact ⟨hm.stuck, by simp [hlive], by rw [hlive]; exact List.Pairwise.nil⟩
  · exact apart_of_owns hm.stuck ho

theorem wanted_le {l m : List (Nat × Nat)} (h : List.Forall₂ BlockOf l m) :
    (l.map fun x => wantedSize x.2).sum ≤ total m ∧ total m ≤ (l.map fun x => wantedSize x.2).sum + 16 * l.length := by
  induction h with
  | nil => simp
  | @cons x b l m hxb _ ih =>
    obtain ⟨-, -, h1, h2⟩ := hxb
    simp only [List.map_cons, List.sum_cons, total_cons, List.length_cons]
    omega

theorem total_perm {l m : List (Nat × Nat)} (h : l.Perm m) : total l = total m := (h.map Prod.snd).sum_eq

theorem counted_of_owns (ho : s.Owns L bs owned) : s.Counted L (pick false L.pucAlignedHeap bs) := by
  have htotal := total_used_add_free L.pucAlignedHeap bs
  obtain ⟨h1, h2⟩ := wanted_le ho.holds
  rw [total_perm ho.perm] at h1 h2
  rw [ho.represents.span] at htotal
  have hfree := ho.represents.free
  refine ⟨ho.represents.linked, ho.represents.sound.pick_sorted_lt _, hfree, ?_, ?_⟩
  · unfold HeapUse.wanted
    omega
  · unfold HeapUse.wanted
    omega

/-- A heap that is ready stays ready. -/
theorem ready_run (ho : s.Owns L bs owned) (sched : List HeapCall) : (Runs.run (HeapUse.step L) s sched).heap.pxEnd ≠ 0 := by
  have hinv : ∃ bs owned, (Runs.run (HeapUse.step L) s sched).Owns L bs owned := by
    refine Runs.run_inv (fun s => ∃ bs owned, HeapUse.Owns L s bs owned) ?_ ⟨bs, owned, ho⟩ sched
    rintro s c ⟨bs, owned, ho⟩
    exact ⟨_, (ho.step c).2.2.1⟩
  obtain ⟨bs', owned', ho'⟩ := hinv
  exact ho'.represents.pxEnd_ne

theorem lowWater_run (L : Layout) (mem : Nat → BlockLink) (sched : List HeapCall)
    (hready : (Runs.run (HeapUse.step L) (.boot mem) sched).heap.pxEnd ≠ 0) : LowWater L mem sched := by
  induction sched using List.reverseRecOn with
  | nil => exact absurd rfl hready
  | append_singleton a c ih =>
    have hm := HeapUse.models_run (HeapUse.models_boot L mem) a
    unfold LowWater at ih ⊢
    simp only [List.prefix_concat_iff, Runs.run_snoc] at ih hready ⊢
    generalize hs : Runs.run (HeapUse.step L) (.boot mem) a = s at hm ih hready ⊢
    rcases hm.order with ⟨hend, he⟩ | ⟨owned, ho⟩
    · -- the heap becomes ready with this call
      have hlive : s.live = [] := hm.live.trans (congrArg Estate.live he)
      rcases HeapUse.step_untouched (L := L) hend hlive c with ⟨heq, -⟩ | heq
      · rw [heq] at hready
        exact absurd hend hready
      · obtain ⟨-, -, ⟨owned, ho⟩, hmin⟩ := (HeapUse.owns_init L s hlive).step c
        have hle := (counted_of_owns ho).atMost
        rw [← heq] at hmin hle
        have hmin' : (s.step L c).heap.xMinimumEverFreeBytesRemaining = (s.step L c).heap.xFreeBytesRemaining := by
          rw [hmin]
          refine Nat.min_eq_right ?_
          exact (Nat.le_add_right _ _).trans hle
        refine ⟨?_, a ++ [c], Or.inl rfl, ?_⟩
        · rintro pre (rfl | ⟨t, rfl⟩) hpre
          · rw [Runs.run_snoc, hs, hmin']
          · have hmp := HeapUse.models_run (HeapUse.models_boot L mem) pre
            obtain ⟨owned, ho⟩ := hmp.owns hpre
            rw [← hs, Runs.run_append] at hend
            exact absurd hend (ready_run ho t)
        · rw [Runs.run_snoc, hs]
          exact ⟨hready, hmin'⟩
    · obtain ⟨-, -, -, hmin⟩ := ho.step c
      obtain ⟨hall, pre₀, hpre₀, hready₀, heq₀⟩ := ih ho.represents.pxEnd_ne
      refine ⟨?_, ?_⟩
      · rintro pre (rfl | hpre) hpre'
        · rw [Runs.run_snoc, hs, hmin]
          exact Nat.min_le_right _ _
        · rw [hmin]
          exact (Nat.min_le_left _ _).trans (hall pre hpre hpre')
      · rcases Nat.le_total s.heap.xMinimumEverFreeBytesRemaining (s.step L c).heap.xFreeBytesRemaining with hle | hle
        · exact ⟨pre₀, Or.inr hpre₀, hready₀, by rw [hmin, Nat.min_eq_left hle, heq₀]⟩
        · refine ⟨a ++ [c], Or.inl rfl, ?_⟩
          rw [Runs.run_snoc, hs]
          exact ⟨hready, by rw [hmin, Nat.min_eq_right hle]⟩

/-- With nothing out, the estate is as at boot. -/
theorem estate_eq_boot (hm : s.Models L e) (hlive : s.live = []) : e = .boot L := by
  rcases hm.order with ⟨-, he⟩ | ⟨owned, ho⟩
  · exact he
  · obtain ⟨blocks, live⟩ := e
    have hperm := ho.perm
    have hholds := ho.holds
    rw [hlive] at hholds
    rw [List.forall₂_nil_left_iff.mp hholds] at hperm
    have hroom := L.room_bounds
    have hspan := ho.represents.span
    have hne : blocks ≠ [] := by
      rintro rfl
      rw [span_nil] at hspan
      omega
    have hsingle := ho.represents.sound.eq_single hne (List.nil_perm.mp hperm)
    simp only at hspan hsingle
    rw [hspan] at hsingle
    obtain rfl : s.live = live := hm.live
    rw [hlive, hsingle]
    rfl

/-- The heap answers like one that is as the estate says. -/
theorem exists_represents (hm : s.Models L e) :
    ∃ h : Heap4, h.Represents L e.blocks ∧ ∀ n, pvPortMalloc L s.heap n = pvPortMalloc L h n := by
  rcases hm.order with ⟨hend, he⟩ | ⟨owned, ho⟩
  · refine ⟨prvHeapInit L s.heap, ?_, fun n => pvPortMalloc_of_pxEnd_eq L hend n⟩
    rw [he]
    exact represents_init L s.heap
  · exact ⟨s.heap, ho.represents, fun _ => rfl⟩

/-- A block that is freed at once leaves the estate as it was. -/
theorem estate_undo {n : UInt32} {p : Nat} {bs' : List Block} (hs : Sound 8 e.blocks)
    (ha : allot L n.toNat e.blocks = some (p, bs')) : (e.step L (.malloc n)).step L (.free (p + 8)) = e := by
  have hgive : give p L.pucAlignedHeap bs' = some e.blocks := by
    have ha' := ha
    unfold allot at ha'
    split at ha'
    · cases ha'
    · exact give_take hs ha'
  have hmalloc : e.step L (.malloc n) = { blocks := bs', live := (p + 8, n.toNat) :: e.live } := by
    rw [Estate.step, ha]
  have hmem : p + 8 ∈ ((p + 8, n.toNat) :: e.live).map Prod.fst := by simp
  rw [hmalloc, Estate.step, if_pos hmem, Nat.add_sub_cancel, hgive]
  simp

end AllocatorAux

open AllocatorAux

/-- In every state of every run, no call has got stuck and the blocks that are out lie apart. -/
theorem heap_blocks_apart (L : Layout) (mem : Nat → BlockLink) (sched : List HeapCall) :
    Runs.Always (HeapUse.step L) (HeapUse.Apart L) (.boot mem) sched := by
  intro pre _
  exact apart_of_models (HeapUse.models_run (HeapUse.models_boot L mem) pre)

/-- A heap at an address as the linker gives it, with the start of the list behind the array. -/
def Layout.sample : Layout where
  ucHeap := 0x10080000
  xStart := 0x10090000
  ucHeap_pos := by decide
  ucHeap_end := by decide
  xStart_apart := by decide

/-- Four blocks, of which the second is freed and then the third, so that the two become one. -/
def holeSample : List HeapCall := [.malloc 20, .malloc 7, .malloc 40, .malloc 12, .free 0x10080028, .free 0x10080038]

theorem ready_sample : (Runs.run (HeapUse.step .sample) (.boot fun _ => ⟨0, 0⟩) holeSample).heap.pxEnd ≠ 0 := by
  decide +kernel

/-- In every run that has made the heap ready, the counters count: the free bytes are those of the list, which is sorted and
coalesced, nothing else is missing than what is out, and the low-water mark is the least value of the counter so far. -/
theorem heap_bytes_counted (L : Layout) (mem : Nat → BlockLink) (sched : List HeapCall)
    (hready : (Runs.run (HeapUse.step L) (.boot mem) sched).heap.pxEnd ≠ 0) :
    (∃ F, (Runs.run (HeapUse.step L) (.boot mem) sched).Counted L F) ∧ LowWater L mem sched := by
  obtain ⟨owned, ho⟩ := (HeapUse.models_run (HeapUse.models_boot L mem) sched).owns hready
  exact ⟨⟨_, counted_of_owns ho⟩, lowWater_run L mem sched hready⟩

theorem heap_bytes_counted_sample :
    (Runs.run (HeapUse.step .sample) (.boot fun _ => ⟨0, 0⟩) holeSample).live.map Prod.fst = [0x10080068, 0x10080008] ∧
      (∃ F, (Runs.run (HeapUse.step .sample) (.boot fun _ => ⟨0, 0⟩) holeSample).Counted .sample F) ∧
      LowWater .sample (fun _ => ⟨0, 0⟩) holeSample :=
  ⟨by decide +kernel, heap_bytes_counted .sample _ holeSample ready_sample⟩

/-- In every run that has made the heap ready, a request always comes back. It gives `NULL` exactly when nothing or too much is
asked for or no block of the list is large enough, and then the free bytes are few for the number of the blocks that are out;
otherwise it gives the first block of the list that is large enough. -/
theorem malloc_fails_iff (L : Layout) (mem : Nat → BlockLink) (sched : List HeapCall) (n : UInt32)
    (hready : (Runs.run (HeapUse.step L) (.boot mem) sched).heap.pxEnd ≠ 0) :
    ∃ pv heap F, pvPortMalloc L (Runs.run (HeapUse.step L) (.boot mem) sched).heap n = some (pv, heap) ∧
      (Runs.run (HeapUse.step L) (.boot mem) sched).Counted L F ∧
      (pv = 0 ↔ n.toNat = 0 ∨ 2 ^ 31 ≤ n.toNat ∨ ∀ x ∈ F, x.2 < wantedSize n.toNat) ∧
      (pv = 0 → n.toNat = 0 ∨ 2 ^ 31 ≤ n.toNat ∨ (Runs.run (HeapUse.step L) (.boot mem) sched).heap.xFreeBytesRemaining ≤
        ((Runs.run (HeapUse.step L) (.boot mem) sched).live.length + 1) * (wantedSize n.toNat - 8)) ∧
      (pv ≠ 0 → ∃ F₁ m F₂, F = F₁ ++ (pv - 8, m) :: F₂ ∧ (∀ x ∈ F₁, x.2 < wantedSize n.toNat) ∧ wantedSize n.toNat ≤ m) := by
  obtain ⟨owned, ho⟩ := (HeapUse.models_run (HeapUse.models_boot L mem) sched).owns hready
  generalize Runs.run (Estate.step L) (.boot L) sched = e at ho
  generalize Runs.run (HeapUse.step L) (.boot mem) sched = s at ho
  cases ha : allot L n.toNat e.blocks with
  | none =>
    have hwhy : n.toNat = 0 ∨ 2 ^ 31 ≤ n.toNat ∨ 0 < n.toNat ∧ take (wantedSize n.toNat) 16 L.pucAlignedHeap e.blocks = none := by
      unfold allot at ha
      split at ha
      · rename_i hor
        exact hor.imp_right Or.inl
      · rename_i hor
        exact Or.inr (Or.inr ⟨by omega, ha⟩)
    refine ⟨0, s.heap, _, pvPortMalloc_none ho.represents ha, counted_of_owns ho, ?_, ?_, fun h => absurd rfl h⟩
    · simp only [true_iff]
      exact hwhy.imp_right (Or.imp_right fun h => take_eq_none.mp h.2)
    · intro _
      refine hwhy.imp_right (Or.imp_right ?_)
      rintro ⟨hpos, htake⟩
      rw [ho.represents.free, ho.holds.length_eq, ho.perm.length_eq]
      exact ho.represents.sound.total_free_le (wantedSize_bounds hpos).1 htake
  | some r =>
    obtain ⟨p, bs'⟩ := r
    obtain ⟨heap, hmalloc, -⟩ := pvPortMalloc_some ho.represents ha
    have hreq : ¬(n.toNat = 0 ∨ 2 ^ 31 ≤ n.toNat) := by
      intro hor
      rw [allot, if_pos hor] at ha
      cases ha
    rw [allot, if_neg hreq] at ha
    obtain ⟨m, F₁, F₂, -, -, hle, hshort, hF, -⟩ := pick_take ha
    refine ⟨p + 8, heap, _, hmalloc, counted_of_owns ho, ?_, fun h => absurd h (Nat.succ_ne_zero _), ?_⟩
    · simp only [Nat.succ_ne_zero, false_iff]
      rintro (h0 | hbig | hall)
      · exact hreq (Or.inl h0)
      · exact hreq (Or.inr hbig)
      · exact Nat.not_lt_of_le hle (hall (p, m) (by rw [hF]; simp))
    · intro _
      exact ⟨F₁, m, F₂, by rw [Nat.add_sub_cancel]; exact hF, hshort, hle⟩

/-- A request that the hole is too small for. -/
theorem malloc_fails_iff_sample :
    ∃ pv heap F, pvPortMalloc .sample (Runs.run (HeapUse.step .sample) (.boot fun _ => ⟨0, 0⟩) holeSample).heap 100 =
        some (pv, heap) ∧
      (Runs.run (HeapUse.step .sample) (.boot fun _ => ⟨0, 0⟩) holeSample).Counted .sample F ∧
      (pv = 0 ↔ (100 : UInt32).toNat = 0 ∨ 2 ^ 31 ≤ (100 : UInt32).toNat ∨ ∀ x ∈ F, x.2 < wantedSize (100 : UInt32).toNat) ∧
      (pv ≠ 0 → ∃ F₁ m F₂, F = F₁ ++ (pv - 8, m) :: F₂ ∧ (∀ x ∈ F₁, x.2 < wantedSize (100 : UInt32).toNat) ∧
        wantedSize (100 : UInt32).toNat ≤ m) :=
  have ⟨pv, heap, F, h1, h2, h3, _, h5⟩ := malloc_fails_iff .sample (fun _ => ⟨0, 0⟩) holeSample 100 ready_sample
  ⟨pv, heap, F, h1, h2, h3, h5⟩

/-- Once nothing is out, the heap is as good as new: whatever is asked for and freed later, the same blocks are handed out as after
boot. -/
theorem heap_recovers (L : Layout) (mem mem' : Nat → BlockLink) (sched later : List HeapCall)
    (hlive : (Runs.run (HeapUse.step L) (.boot mem) sched).live = []) :
    (Runs.run (HeapUse.step L) (.boot mem) (sched ++ later)).live = (Runs.run (HeapUse.step L) (.boot mem') later).live := by
  have hm := HeapUse.models_run (HeapUse.models_boot L mem) sched
  rw [estate_eq_boot hm hlive] at hm
  rw [Runs.run_append, (HeapUse.models_run hm later).live, (HeapUse.models_run (HeapUse.models_boot L mem') later).live]

theorem heap_recovers_sample :
    (Runs.run (HeapUse.step .sample) (.boot fun _ => ⟨0, 0⟩)
        ([.malloc 20, .malloc 7, .free 0x10080008, .free 0x10080028] ++ [.malloc 100])).live =
      (Runs.run (HeapUse.step .sample) (.boot fun _ => ⟨0, 0⟩) [.malloc 100]).live :=
  heap_recovers .sample _ _ [.malloc 20, .malloc 7, .free 0x10080008, .free 0x10080028] [.malloc 100] (by decide +kernel)

/-- A block that is freed before anything else happens leaves no trace: whatever is asked for and freed later, the same blocks are
handed out as without it. -/
theorem malloc_free_later (L : Layout) (mem : Nat → BlockLink) (sched later : List HeapCall) (n : UInt32) {pv : Nat}
    (hmalloc : (pvPortMalloc L (Runs.run (HeapUse.step L) (.boot mem) sched).heap n).map Prod.fst = some pv) (hpv : pv ≠ 0) :
    (Runs.run (HeapUse.step L) (.boot mem) (sched ++ .malloc n :: .free pv :: later)).live =
      (Runs.run (HeapUse.step L) (.boot mem) (sched ++ later)).live := by
  have hm := HeapUse.models_run (HeapUse.models_boot L mem) sched
  rw [Runs.run_append, Runs.run_append]
  generalize Runs.run (HeapUse.step L) (.boot mem) sched = s at hm hmalloc
  generalize Runs.run (Estate.step L) (.boot L) sched = e at hm
  obtain ⟨h, R, hsame⟩ := exists_represents hm
  rw [hsame] at hmalloc
  rw [(HeapUse.models_run hm _).live, (HeapUse.models_run hm later).live, Runs.run_cons, Runs.run_cons]
  cases ha : allot L n.toNat e.blocks with
  | none =>
    rw [pvPortMalloc_none R ha] at hmalloc
    exact absurd (Option.some_inj.mp hmalloc).symm hpv
  | some r =>
    obtain ⟨p, bs'⟩ := r
    obtain ⟨heap', hmalloc', -⟩ := pvPortMalloc_some R ha
    rw [hmalloc'] at hmalloc
    rw [← Option.some_inj.mp hmalloc, estate_undo R.sound ha]

theorem malloc_free_later_sample :
    (Runs.run (HeapUse.step .sample) (.boot fun _ => ⟨0, 0⟩) ([.malloc 20] ++ [.malloc 7, .free 0x10080028, .malloc 100])).live =
      (Runs.run (HeapUse.step .sample) (.boot fun _ => ⟨0, 0⟩) ([.malloc 20] ++ [.malloc 100])).live :=
  malloc_free_later .sample _ [.malloc 20] [.malloc 100] 7 (by decide +kernel) (by decide)

end Rtu

import Rtu.Lemmas.Heap4

/-!
# Who owns which block

What the heap is for: `Estate` is the interval of blocks and the pointers handed out, with neither addresses of list entries nor a
memory. The blocks in use are those that were handed out and not taken back, each large enough for what was asked for. Every call
of `HeapUse` does what `Estate` says, so every run does: `HeapUse.models_run`.
-/

namespace Rtu

open Tiling

/-- A pointer that was handed out, with the size asked for, and the block behind it. -/
def BlockOf (x b : Nat × Nat) : Prop :=
  x.1 = b.1 + 8 ∧ 0 < x.2 ∧ wantedSize x.2 ≤ b.2 ∧ b.2 ≤ wantedSize x.2 + 16

/-- The heap is these blocks, and those in use are those of the live pointers, in the order of `owned`. -/
structure HeapUse.Owns (L : Layout) (s : HeapUse) (bs : List Block) (owned : List (Nat × Nat)) : Prop where
  represents : s.heap.Represents L bs
  perm : owned.Perm (pick true L.pucAlignedHeap bs)
  holds : List.Forall₂ BlockOf s.live owned
  minimum : s.heap.xMinimumEverFreeBytesRemaining ≤ s.heap.xFreeBytesRemaining

/-- The blocks of the heap, and the pointers that were handed out and not taken back. -/
structure Estate where
  blocks : List Block
  live : List (Nat × Nat)

/-- All of the heap is one free block. -/
def Estate.boot (L : Layout) : Estate := { blocks := [⟨L.room, false⟩], live := [] }

/-- A call: `take` for a request, `give` for a pointer that is freed. -/
def Estate.step (L : Layout) (e : Estate) : HeapCall → Estate
  | .malloc n =>
    match allot L n.toNat e.blocks with
    | some (p, blocks) => { blocks, live := (p + 8, n.toNat) :: e.live }
    | none => e
  | .free pv =>
    if pv ∈ e.live.map Prod.fst then
      match give (pv - 8) L.pucAlignedHeap e.blocks with
      | some blocks => { blocks, live := e.live.eraseP fun b => b.1 = pv }
      | none => e
    else e
  | .write _ _ => e

/-- What holds between any two calls: no call got stuck, and the heap is as the estate says, or not even initialised. -/
structure HeapUse.Models (L : Layout) (s : HeapUse) (e : Estate) : Prop where
  stuck : s.stuck = false
  live : s.live = e.live
  order : (s.heap.pxEnd = 0 ∧ e = .boot L) ∨ ∃ owned, s.Owns L e.blocks owned

/-! ## Lists that belong together -/

/-- The partner of an element, and what is before and behind the two. -/
theorem exists_partner {α β : Type} {R : α → β → Prop} {l₁ l₂ : List α} {a : α} {m : List β}
    (h : List.Forall₂ R (l₁ ++ a :: l₂) m) :
    ∃ m₁ b m₂, m = m₁ ++ b :: m₂ ∧ R a b ∧ List.Forall₂ R (l₁ ++ l₂) (m₁ ++ m₂) := by
  induction l₁ generalizing m with
  | nil =>
    obtain ⟨b, m₂, hab, hrest, rfl⟩ := List.forall₂_cons_left_iff.mp h
    exact ⟨[], b, m₂, rfl, hab, hrest⟩
  | cons c l₁ ih =>
    obtain ⟨d, m', hcd, hrest, rfl⟩ := List.forall₂_cons_left_iff.mp h
    obtain ⟨m₁, b, m₂, rfl, hab, hrest⟩ := ih hrest
    exact ⟨d :: m₁, b, m₂, rfl, hab, List.Forall₂.cons hcd hrest⟩

theorem exists_partner_of_mem {α β : Type} {R : α → β → Prop} {l : List α} {a : α} {m : List β} (h : List.Forall₂ R l m)
    (ha : a ∈ l) : ∃ b ∈ m, R a b := by
  obtain ⟨l₁, l₂, rfl⟩ := List.append_of_mem ha
  obtain ⟨m₁, b, m₂, rfl, hab, -⟩ := exists_partner h
  exact ⟨b, by simp, hab⟩

/-- What holds of any two of the partners holds of any two elements. -/
theorem pairwise_of_partners {α β : Type} {R : α → β → Prop} {P : α → α → Prop} {Q : β → β → Prop} {l : List α} {m : List β}
    (h : List.Forall₂ R l m) (hm : m.Pairwise Q) (hPQ : ∀ a b c d, R a c → R b d → Q c d → P a b) : l.Pairwise P := by
  induction h with
  | nil => exact List.Pairwise.nil
  | @cons a c l m hac hlm ih =>
    obtain ⟨hc, hm⟩ := List.pairwise_cons.mp hm
    refine List.Pairwise.cons ?_ (ih hm)
    intro b hb
    obtain ⟨d, hd, hbd⟩ := exists_partner_of_mem hlm hb
    exact hPQ a b c d hac hbd (hc d hd)

namespace HeapUse

variable {L : Layout} {s : HeapUse} {bs : List Block} {owned : List (Nat × Nat)}

theorem step_malloc (L : Layout) (s : HeapUse) (n : UInt32) :
    s.step L (.malloc n) =
      match pvPortMalloc L s.heap n with
      | none => { s with stuck := true }
      | some (pv, heap) => { s with heap, live := if pv = 0 then s.live else (pv, n.toNat) :: s.live } := rfl

theorem step_free (L : Layout) (s : HeapUse) (pv : Nat) :
    s.step L (.free pv) =
      if pv = 0 ∨ pv ∈ s.live.map Prod.fst then
        match vPortFree L s.heap pv with
        | none => { s with stuck := true }
        | some heap => { s with heap, live := s.live.eraseP fun b => b.1 = pv }
      else s := rfl

theorem step_write (L : Layout) (s : HeapUse) (addr : Nat) (value : BlockLink) :
    s.step L (.write addr value) =
      if s.live.any fun b => b.1 ≤ addr ∧ addr < b.1 + b.2 then
        { s with heap := { s.heap with mem := Function.update s.heap.mem addr value } }
      else s := rfl

theorem models_boot (L : Layout) (mem : Nat → BlockLink) : (boot mem).Models L (.boot L) :=
  ⟨rfl, rfl, Or.inl ⟨rfl, rfl⟩⟩

/-- The heap after `prvHeapInit` is owned by nobody. -/
theorem owns_init (L : Layout) (s : HeapUse) (hlive : s.live = []) :
    Owns L { s with heap := prvHeapInit L s.heap } [⟨L.room, false⟩] [] := by
  refine ⟨represents_init L s.heap, by simp [pick], ?_, Nat.le_refl _⟩
  rw [hlive]
  exact List.Forall₂.nil

/-- The block of a live pointer. -/
theorem Owns.block (ho : s.Owns L bs owned) {x : Nat × Nat} (hx : x ∈ s.live) :
    ∃ b ∈ pick true L.pucAlignedHeap bs, BlockOf x b := by
  obtain ⟨b, hb, hxb⟩ := exists_partner_of_mem ho.holds hx
  exact ⟨b, ho.perm.subset hb, hxb⟩

/-- A request that cannot be met changes nothing. -/
theorem Owns.malloc_none (ho : s.Owns L bs owned) {n : UInt32} (ha : allot L n.toNat bs = none) :
    s.step L (.malloc n) = s := by
  rw [step_malloc, pvPortMalloc_none ho.represents ha]
  rfl

/-- A request that can be met gives a new live pointer. -/
theorem Owns.malloc_some (ho : s.Owns L bs owned) {n : UInt32} {p : Nat} {bs' : List Block}
    (ha : allot L n.toNat bs = some (p, bs')) :
    ∃ heap b, pvPortMalloc L s.heap n = some (p + 8, heap) ∧
      s.step L (.malloc n) = { s with heap, live := (p + 8, n.toNat) :: s.live } ∧
      Owns L { s with heap, live := (p + 8, n.toNat) :: s.live } bs' (b :: owned) ∧
      heap.xMinimumEverFreeBytesRemaining = min s.heap.xMinimumEverFreeBytesRemaining heap.xFreeBytesRemaining := by
  obtain ⟨heap, hmalloc, R, hmin⟩ := pvPortMalloc_some ho.represents ha
  have hreq : ¬(n.toNat = 0 ∨ 2 ^ 31 ≤ n.toNat) := by
    intro hor
    rw [allot, if_pos hor] at ha
    cases ha
  rw [allot, if_neg hreq] at ha
  obtain ⟨m, F₁, F₂, U₁, U₂, hle, -, -, -, hU, hU'⟩ := pick_take ha
  have hgot : wantedSize n.toNat ≤ got (wantedSize n.toNat) 16 m ∧ got (wantedSize n.toNat) 16 m ≤ wantedSize n.toNat + 16 ∧
      got (wantedSize n.toNat) 16 m ≤ m := le_got hle
  refine ⟨heap, (p, got (wantedSize n.toNat) 16 m), hmalloc, ?_, ⟨R, ?_, ?_, ?_⟩, hmin⟩
  · rw [step_malloc, hmalloc]
    simp only
    rw [if_neg (Nat.succ_ne_zero _)]
  · have hperm := ho.perm
    rw [hU] at hperm
    rw [hU']
    exact (hperm.cons _).trans List.perm_middle.symm
  · exact List.Forall₂.cons ⟨rfl, by omega, hgot.1, hgot.2.1⟩ ho.holds
  · rw [hmin]
    exact Nat.min_le_right _ _

/-- Freeing a live pointer takes its block back. -/
theorem Owns.free (ho : s.Owns L bs owned) {pv : Nat} (hpv : pv ∈ s.live.map Prod.fst) :
    ∃ heap bs' owned', vPortFree L s.heap pv = some heap ∧
      s.step L (.free pv) = { s with heap, live := s.live.eraseP fun b => b.1 = pv } ∧
      Owns L { s with heap, live := s.live.eraseP fun b => b.1 = pv } bs' owned' ∧
      heap.xMinimumEverFreeBytesRemaining = s.heap.xMinimumEverFreeBytesRemaining ∧
      s.heap.xFreeBytesRemaining ≤ heap.xFreeBytesRemaining ∧
      ∃ p, pv = p + 8 ∧ give p L.pucAlignedHeap bs = some bs' := by
  obtain ⟨x, hx, hxpv⟩ := List.mem_map.mp hpv
  obtain ⟨y, l₁, l₂, -, hy, hlive, herase⟩ := List.exists_of_eraseP (p := fun b => b.1 = pv) hx (by simpa using hxpv)
  have hy' : y.1 = pv := by simpa using hy
  have hholds := ho.holds
  rw [hlive] at hholds
  obtain ⟨m₁, b, m₂, rfl, hyb, hrest⟩ := exists_partner hholds
  have hb : b ∈ pick true L.pucAlignedHeap bs := ho.perm.subset (by simp)
  obtain ⟨bs', hgive⟩ := exists_give hb
  obtain ⟨heap, hfree, R, hbytes, hmin⟩ := vPortFree_spec ho.represents hb hgive
  have hpv_eq : pv = b.1 + 8 := hy'.symm.trans hyb.1
  rw [← hpv_eq] at hfree
  refine ⟨heap, bs', m₁ ++ m₂, hfree, ?_, ⟨R, ?_, ?_, ?_⟩, hmin, by omega, b.1, hpv_eq, hgive⟩
  · rw [step_free, if_pos (Or.inr hpv), hfree]
  · obtain ⟨k, U₁, U₂, hU, hU', -⟩ := pick_give ho.represents.sound hgive
    have hmem : (b.1, k) ∈ pick true L.pucAlignedHeap bs := by rw [hU]; simp
    have hk : b = (b.1, k) := (pick_unique ho.represents.sound.pos hb hmem rfl).1
    have hperm := ho.perm
    rw [hU, ← hk] at hperm
    rw [hU']
    exact (List.perm_middle.symm.trans (hperm.trans List.perm_middle)).cons_inv
  · rw [herase]
    exact hrest
  · have := ho.minimum
    simp only
    omega

/-- A write into a live block leaves the blocks as they are. -/
theorem Owns.write (ho : s.Owns L bs owned) {x : Nat × Nat} (hx : x ∈ s.live) {addr : Nat} (h₁ : x.1 ≤ addr)
    (h₂ : addr < x.1 + x.2) (value : BlockLink) :
    Owns L { s with heap := { s.heap with mem := Function.update s.heap.mem addr value } } bs owned := by
  obtain ⟨⟨p, n⟩, hb, hp, hpos, hle, -⟩ := ho.block hx
  have hneed := (wantedSize_bounds hpos).2.1
  simp only at hp hle
  exact ⟨ho.represents.write hb (by omega) (by omega) value, ho.perm, ho.holds, ho.minimum⟩

/-- What one call does to a heap that is in order is what it does to the estate, and the low-water mark follows the counter. -/
theorem Owns.step (ho : s.Owns L bs owned) (c : HeapCall) :
    (s.step L c).stuck = s.stuck ∧ (s.step L c).live = (Estate.step L ⟨bs, s.live⟩ c).live ∧
      (∃ owned', (s.step L c).Owns L (Estate.step L ⟨bs, s.live⟩ c).blocks owned') ∧
      (s.step L c).heap.xMinimumEverFreeBytesRemaining =
        min s.heap.xMinimumEverFreeBytesRemaining (s.step L c).heap.xFreeBytesRemaining := by
  have hkeep : s.heap.xMinimumEverFreeBytesRemaining =
      min s.heap.xMinimumEverFreeBytesRemaining s.heap.xFreeBytesRemaining := (Nat.min_eq_left ho.minimum).symm
  cases c with
  | malloc n =>
    cases ha : allot L n.toNat bs with
    | none =>
      rw [ho.malloc_none ha, Estate.step, ha]
      exact ⟨rfl, rfl, ⟨owned, ho⟩, hkeep⟩
    | some r =>
      obtain ⟨heap, b, -, hstep, ho', hmin⟩ := ho.malloc_some ha
      rw [hstep, Estate.step, ha]
      exact ⟨rfl, rfl, ⟨_, ho'⟩, hmin⟩
  | free pv =>
    by_cases hlive : pv ∈ s.live.map Prod.fst
    · obtain ⟨heap, bs', owned', -, hstep, ho', hmin, hle, p, rfl, hgive⟩ := ho.free hlive
      rw [hstep, Estate.step, if_pos hlive, Nat.add_sub_cancel, hgive]
      refine ⟨rfl, rfl, ⟨owned', ho'⟩, ?_⟩
      have := ho.minimum
      simp only
      omega
    · have hstep : HeapUse.step L s (.free pv) = s := by
        rw [step_free]
        by_cases h0 : pv = 0
        · subst h0
          rw [if_pos (Or.inl rfl), vPortFree, if_pos rfl]
          have herase : (s.live.eraseP fun b => b.1 = 0) = s.live := by
            refine List.eraseP_of_forall_not ?_
            intro b hb hb0
            exact hlive (List.mem_map.mpr ⟨b, hb, by simpa using hb0⟩)
          simp only [herase]
        · rw [if_neg (not_or.mpr ⟨h0, hlive⟩)]
      rw [hstep, Estate.step, if_neg hlive]
      exact ⟨rfl, rfl, ⟨owned, ho⟩, hkeep⟩
  | write addr value =>
    rw [step_write]
    split
    · rename_i hany
      obtain ⟨x, hx, hin⟩ := List.any_eq_true.mp hany
      obtain ⟨h₁, h₂⟩ := of_decide_eq_true hin
      exact ⟨rfl, rfl, ⟨owned, ho.write hx h₁ h₂ value⟩, hkeep⟩
    · exact ⟨rfl, rfl, ⟨owned, ho⟩, hkeep⟩

/-- What one call does to a heap that no call has touched: only a request makes it ready, and then everything is as after
`prvHeapInit` and that request. -/
theorem step_untouched (hend : s.heap.pxEnd = 0) (hlive : s.live = []) (c : HeapCall) :
    (s.step L c = s ∧ Estate.step L (.boot L) c = .boot L) ∨
      s.step L c = step L { s with heap := prvHeapInit L s.heap } c := by
  cases c with
  | malloc n =>
    refine Or.inr ?_
    rw [step_malloc, step_malloc, pvPortMalloc_of_pxEnd_eq L hend]
    cases hm : pvPortMalloc L (prvHeapInit L s.heap) n with
    | none =>
      -- a heap that is ready always answers
      cases ha : allot L n.toNat [⟨L.room, false⟩] with
      | none =>
        rw [pvPortMalloc_none (represents_init L s.heap) ha] at hm
        cases hm
      | some r =>
        obtain ⟨heap, hsome, -⟩ := pvPortMalloc_some (represents_init L s.heap) ha
        rw [hsome] at hm
        cases hm
    | some r => rfl
  | free pv =>
    refine Or.inl ⟨?_, rfl⟩
    rw [step_free]
    by_cases h0 : pv = 0
    · rw [if_pos (Or.inl h0), vPortFree, if_pos h0]
      simp only [hlive, List.eraseP_nil]
      rw [← hlive]
    · rw [hlive, if_neg (by simpa using h0)]
  | write addr value =>
    refine Or.inl ⟨?_, rfl⟩
    rw [step_write, hlive]
    simp

/-- Every call does what the estate says. -/
theorem models_step {e : Estate} (h : s.Models L e) (c : HeapCall) : (s.step L c).Models L (e.step L c) := by
  obtain ⟨blocks, live⟩ := e
  obtain rfl : s.live = live := h.live
  rcases h.order with ⟨hend, he⟩ | ⟨owned, ho⟩
  · have hlive : s.live = [] := congrArg Estate.live he
    have hblocks : blocks = [⟨L.room, false⟩] := congrArg Estate.blocks he
    rcases step_untouched hend hlive c with ⟨heq, heq'⟩ | heq
    · rw [heq, he, heq']
      exact ⟨h.stuck, hlive, Or.inl ⟨hend, rfl⟩⟩
    · obtain ⟨hstuck, hl, howns, -⟩ := (owns_init L s hlive).step c
      rw [heq, hblocks]
      exact ⟨hstuck.trans h.stuck, hl, Or.inr howns⟩
  · obtain ⟨hstuck, hl, howns, -⟩ := ho.step c
    exact ⟨hstuck.trans h.stuck, hl, Or.inr howns⟩

/-- So does every run. -/
theorem models_run {e : Estate} (h : s.Models L e) (sched : List HeapCall) :
    (Runs.run (step L) s sched).Models L (Runs.run (Estate.step L) e sched) := by
  simpa using Runs.run_sim (Models L) id (fun _ _ c h => models_step h c) h sched

/-- A heap that is ready is as the estate says. -/
theorem Models.owns {e : Estate} (h : s.Models L e) (hready : s.heap.pxEnd ≠ 0) : ∃ owned, s.Owns L e.blocks owned :=
  h.order.resolve_left fun h' => hready h'.1

end HeapUse

end Rtu

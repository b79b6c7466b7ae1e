import Mathlib.Data.List.Chain
import Mathlib.Data.List.Flatten
import Mathlib.Algebra.BigOperators.Group.List.Basic
import Mathlib.Tactic.Ring

/-!
# Blocks of an interval

An interval cut into blocks, the lowest first: each block starts where the one before it ends, so the blocks neither overlap
nor leave a gap. `take` hands out the first free block that is long enough and cuts off what is too much of it, `give` takes
a block back and joins it with its free neighbours. `insert` is the second one on the free blocks alone, sorted by address.
Nothing here names a particular memory.
-/

namespace Tiling

/-- A block: how long it is, and whether it is in use. -/
structure Block where
  size : Nat
  used : Bool
deriving DecidableEq, Repr

/-- How long the blocks are together. -/
def span : List Block → Nat
  | [] => 0
  | b :: bs => b.size + span bs

/-- The addresses and lengths of the blocks that are in use, or of those that are not. -/
def pick (used : Bool) : Nat → List Block → List (Nat × Nat)
  | _, [] => []
  | a, b :: bs => if b.used = used then (a, b.size) :: pick used (a + b.size) bs else pick used (a + b.size) bs

/-- How long some of the blocks are together. -/
def total (l : List (Nat × Nat)) : Nat := (l.map Prod.snd).sum

/-- A free block put before others, joined with the first of them if that is free. -/
def join (n : Nat) : List Block → List Block
  | ⟨m, false⟩ :: bs => ⟨n + m, false⟩ :: bs
  | bs => ⟨n, false⟩ :: bs

/-- What is left of a free block, handed out for `need`: a rest of more than `least` is cut off. -/
def carve (need least : Nat) (n : Nat) (bs : List Block) : List Block :=
  if least < n - need then ⟨need, true⟩ :: ⟨n - need, false⟩ :: bs else ⟨n, true⟩ :: bs

/-- Hands out the first free block of at least `need`: its address, and the blocks afterwards. -/
def take (need least : Nat) : Nat → List Block → Option (Nat × List Block)
  | _, [] => none
  | a, b :: bs =>
    if b.used = false ∧ need ≤ b.size then some (a, carve need least b.size bs)
    else (take need least (a + b.size) bs).map fun r => (r.1, b :: r.2)

/-- Takes the block in use at `p` back, joined with its free neighbours. -/
def give (p : Nat) : Nat → List Block → Option (List Block)
  | _, [] => none
  | a, ⟨n, true⟩ :: bs => if a = p then some (join n bs) else (give p (a + n) bs).map (⟨n, true⟩ :: ·)
  | a, ⟨n, false⟩ :: bs => (give p (a + n) bs).map (join n)

/-- What holds of the blocks between any two operations: none is empty, all lengths are multiples of the grain, and no two
free blocks touch. -/
structure Sound (grain : Nat) (bs : List Block) : Prop where
  pos : ∀ b ∈ bs, 0 < b.size
  grains : ∀ b ∈ bs, grain ∣ b.size
  apart : bs.IsChain fun b c => b.used = true ∨ c.used = true

variable {u v : Bool} {a p n need least grain : Nat} {b : Block} {bs bs' cs pre post : List Block}

@[simp] theorem span_nil : span [] = 0 := rfl

@[simp] theorem span_cons (b : Block) (bs : List Block) : span (b :: bs) = b.size + span bs := rfl

@[simp] theorem span_append (bs cs : List Block) : span (bs ++ cs) = span bs + span cs := by
  induction bs with
  | nil => simp
  | cons b bs ih => rw [List.cons_append, span_cons, span_cons, ih, Nat.add_assoc]

/-- A span of multiples is a multiple. -/
theorem dvd_span (h : ∀ b ∈ bs, grain ∣ b.size) : grain ∣ span bs := by
  induction bs with
  | nil => exact Nat.dvd_zero grain
  | cons b bs ih =>
    obtain ⟨hb, hrest⟩ := List.forall_mem_cons.mp h
    exact Nat.dvd_add hb (ih hrest)

/-- Joining keeps the length. -/
@[simp] theorem span_join (n : Nat) (bs : List Block) : span (join n bs) = n + span bs := by
  unfold join
  split <;> simp [Nat.add_assoc]

/-! ## The blocks of one kind -/

@[simp] theorem pick_nil (u : Bool) (a : Nat) : pick u a [] = [] := rfl

theorem pick_cons_of_eq (h : b.used = u) : pick u a (b :: bs) = (a, b.size) :: pick u (a + b.size) bs := if_pos h

theorem pick_cons_of_ne (h : b.used ≠ u) : pick u a (b :: bs) = pick u (a + b.size) bs := if_neg h

theorem pick_self (u : Bool) (a m : Nat) (bs : List Block) : pick u a (⟨m, u⟩ :: bs) = (a, m) :: pick u (a + m) bs :=
  if_pos rfl

theorem pick_other (h : v ≠ u) (a m : Nat) (bs : List Block) : pick u a (⟨m, v⟩ :: bs) = pick u (a + m) bs := if_neg h

theorem pick_append (u : Bool) (a : Nat) (bs cs : List Block) :
    pick u a (bs ++ cs) = pick u a bs ++ pick u (a + span bs) cs := by
  induction bs generalizing a with
  | nil => simp
  | cons b bs ih =>
    rw [List.cons_append, pick, pick, ih, span_cons, Nat.add_assoc]
    split <;> rfl

/-- A block of the kind asked for, and what is before and behind it. -/
theorem mem_pick {x : Nat × Nat} :
    x ∈ pick u a bs ↔ ∃ pre post, bs = pre ++ ⟨x.2, u⟩ :: post ∧ x.1 = a + span pre := by
  constructor
  · induction bs generalizing a with
    | nil => simp
    | cons b bs ih =>
      intro hx
      by_cases hb : b.used = u
      · rw [pick_cons_of_eq hb] at hx
        rcases List.mem_cons.mp hx with rfl | hx
        · subst hb
          exact ⟨[], bs, rfl, rfl⟩
        · obtain ⟨pre, post, rfl, hp⟩ := ih hx
          exact ⟨b :: pre, post, rfl, by rw [hp, span_cons, Nat.add_assoc]⟩
      · rw [pick_cons_of_ne hb] at hx
        obtain ⟨pre, post, rfl, hp⟩ := ih hx
        exact ⟨b :: pre, post, rfl, by rw [hp, span_cons, Nat.add_assoc]⟩
  · rintro ⟨pre, post, rfl, hp⟩
    rw [pick_append, ← hp, pick_self]
    simp

/-- A block lies in the interval. -/
theorem bounds_of_mem_pick {x : Nat × Nat} (h : x ∈ pick u a bs) : a ≤ x.1 ∧ x.1 + x.2 ≤ a + span bs := by
  obtain ⟨pre, post, rfl, hp⟩ := mem_pick.mp h
  simp only [hp, span_append, span_cons]
  omega

/-- Two blocks of the interval are the same one or do not overlap. -/
theorem pick_apart {x y : Nat × Nat} (hx : x ∈ pick u a bs) (hy : y ∈ pick v a bs) :
    (x = y ∧ u = v) ∨ x.1 + x.2 ≤ y.1 ∨ y.1 + y.2 ≤ x.1 := by
  induction bs generalizing a with
  | nil => simp at hx
  | cons b bs ih =>
    by_cases hbu : b.used = u
    · rw [pick_cons_of_eq hbu] at hx
      by_cases hbv : b.used = v
      · rw [pick_cons_of_eq hbv] at hy
        rcases List.mem_cons.mp hx with rfl | hx
        · rcases List.mem_cons.mp hy with rfl | hy
          · exact Or.inl ⟨rfl, hbu.symm.trans hbv⟩
          · exact Or.inr (Or.inl (bounds_of_mem_pick hy).1)
        · rcases List.mem_cons.mp hy with rfl | hy
          · exact Or.inr (Or.inr (bounds_of_mem_pick hx).1)
          · exact ih hx hy
      · rw [pick_cons_of_ne hbv] at hy
        rcases List.mem_cons.mp hx with rfl | hx
        · exact Or.inr (Or.inl (bounds_of_mem_pick hy).1)
        · exact ih hx hy
    · rw [pick_cons_of_ne hbu] at hx
      by_cases hbv : b.used = v
      · rw [pick_cons_of_eq hbv] at hy
        rcases List.mem_cons.mp hy with rfl | hy
        · exact Or.inr (Or.inr (bounds_of_mem_pick hx).1)
        · exact ih hx hy
      · rw [pick_cons_of_ne hbv] at hy
        exact ih hx hy

/-- Two blocks of nonzero length at one address are the same one. -/
theorem pick_unique (hpos : ∀ b ∈ bs, 0 < b.size) {x y : Nat × Nat} (hx : x ∈ pick u a bs) (hy : y ∈ pick v a bs)
    (h : x.1 = y.1) : x = y ∧ u = v := by
  have hxp : 0 < x.2 := by
    obtain ⟨pre, post, rfl, -⟩ := mem_pick.mp hx
    exact hpos ⟨x.2, u⟩ (by simp)
  have hyp : 0 < y.2 := by
    obtain ⟨pre, post, rfl, -⟩ := mem_pick.mp hy
    exact hpos ⟨y.2, v⟩ (by simp)
  rcases pick_apart hx hy with h' | h' | h'
  · exact h'
  · omega
  · omega

/-- The blocks of one kind, in the order of their addresses. -/
theorem pick_sorted (u : Bool) (a : Nat) (bs : List Block) : (pick u a bs).Pairwise fun x y => x.1 + x.2 ≤ y.1 := by
  induction bs generalizing a with
  | nil => exact List.Pairwise.nil
  | cons b bs ih =>
    by_cases hb : b.used = u
    · rw [pick_cons_of_eq hb]
      exact List.Pairwise.cons (fun y hy => (bounds_of_mem_pick hy).1) (ih _)
    · rw [pick_cons_of_ne hb]
      exact ih _

@[simp] theorem total_nil : total [] = 0 := rfl

@[simp] theorem total_cons (x : Nat × Nat) (l : List (Nat × Nat)) : total (x :: l) = x.2 + total l := by
  simp [total]

@[simp] theorem total_append (l l' : List (Nat × Nat)) : total (l ++ l') = total l + total l' := by
  simp [total]

/-- Blocks of nonzero length are no more than they are long together. -/
theorem length_le_total {l : List (Nat × Nat)} (h : ∀ x ∈ l, 0 < x.2) : l.length ≤ total l := by
  induction l with
  | nil => exact Nat.le_refl 0
  | cons x l ih =>
    obtain ⟨hx, hrest⟩ := List.forall_mem_cons.mp h
    have := ih hrest
    rw [total_cons, List.length_cons]
    omega

theorem le_total_of_mem {x : Nat × Nat} {l : List (Nat × Nat)} (h : x ∈ l) : x.2 ≤ total l := by
  induction l with
  | nil => cases h
  | cons y l ih =>
    rw [total_cons]
    rcases List.mem_cons.mp h with rfl | h
    · exact Nat.le_add_right _ _
    · exact (ih h).trans (Nat.le_add_left _ _)

/-- What is in use and what is free make up the interval. -/
theorem total_used_add_free (a : Nat) (bs : List Block) : total (pick true a bs) + total (pick false a bs) = span bs := by
  induction bs generalizing a with
  | nil => rfl
  | cons b bs ih =>
    have h := ih (a + b.size)
    cases hb : b.used
    · rw [pick_cons_of_eq hb, pick_cons_of_ne (by simp [hb]), total_cons, span_cons]
      omega
    · rw [pick_cons_of_eq hb, pick_cons_of_ne (by simp [hb]), total_cons, span_cons]
      omega

/-! ## Soundness -/

theorem Sound.nil : Sound grain [] := ⟨by simp, by simp, List.IsChain.nil⟩

/-- One free block is sound. -/
theorem Sound.single (h : 0 < n) (hg : grain ∣ n) : Sound grain [⟨n, false⟩] :=
  ⟨by simpa using h, by simpa using hg, List.isChain_singleton _⟩

theorem Sound.tail (h : Sound grain (b :: bs)) : Sound grain bs :=
  ⟨fun c hc => h.pos c (List.mem_cons_of_mem b hc), fun c hc => h.grains c (List.mem_cons_of_mem b hc), h.apart.tail⟩

theorem Sound.head_pos (h : Sound grain (b :: bs)) : 0 < b.size := h.pos b List.mem_cons_self

theorem Sound.head_grains (h : Sound grain (b :: bs)) : grain ∣ b.size := h.grains b List.mem_cons_self

/-- A block in use may stand before any others. -/
theorem Sound.cons_used (h : Sound grain bs) (hn : 0 < n) (hg : grain ∣ n) : Sound grain (⟨n, true⟩ :: bs) := by
  refine ⟨?_, ?_, ?_⟩
  · intro c hc
    rcases List.mem_cons.mp hc with rfl | hc
    · exact hn
    · exact h.pos c hc
  · intro c hc
    rcases List.mem_cons.mp hc with rfl | hc
    · exact hg
    · exact h.grains c hc
  · cases bs with
    | nil => exact List.isChain_singleton _
    | cons c bs => exact List.IsChain.cons_cons (Or.inl rfl) h.apart

/-- A free block may be joined to any others. -/
theorem Sound.join (h : Sound grain bs) (hn : 0 < n) (hg : grain ∣ n) : Sound grain (join n bs) := by
  cases bs with
  | nil => exact Sound.single hn hg
  | cons c bs =>
    obtain ⟨m, used⟩ := c
    cases used with
    | false =>
      refine ⟨?_, ?_, ?_⟩
      · intro c hc
        rcases List.mem_cons.mp hc with rfl | hc
        · exact Nat.lt_of_lt_of_le hn (Nat.le_add_right n m)
        · exact h.tail.pos c hc
      · intro c hc
        rcases List.mem_cons.mp hc with rfl | hc
        · exact Nat.dvd_add hg h.head_grains
        · exact h.tail.grains c hc
      · have ha := h.apart
        cases bs with
        | nil => exact List.isChain_singleton _
        | cons d bs =>
          obtain ⟨h1, h2⟩ := List.isChain_cons_cons.mp ha
          exact List.IsChain.cons_cons h1 h2
    | true =>
      refine ⟨?_, ?_, ?_⟩
      · intro c hc
        rcases List.mem_cons.mp hc with rfl | hc
        · exact hn
        · exact h.pos c hc
      · intro c hc
        rcases List.mem_cons.mp hc with rfl | hc
        · exact hg
        · exact h.grains c hc
      · exact List.IsChain.cons_cons (Or.inr rfl) h.apart

/-- In sound blocks the one behind a free block is in use, so a free block in front is left as it is. -/
theorem Sound.join_eq (h : Sound grain (⟨n, false⟩ :: bs)) : Tiling.join n bs = ⟨n, false⟩ :: bs := by
  cases bs with
  | nil => rfl
  | cons c bs =>
    obtain ⟨m, used⟩ := c
    cases used with
    | false =>
      rcases (List.isChain_cons_cons.mp h.apart).1 with h' | h'
      · cases h'
      · cases h'
    | true => rfl

/-- In sound blocks the one behind a free block is in use. -/
theorem Sound.head_used (h : Sound grain (⟨n, false⟩ :: bs)) : ∀ c ∈ bs.head?, c.used = true := by
  intro c hc
  cases bs with
  | nil => cases hc
  | cons d bs =>
    obtain rfl : d = c := Option.some_inj.mp hc
    exact (List.isChain_cons_cons.mp h.apart).1.resolve_left Bool.false_ne_true

/-- A free block may stand before a block in use. -/
theorem Sound.cons_free (h : Sound grain bs) (hu : ∀ c ∈ bs.head?, c.used = true) (hn : 0 < n) (hg : grain ∣ n) :
    Sound grain (⟨n, false⟩ :: bs) := by
  have hj := h.join hn hg
  cases bs with
  | nil => exact hj
  | cons c bs =>
    obtain ⟨m, used⟩ := c
    obtain rfl : used = true := hu _ rfl
    exact hj

/-! ## Handing out -/

theorem take_cons_of_fits (hb : b.used = false) (hn : need ≤ b.size) :
    take need least a (b :: bs) = some (a, carve need least b.size bs) := if_pos ⟨hb, hn⟩

theorem take_cons_of_not (h : ¬(b.used = false ∧ need ≤ b.size)) :
    take need least a (b :: bs) = (take need least (a + b.size) bs).map fun r => (r.1, b :: r.2) := if_neg h

/-- Nothing is handed out exactly when every free block is too short. -/
theorem take_eq_none : take need least a bs = none ↔ ∀ x ∈ pick false a bs, x.2 < need := by
  induction bs generalizing a with
  | nil => simp [take]
  | cons b bs ih =>
    by_cases hf : b.used = false ∧ need ≤ b.size
    · rw [take_cons_of_fits hf.1 hf.2, pick_cons_of_eq hf.1]
      simp only [reduceCtorEq, false_iff]
      intro h
      exact Nat.not_lt_of_le hf.2 (h _ List.mem_cons_self)
    · rw [take_cons_of_not hf, Option.map_eq_none_iff, ih]
      by_cases hb : b.used = false
      · have hlt : b.size < need := Nat.lt_of_not_le fun hn => hf ⟨hb, hn⟩
        rw [pick_cons_of_eq hb, List.forall_mem_cons]
        exact (and_iff_right hlt).symm
      · rw [pick_cons_of_ne hb]

/-- What was handed out, and where it was: no free block before it is long enough. -/
theorem take_eq_some (h : take need least a bs = some (p, bs')) :
    ∃ pre n post, bs = pre ++ ⟨n, false⟩ :: post ∧ (∀ x ∈ pick false a pre, x.2 < need) ∧ need ≤ n ∧ p = a + span pre ∧
      bs' = pre ++ carve need least n post := by
  induction bs generalizing a bs' with
  | nil => cases h
  | cons b bs ih =>
    by_cases hf : b.used = false ∧ need ≤ b.size
    · rw [take_cons_of_fits hf.1 hf.2] at h
      obtain ⟨rfl, rfl⟩ := Prod.mk.inj (Option.some_inj.mp h)
      obtain ⟨m, used⟩ := b
      obtain rfl : used = false := hf.1
      exact ⟨[], m, bs, rfl, by simp, hf.2, rfl, rfl⟩
    · rw [take_cons_of_not hf, Option.map_eq_some_iff] at h
      obtain ⟨⟨q, cs⟩, hr, he⟩ := h
      obtain ⟨rfl, rfl⟩ := Prod.mk.inj he
      obtain ⟨pre, n, post, rfl, hpre, hn, rfl, rfl⟩ := ih hr
      refine ⟨b :: pre, n, post, rfl, ?_, hn, by rw [span_cons, Nat.add_assoc], rfl⟩
      by_cases hb : b.used = false
      · have hlt : b.size < need := Nat.lt_of_not_le fun hn => hf ⟨hb, hn⟩
        rw [pick_cons_of_eq hb, List.forall_mem_cons]
        exact ⟨hlt, hpre⟩
      · rw [pick_cons_of_ne hb]
        exact hpre

/-- The block handed out is as long as asked for if a rest was cut off, and whole otherwise. -/
def got (need least n : Nat) : Nat := if least < n - need then need else n

/-- The rest that was cut off the block at `p`, if any. -/
def rest (need least p n : Nat) : List (Nat × Nat) := if least < n - need then [(p + need, n - need)] else []

theorem le_got (h : need ≤ n) : need ≤ got need least n ∧ got need least n ≤ need + least ∧ got need least n ≤ n := by
  unfold got
  split <;> omega

@[simp] theorem span_carve (h : need ≤ n) : span (carve need least n bs) = n + span bs := by
  unfold carve
  split
  · simp only [span_cons]
    omega
  · rfl

theorem pick_carve (h : need ≤ n) (u : Bool) (a : Nat) :
    pick u a (carve need least n bs) =
      (if u then [(a, got need least n)] else rest need least a n) ++ pick u (a + n) bs := by
  have hsum : a + need + (n - need) = a + n := by omega
  unfold carve got rest
  cases u <;> split <;> simp [pick, hsum]

/-- Handing out, on the free blocks and on those in use: the first free block that is long enough goes, and its rest stays. -/
theorem pick_take (h : take need least a bs = some (p, bs')) :
    ∃ n F₁ F₂ U₁ U₂, need ≤ n ∧ (∀ x ∈ F₁, x.2 < need) ∧
      pick false a bs = F₁ ++ (p, n) :: F₂ ∧ pick false a bs' = F₁ ++ rest need least p n ++ F₂ ∧
      pick true a bs = U₁ ++ U₂ ∧ pick true a bs' = U₁ ++ (p, got need least n) :: U₂ := by
  obtain ⟨pre, n, post, rfl, hpre, hn, rfl, rfl⟩ := take_eq_some h
  refine ⟨n, pick false a pre, pick false (a + span pre + n) post, pick true a pre, pick true (a + span pre + n) post, hn,
    hpre, ?_, ?_, ?_, ?_⟩
  · rw [pick_append]
    rfl
  · rw [pick_append, pick_carve hn, List.append_assoc]
    rfl
  · rw [pick_append]
    rfl
  · rw [pick_append, pick_carve hn]
    rfl

/-- Handing out keeps the length of the interval. -/
theorem span_take (h : take need least a bs = some (p, bs')) : span bs' = span bs := by
  obtain ⟨pre, n, post, rfl, -, hn, -, rfl⟩ := take_eq_some h
  rw [span_append, span_append, span_carve hn, span_cons]

/-- A block in use at the head stays there. -/
theorem take_head_used (h : take need least a bs = some (p, bs')) (hu : ∀ c ∈ bs.head?, c.used = true) :
    ∀ c ∈ bs'.head?, c.used = true := by
  cases bs with
  | nil => cases h
  | cons b bs =>
    have hb := hu b rfl
    have hf : ¬(b.used = false ∧ need ≤ b.size) := by simp [hb]
    rw [take_cons_of_not hf, Option.map_eq_some_iff] at h
    obtain ⟨r, -, he⟩ := h
    obtain ⟨-, rfl⟩ := Prod.mk.inj he
    intro c hc
    obtain rfl : b = c := Option.some_inj.mp hc
    exact hb

/-- Handing out keeps the blocks sound. -/
theorem Sound.take (hs : Sound grain bs) (hneed : 0 < need) (hg : grain ∣ need)
    (h : Tiling.take need least a bs = some (p, bs')) : Sound grain bs' := by
  induction bs generalizing a bs' with
  | nil => cases h
  | cons b bs ih =>
    obtain ⟨m, used⟩ := b
    by_cases hf : used = false ∧ need ≤ m
    · obtain ⟨rfl, hm⟩ := hf
      rw [take_cons_of_fits rfl hm] at h
      obtain ⟨-, rfl⟩ := Prod.mk.inj (Option.some_inj.mp h)
      unfold carve
      split
      · rename_i hlt
        have hrest : 0 < m - need := Nat.lt_of_le_of_lt (Nat.zero_le _) hlt
        exact (hs.tail.cons_free hs.head_used hrest (Nat.dvd_sub hs.head_grains hg)).cons_used hneed hg
      · exact hs.tail.cons_used hs.head_pos hs.head_grains
    · rw [take_cons_of_not hf, Option.map_eq_some_iff] at h
      obtain ⟨⟨q, cs⟩, hr, he⟩ := h
      obtain ⟨rfl, rfl⟩ := Prod.mk.inj he
      cases used with
      | true => exact (ih hs.tail hr).cons_used hs.head_pos hs.head_grains
      | false => exact (ih hs.tail hr).cons_free (take_head_used hr hs.head_used) hs.head_pos hs.head_grains

/-! ## Taking back -/

/-- A block in use can be taken back. -/
theorem exists_give {x : Nat × Nat} (hx : x ∈ pick true a bs) : ∃ bs', give x.1 a bs = some bs' := by
  induction bs generalizing a with
  | nil => cases hx
  | cons b bs ih =>
    obtain ⟨m, used⟩ := b
    cases used with
    | false =>
      obtain ⟨cs, hcs⟩ := ih (by rwa [pick_other (by simp)] at hx)
      exact ⟨join m cs, by rw [give, hcs, Option.map_some]⟩
    | true =>
      by_cases ha : a = x.1
      · exact ⟨join m bs, by rw [give, if_pos ha]⟩
      · rw [pick_self] at hx
        rcases List.mem_cons.mp hx with rfl | hx
        · exact absurd rfl ha
        · obtain ⟨cs, hcs⟩ := ih hx
          exact ⟨⟨m, true⟩ :: cs, by rw [give, if_neg ha, hcs, Option.map_some]⟩

/-- Taking back keeps the length of the interval. -/
theorem span_give (h : give p a bs = some bs') : span bs' = span bs := by
  induction bs generalizing a bs' with
  | nil => cases h
  | cons b bs ih =>
    obtain ⟨m, used⟩ := b
    cases used with
    | false =>
      rw [give, Option.map_eq_some_iff] at h
      obtain ⟨cs, hcs, rfl⟩ := h
      rw [span_join, ih hcs, span_cons]
    | true =>
      rw [give] at h
      split at h
      · rw [← Option.some_inj.mp h, span_join, span_cons]
      · obtain ⟨cs, hcs, rfl⟩ := Option.map_eq_some_iff.mp h
        rw [span_cons, span_cons, ih hcs]

/-- Taking back keeps the blocks sound. -/
theorem Sound.give (hs : Sound grain bs) (h : Tiling.give p a bs = some bs') : Sound grain bs' := by
  induction bs generalizing a bs' with
  | nil => cases h
  | cons b bs ih =>
    obtain ⟨m, used⟩ := b
    cases used with
    | false =>
      rw [Tiling.give, Option.map_eq_some_iff] at h
      obtain ⟨cs, hcs, rfl⟩ := h
      exact (ih hs.tail hcs).join hs.head_pos hs.head_grains
    | true =>
      rw [Tiling.give] at h
      split at h
      · rw [← Option.some_inj.mp h]
        exact hs.tail.join hs.head_pos hs.head_grains
      · obtain ⟨cs, hcs, rfl⟩ := Option.map_eq_some_iff.mp h
        exact (ih hs.tail hcs).cons_used hs.head_pos hs.head_grains

/-- What was handed out and is taken back at once leaves the blocks as they were. -/
theorem give_take (hs : Sound grain bs) (h : take need least a bs = some (p, bs')) : give p a bs' = some bs := by
  induction bs generalizing a bs' with
  | nil => cases h
  | cons b bs ih =>
    obtain ⟨m, used⟩ := b
    by_cases hf : used = false ∧ need ≤ m
    · obtain ⟨rfl, hm⟩ := hf
      rw [take_cons_of_fits rfl hm] at h
      obtain ⟨rfl, rfl⟩ := Prod.mk.inj (Option.some_inj.mp h)
      unfold carve
      split
      · rw [give, if_pos rfl, join, Nat.add_sub_cancel' hm]
      · rw [give, if_pos rfl, hs.join_eq]
    · rw [take_cons_of_not hf, Option.map_eq_some_iff] at h
      obtain ⟨⟨q, cs⟩, hr, he⟩ := h
      obtain ⟨rfl, rfl⟩ := Prod.mk.inj he
      cases used with
      | false => rw [give, ih hs.tail hr, Option.map_some, hs.join_eq]
      | true =>
        obtain ⟨pre, n, post, -, -, -, hp, -⟩ := take_eq_some hr
        have hlt : a < q := by
          have := hs.head_pos
          simp only at this hp
          omega
        rw [give, if_neg hlt.ne, ih hs.tail hr, Option.map_some]

/-! ## The free blocks alone -/

/-- A free block put before others, joined with the first of them if they touch. -/
def fuse (a n : Nat) : List (Nat × Nat) → List (Nat × Nat)
  | [] => [(a, n)]
  | (b, m) :: l => if a + n = b then (a, n + m) :: l else (a, n) :: (b, m) :: l

/-- A free block put among others in the order of their addresses, joined with those it touches. -/
def insert (p n : Nat) : List (Nat × Nat) → List (Nat × Nat)
  | [] => [(p, n)]
  | (a, m) :: l =>
    if a < p then if a + m = p then fuse a (m + n) l else (a, m) :: insert p n l
    else fuse p n ((a, m) :: l)

/-- A block that touches none of those behind it stays as it is. -/
theorem fuse_of_lt {l : List (Nat × Nat)} (h : ∀ x ∈ l, a + n < x.1) : fuse a n l = (a, n) :: l := by
  cases l with
  | nil => rfl
  | cons x l => exact if_neg (h x List.mem_cons_self).ne

theorem fuse_fuse (a n m : Nat) (l : List (Nat × Nat)) : fuse a n (fuse (a + n) m l) = fuse a (n + m) l := by
  cases l with
  | nil => simp [fuse]
  | cons x l =>
    obtain ⟨b, k⟩ := x
    by_cases h : a + n + m = b
    · simp [fuse, h, Nat.add_assoc, show a + (n + m) = b by omega]
    · simp [fuse, h, show ¬a + (n + m) = b by omega]

theorem insert_of_le {l : List (Nat × Nat)} (h : ∀ x ∈ l, p ≤ x.1) : insert p n l = fuse p n l := by
  cases l with
  | nil => rfl
  | cons x l => exact if_neg (Nat.not_lt_of_le (h x List.mem_cons_self))

/-- The blocks below the one put in that do not touch it stay as they are. -/
theorem insert_append {l₁ l₂ : List (Nat × Nat)} (h : ∀ x ∈ l₁, x.1 < p ∧ x.1 + x.2 ≠ p) :
    insert p n (l₁ ++ l₂) = l₁ ++ insert p n l₂ := by
  induction l₁ with
  | nil => rfl
  | cons x l₁ ih =>
    obtain ⟨hx, hrest⟩ := List.forall_mem_cons.mp h
    rw [List.cons_append, insert, if_pos hx.1, if_neg hx.2, ih hrest, List.cons_append]

theorem lt_of_mem_fuse {l : List (Nat × Nat)} {c : Nat} (hl : ∀ x ∈ l, c < x.1) (ha : c < a) :
    ∀ x ∈ fuse a n l, c < x.1 := by
  cases l with
  | nil => simpa [fuse] using ha
  | cons y l =>
    rw [fuse]
    split
    · exact List.forall_mem_cons.mpr ⟨ha, (List.forall_mem_cons.mp hl).2⟩
    · exact List.forall_mem_cons.mpr ⟨ha, hl⟩

theorem lt_of_mem_insert {l : List (Nat × Nat)} {c : Nat} (hl : ∀ x ∈ l, c < x.1) (hp : c < p) :
    ∀ x ∈ insert p n l, c < x.1 := by
  induction l with
  | nil => simpa [insert] using hp
  | cons y l ih =>
    obtain ⟨hy, hrest⟩ := List.forall_mem_cons.mp hl
    rw [insert]
    split
    · split
      · exact lt_of_mem_fuse hrest hy
      · exact List.forall_mem_cons.mpr ⟨hy, ih hrest⟩
    · exact lt_of_mem_fuse hl hp

/-- A free block joined to others, on the free blocks alone. -/
theorem pick_join (hs : Sound grain bs) (a n : Nat) : pick false a (join n bs) = fuse a n (pick false (a + n) bs) := by
  cases bs with
  | nil => rfl
  | cons b bs =>
    obtain ⟨m, used⟩ := b
    cases used with
    | false => simp [join, pick, fuse, Nat.add_assoc]
    | true =>
      have hm : 0 < m := hs.head_pos
      have hlt : ∀ x ∈ pick false (a + n) (⟨m, true⟩ :: bs), a + n < x.1 := by
        intro x hx
        rw [pick_other (by simp)] at hx
        have := (bounds_of_mem_pick hx).1
        omega
      rw [fuse_of_lt hlt]
      rfl

/-- The free blocks behind a free block do not touch it. -/
theorem Sound.lt_of_mem (hs : Sound grain (⟨n, false⟩ :: bs)) : ∀ x ∈ pick false (a + n) bs, a + n < x.1 := by
  intro x hx
  cases bs with
  | nil => cases hx
  | cons b bs =>
    have hu := hs.head_used b rfl
    have hpos := hs.tail.head_pos
    rw [pick_cons_of_ne (by simp [hu])] at hx
    have := (bounds_of_mem_pick hx).1
    omega

/-- No two free blocks touch. -/
theorem Sound.pick_sorted_lt (hs : Sound grain bs) (a : Nat) :
    (pick false a bs).Pairwise fun x y => x.1 + x.2 < y.1 := by
  induction bs generalizing a with
  | nil => exact List.Pairwise.nil
  | cons b bs ih =>
    obtain ⟨m, used⟩ := b
    cases used with
    | true =>
      rw [pick_other (by simp)]
      exact ih hs.tail _
    | false =>
      rw [pick_self]
      exact List.Pairwise.cons hs.lt_of_mem (ih hs.tail _)

/-- Taking back, on the free blocks and on those in use: the block goes from the ones to the others. -/
theorem pick_give (hs : Sound grain bs) (h : give p a bs = some bs') :
    ∃ n U₁ U₂, pick true a bs = U₁ ++ (p, n) :: U₂ ∧ pick true a bs' = U₁ ++ U₂ ∧
      pick false a bs' = insert p n (pick false a bs) := by
  induction bs generalizing a bs' with
  | nil => cases h
  | cons b bs ih =>
    obtain ⟨m, used⟩ := b
    cases used with
    | true =>
      have hm : 0 < m := hs.head_pos
      rw [give] at h
      split at h
      · rename_i hap
        subst hap
        rw [← Option.some_inj.mp h]
        have hle : ∀ x ∈ pick false (a + m) bs, a ≤ x.1 := by
          intro x hx
          have := (bounds_of_mem_pick hx).1
          omega
        refine ⟨m, [], pick true (a + m) bs, rfl, ?_, ?_⟩
        · cases bs with
          | nil => rfl
          | cons c bs =>
            obtain ⟨k, used⟩ := c
            cases used <;> simp [join, pick, Nat.add_assoc]
        · rw [pick_join hs.tail, pick_other (by simp), insert_of_le hle]
      · obtain ⟨cs, hcs, rfl⟩ := Option.map_eq_some_iff.mp h
        obtain ⟨n, U₁, U₂, h1, h2, h3⟩ := ih hs.tail hcs
        refine ⟨n, (a, m) :: U₁, U₂, ?_, ?_, ?_⟩
        · rw [pick_self, h1, List.cons_append]
        · rw [pick_self, h2, List.cons_append]
        · rw [pick_other (by simp), pick_other (by simp), h3]
    | false =>
      rw [give, Option.map_eq_some_iff] at h
      obtain ⟨cs, hcs, rfl⟩ := h
      obtain ⟨n, U₁, U₂, h1, h2, h3⟩ := ih hs.tail hcs
      have hmem : (p, n) ∈ pick true (a + m) bs := by rw [h1]; simp
      have hp : a + m ≤ p := (bounds_of_mem_pick hmem).1
      have hm : 0 < m := hs.head_pos
      have hF : ∀ x ∈ pick false (a + m) bs, a + m < x.1 := hs.lt_of_mem
      refine ⟨n, U₁, U₂, ?_, ?_, ?_⟩
      · rw [pick_other (by simp), h1]
      · rw [← h2]
        cases cs with
        | nil => rfl
        | cons c cs =>
          obtain ⟨k, used⟩ := c
          cases used <;> simp [join, pick, Nat.add_assoc]
      · have hap : a < p := by omega
        rw [pick_join (hs.tail.give hcs), h3, pick_self, insert, if_pos hap]
        -- the block taken back touches the free one before it, or lies behind a block in use
        by_cases hmp : a + m = p
        · subst hmp
          rw [if_pos rfl, insert_of_le fun x hx => (hF x hx).le, fuse_fuse]
        · rw [if_neg hmp, fuse_of_lt (lt_of_mem_insert hF (by omega))]

/-! ## How badly the free blocks can be scattered -/

/-- There is at most one free block more than there are blocks in use. -/
theorem Sound.length_free_le (hs : Sound grain bs) (a : Nat) :
    (pick false a bs).length ≤ (pick true a bs).length + 1 ∧
      ((∀ c ∈ bs.head?, c.used = true) → (pick false a bs).length ≤ (pick true a bs).length) := by
  induction bs generalizing a with
  | nil => simp
  | cons b bs ih =>
    obtain ⟨m, used⟩ := b
    have hrest := ih hs.tail (a + m)
    cases used with
    | false =>
      have hle := hrest.2 hs.head_used
      rw [pick_self, pick_other (by simp), List.length_cons]
      refine ⟨Nat.succ_le_succ hle, ?_⟩
      intro hu
      cases hu _ rfl
    | true =>
      rw [pick_self, pick_other (by simp), List.length_cons]
      exact ⟨Nat.le_succ_of_le hrest.1, fun _ => hrest.1⟩

theorem total_le {l : List (Nat × Nat)} {k : Nat} (h : ∀ x ∈ l, x.2 ≤ k) : total l ≤ l.length * k := by
  induction l with
  | nil => simp
  | cons x l ih =>
    obtain ⟨hx, hrest⟩ := List.forall_mem_cons.mp h
    have := ih hrest
    rw [total_cons, List.length_cons, Nat.succ_mul]
    omega

/-- If nothing could be handed out, the free blocks are together at most this long. -/
theorem Sound.total_free_le (hs : Sound grain bs) (hg : grain ∣ need) (h : Tiling.take need least a bs = none) :
    total (pick false a bs) ≤ ((pick true a bs).length + 1) * (need - grain) := by
  have hshort := take_eq_none.mp h
  have hle : ∀ x ∈ pick false a bs, x.2 ≤ need - grain := by
    intro x hx
    have hlt := hshort x hx
    obtain ⟨pre, post, rfl, -⟩ := mem_pick.mp hx
    have hd : grain ∣ x.2 := hs.grains ⟨x.2, false⟩ (by simp)
    have hgap : grain ≤ need - x.2 := Nat.le_of_dvd (by omega) (Nat.dvd_sub hg hd)
    omega
  exact (total_le hle).trans (Nat.mul_le_mul_right _ (hs.length_free_le a).1)

/-- Blocks of which none is in use are one free block. -/
theorem Sound.eq_single (hs : Sound grain bs) (hb : bs ≠ []) (h : pick true a bs = []) : bs = [⟨span bs, false⟩] := by
  cases bs with
  | nil => exact absurd rfl hb
  | cons b bs =>
    obtain ⟨m, used⟩ := b
    cases used with
    | true => cases h
    | false =>
      cases bs with
      | nil => rfl
      | cons c bs =>
        obtain ⟨k, used⟩ := c
        obtain rfl : used = true := hs.head_used _ rfl
        cases h

end Tiling

import Rtu.HeapDepot
import Rtu.Theorems.Allocator
import Rtu.Theorems.MessageConservation

/-!
# The messages on the heap of the firmware

`Depot` is right to ask of its allocator no more than addresses that are not in use: with `pvPortMalloc` and `vPortFree` in its
place every run of the controller is a run of `Depot`, each message has a block of its own that is large enough, and no block is
freed twice (`messages_on_heap`). And the thread, which never looks at what `pvPortMalloc` returns, never writes through `NULL`
while the rest of the firmware leaves it the room that `HeapDepot.Roomy` asks for (`no_null_message`).
-/

namespace Rtu

open Tiling

/-- The heap under the controller: no call got stuck, the blocks that are out lie apart, every message has one of them, of the size
of the messages of its addressee, and the messages are conserved. -/
structure HeapDepot.Served (L : Layout) (msgSize : Device → UInt32) (s : HeapDepot) : Prop where
  apart : s.use.Apart L
  hand : ∀ dev a, s.depot.post.hand = some (dev, a) → (a, (msgSize dev).toNat) ∈ s.use.live
  charge : ∀ dev, ∀ a ∈ s.depot.post.charge dev, (a, (msgSize dev).toNat) ∈ s.use.live
  conserved : s.depot.MessagesConserved

/-- The blocks that are out and hold no message. -/
def HeapDepot.others (s : HeapDepot) : List (Nat × Nat) := s.use.live.filter fun x => (s.depot.post.heap x.1).isNone

/-- The largest block that a message needs. -/
def messageBlock (msgSize : Device → UInt32) : Nat :=
  max (wantedSize (msgSize .arm).toNat) (max (wantedSize (msgSize .pole).toNat) (wantedSize (msgSize .lift).toNat))

/-- The rest of the firmware leaves room for the messages, however the free bytes are scattered: 16 messages at most, and between
the blocks that are out a gap each that is too small for one. -/
def HeapDepot.Roomy (L : Layout) (msgSize : Device → UInt32) (s : HeapDepot) : Prop :=
  (s.others.map fun x => wantedSize x.2 + 16).sum + 16 * (messageBlock msgSize + 16) +
    (s.others.length + 17) * messageBlock msgSize < L.room

instance (L : Layout) (msgSize : Device → UInt32) (s : HeapDepot) : Decidable (s.Roomy L msgSize) :=
  inferInstanceAs (Decidable (_ < _))

namespace MessageHeapAux

variable {L : Layout} {msgSize : Device → UInt32} {s : HeapDepot} {d : Depot} {l : DepotLabel}

/-- What holds between any two steps, until the thread writes through `NULL`. -/
structure Invariant (L : Layout) (msgSize : Device → UInt32) (s : HeapDepot) : Prop where
  depot : s.depot.Invariant
  models : ∃ e, s.use.Models L e
  hand : ∀ dev a, s.depot.post.hand = some (dev, a) → (a, (msgSize dev).toNat) ∈ s.use.live
  charge : ∀ dev, ∀ a ∈ s.depot.post.charge dev, (a, (msgSize dev).toNat) ∈ s.use.live

/-- Only an allocation adds to the record of what was allocated. -/
theorem allocated_step (hl : ∀ addr, l ≠ .malloc addr) (d : Depot) : (d.step l).post.allocated = d.post.allocated := by
  cases l with
  | malloc addr => exact absurd rfl (hl addr)
  | tcp i =>
    change (d.tcpStep i).post.allocated = _
    unfold Depot.tcpStep
    split
    · rfl
    · rename_i e _
      split
      · cases e <;> rfl
      · split
        · rename_i post hsend
          obtain ⟨dev, a, q, -, -, rfl⟩ := Post.send_eq_some hsend
          rfl
        · rfl
  | axis ax heap raw =>
    change (d.axisStep ax heap raw).post.allocated = _
    unfold Depot.axisStep
    split
    · rw [DepotAux.setAxis_post]
    · split
      · rename_i post hfree
        obtain ⟨a, -, rfl⟩ := Post.free_eq_some hfree
        rfl
      · split
        · rename_i b post htake
          obtain ⟨a, q, -, -, -, rfl⟩ := Post.take_eq_some htake
          rw [DepotAux.setAxis_post]
        · rfl
  | lift heap =>
    change (d.liftStep heap).post.allocated = _
    unfold Depot.liftStep
    split
    · rfl
    · split
      · rename_i post hfree
        obtain ⟨a, -, rfl⟩ := Post.free_eq_some hfree
        rfl
      · split
        · rename_i b post htake
          obtain ⟨a, q, -, -, -, rfl⟩ := Post.take_eq_some htake
          rfl
        · rfl
  | supervise ax raw =>
    change (d.supervise ax raw).post.allocated = _
    unfold Depot.supervise
    dsimp only
    split <;> rw [DepotAux.setAxis_post]
  | supResume ax => exact congrArg Post.Office.allocated (DepotAux.setAxis_post d ax _)
  | status ax raw => exact congrArg Post.Office.allocated (DepotAux.setAxis_post d ax _)

/-- An allocation adds to the record. -/
theorem allocated_ne {dev : Device} {addr : Nat} {msg : Message} {p p' : DeviceOffice} (h : p.alloc dev addr msg = some p') :
    p'.allocated ≠ p.allocated := by
  obtain ⟨-, -, rfl⟩ := Post.alloc_eq_some h
  intro heq
  have hdev := congrFun heq dev
  simp at hdev

/-- What a step other than an allocation does to the blocks of the messages: it frees the one that `freedBy` names, if any, and
leaves all others with those who have them. -/
theorem blocks_step (h : d.Invariant) (hl : ∀ addr, l ≠ .malloc addr) :
    (d.freedBy l = none ∧ (∀ dev a, (d.step l).post.hand = some (dev, a) → d.post.hand = some (dev, a)) ∧
        ∀ dev, ∀ a ∈ (d.step l).post.charge dev, a ∈ d.post.charge dev ∨ d.post.hand = some (dev, a)) ∨
      ∃ dev a, d.freedBy l = some a ∧ a ∈ d.post.charge dev ∧ (d.step l).post.heap a = none ∧
        (d.step l).post.hand = d.post.hand ∧
        ∀ dev', ∀ a' ∈ (d.step l).post.charge dev', a' ∈ d.post.charge dev' := by
  have hturn := turn d l
  have hallocated := allocated_step hl d
  unfold Depot.freedBy
  generalize d.step l = d' at hturn hallocated
  cases hturn with
  | still hpost _ _ hidle =>
    refine Or.inl ⟨?_, ?_, ?_⟩
    · cases htask : l.task with
      | none => rfl
      | some dev =>
        simp only [(hidle dev htask).2.1]
        split <;> rfl
    · intro dev a hhand
      rwa [hpost] at hhand
    · intro dev a ha
      rw [hpost] at ha
      exact Or.inl ha
  | resume dev htask hpost hbusy _ _ _ =>
    refine Or.inl ⟨?_, ?_, ?_⟩
    · simp only [htask, hpost]
      exact if_neg (h.busy dev hbusy)
    · intro dev' a hhand
      rwa [hpost] at hhand
    · intro dev' a ha
      rw [hpost] at ha
      exact Or.inl ha
  | free dev htask hpost _ _ _ =>
    obtain ⟨a, htaken, heq⟩ := Post.free_eq_some hpost
    refine Or.inr ⟨dev, a, ?_, ?_, ?_, ?_, ?_⟩
    · simp only [htask, heq, Function.update_self, htaken, if_true]
    · simp [Post.Office.charge, htaken]
    · simp [heq]
    · rw [heq]
    · intro dev' a' ha'
      rw [heq] at ha'
      by_cases hdev : dev' = dev
      · subst hdev
        simp only [Post.Office.charge, Function.update_self, Option.toList_none, List.nil_append] at ha'
        exact List.mem_append_right _ ha'
      · simpa [Post.Office.charge, hdev] using ha'
  | take dev b htask hpost _ _ _ =>
    obtain ⟨a, q, htaken, -, -, heq⟩ := Post.take_eq_some hpost
    have hheld := Post.held_take hpost
    refine Or.inl ⟨?_, ?_, ?_⟩
    · simp only [htask, htaken]
      split <;> rfl
    · intro dev' a' hhand
      rwa [heq] at hhand
    · intro dev' a' ha'
      have hcharge : d'.post.charge dev' = d.post.charge dev' := congrFun hheld (some dev')
      rw [hcharge] at ha'
      exact Or.inl ha'
  | alloc dev msg addr e _ _ _ hpost _ _ => exact absurd hallocated (allocated_ne hpost)
  | send i htask hpost _ _ =>
    obtain ⟨dev, a, q, hhand, hsend, heq⟩ := Post.send_eq_some hpost
    have hitems := Fifo.Queue.items_of_send hsend
    refine Or.inl ⟨by simp only [htask], ?_, ?_⟩
    · intro dev' a' hhand'
      rw [heq] at hhand'
      cases hhand'
    · intro dev' a' ha'
      rw [heq] at ha'
      by_cases hdev : dev' = dev
      · subst hdev
        simp only [Post.Office.charge, Function.update_self, hitems, ← List.append_assoc, List.mem_append,
          List.mem_singleton] at ha'
        rcases ha' with ha' | rfl
        · exact Or.inl (List.mem_append.mpr ha')
        · exact Or.inr hhand
      · exact Or.inl (by simpa [Post.Office.charge, hdev] using ha')

/-- A pointer that is out is not handed out again. -/
theorem not_mem_of_apart {use : HeapUse} {x : Nat × Nat} {live : List (Nat × Nat)} (h : use.Apart L) (hlive : use.live = x :: live)
    {n : Nat} : (x.1, n) ∉ live := by
  intro hmem
  have hapart := h.apart
  rw [hlive] at hapart
  have := (List.pairwise_cons.mp hapart).1 _ hmem
  simp only at this
  omega

/-- A pointer that is freed was out, and the others stay out. -/
theorem mem_eraseP {live : List (Nat × Nat)} {x : Nat × Nat} {pv : Nat} (hx : x ∈ live) (hne : x.1 ≠ pv) :
    x ∈ live.eraseP fun b => b.1 = pv :=
  (List.mem_eraseP_of_neg (by simpa using hne)).mpr hx

/-- A call of `HeapUse`, with its result. -/
theorem malloc_models {use : HeapUse} {e : Estate} (hm : use.Models L e) (n : UInt32) :
    ∃ pv heap, pvPortMalloc L use.heap n = some (pv, heap) ∧
      use.step L (.malloc n) = { use with heap, live := if pv = 0 then use.live else (pv, n.toNat) :: use.live } ∧
      HeapUse.Models L { use with heap, live := if pv = 0 then use.live else (pv, n.toNat) :: use.live }
        (e.step L (.malloc n)) := by
  obtain ⟨h, R, hsame⟩ := AllocatorAux.exists_represents hm
  have hstep := HeapUse.models_step hm (.malloc n)
  have hanswer : ∃ r, pvPortMalloc L use.heap n = some r := by
    rw [hsame]
    cases ha : allot L n.toNat e.blocks with
    | none => exact ⟨_, pvPortMalloc_none R ha⟩
    | some r =>
      obtain ⟨heap, hheap, -⟩ := pvPortMalloc_some R ha
      exact ⟨_, hheap⟩
  obtain ⟨⟨pv, heap⟩, hr⟩ := hanswer
  have heq : use.step L (.malloc n) =
      { use with heap, live := if pv = 0 then use.live else (pv, n.toNat) :: use.live } := by
    rw [HeapUse.step_malloc, hr]
  rw [heq] at hstep
  exact ⟨pv, heap, hr, heq, hstep⟩

/-- A call of the rest of the firmware takes no pointer of a message. -/
theorem mem_live_other {use : HeapUse} {x : Nat × Nat} (hx : x ∈ use.live) {c : HeapCall} (hc : ∀ pv, c = .free pv → x.1 ≠ pv) :
    x ∈ (use.step L c).live := by
  cases c with
  | malloc n =>
    rw [HeapUse.step_malloc]
    split
    · exact hx
    · split
      · exact hx
      · exact List.mem_cons_of_mem _ hx
  | free pv =>
    rw [HeapUse.step_free]
    split
    · split
      · exact hx
      · exact mem_eraseP hx (hc pv rfl)
    · exact hx
  | write addr value =>
    rw [HeapUse.step_write]
    split
    · exact hx
    · exact hx

theorem Invariant.apart (h : Invariant L msgSize s) : s.use.Apart L :=
  let ⟨_, hm⟩ := h.models
  AllocatorAux.apart_of_models hm

/-- The block of a message is out. -/
theorem Invariant.mem_live (h : Invariant L msgSize s) {a : Nat} (ha : s.depot.post.heap a ≠ none) :
    ∃ dev, (a, (msgSize dev).toNat) ∈ s.use.live := by
  obtain ⟨x, hx⟩ := (h.depot.kept.placed.live a).mp ha
  cases x with
  | none =>
    simp only [Post.Office.held, Option.mem_toList, Option.map_eq_some_iff] at hx
    obtain ⟨⟨dev, a'⟩, hhand, rfl⟩ := hx
    exact ⟨dev, h.hand dev a' hhand⟩
  | some dev => exact ⟨dev, h.charge dev a hx⟩

/-- The blocks of messages after a step that frees nothing. -/
theorem Invariant.keep (h : Invariant L msgSize s) (hl : ∀ addr, l ≠ .malloc addr) (hfreed : s.depot.freedBy l = none) :
    Invariant L msgSize { s with depot := s.depot.step l } := by
  rcases blocks_step h.depot hl with ⟨-, hhand, hcharge⟩ | ⟨dev, a, hfreed', -⟩
  · refine ⟨invariant_step h.depot l, h.models, fun dev a ha => h.hand dev a (hhand dev a ha), ?_⟩
    intro dev a ha
    rcases hcharge dev a ha with ha | ha
    · exact h.charge dev a ha
    · exact h.hand dev a ha
  · rw [hfreed] at hfreed'
    cases hfreed'

/-- And after a step that frees one of them. -/
theorem Invariant.drop (h : Invariant L msgSize s) (hl : ∀ addr, l ≠ .malloc addr) {pv : Nat}
    (hfreed : s.depot.freedBy l = some pv) :
    pv ∈ s.use.live.map Prod.fst ∧
      Invariant L msgSize { s with depot := s.depot.step l, use := s.use.step L (.free pv) } := by
  obtain ⟨e, hm⟩ := h.models
  have hkept := (invariant_step h.depot l).kept
  rcases blocks_step h.depot hl with ⟨hfreed', -⟩ | ⟨dev, a, hfreed', ha, hheap, hhand, hcharge⟩
  · rw [hfreed] at hfreed'
    cases hfreed'
  · obtain rfl : pv = a := Option.some_inj.mp (hfreed.symm.trans hfreed')
    -- what is still held after the step is still on the heap, so it is not the block that was freed
    have hne : ∀ x a', a' ∈ (s.depot.step l).post.held x → a' ≠ pv := by
      rintro x a' ha' rfl
      exact Post.Placed.not_mem hkept.placed hheap x ha'
    refine ⟨List.mem_map.mpr ⟨_, h.charge dev pv ha, rfl⟩, invariant_step h.depot l, ⟨_, HeapUse.models_step hm (.free pv)⟩,
      ?_, ?_⟩
    · intro dev' a' ha'
      have hne' : a' ≠ pv := hne none a' (by simpa [Post.Office.held] using ⟨dev', ha'⟩)
      rw [hhand] at ha'
      exact mem_live_other (h.hand dev' a' ha') fun pv' hc => by cases hc; exact hne'
    · intro dev' a' ha'
      have hne' : a' ≠ pv := hne (some dev') a' ha'
      exact mem_live_other (h.charge dev' a' (hcharge dev' a' ha')) fun pv' hc => by cases hc; exact hne'

/-- What an allocation does, when the thread is about to send and holds nothing. -/
theorem step_malloc_eq (hnull : s.nullWritten = false) {dev : Device} {msg : Message}
    (hmsg : (s.depot.tcp.effect .run).bind Effect.message = some (dev, msg)) (hhand : s.depot.post.hand = none) {pv : Nat}
    {heap : Heap4} (hmalloc : pvPortMalloc L s.use.heap (msgSize dev) = some (pv, heap)) :
    s.step L msgSize .malloc =
      if pv = 0 then { s with use := { s.use with heap }, nullWritten := true }
      else
        { s with
          depot := s.depot.malloc pv
          use := { s.use with heap, live := (pv, (msgSize dev).toNat) :: s.use.live } } := by
  unfold HeapDepot.step
  simp [hnull, hmsg, hhand, hmalloc]

/-- An allocation that is answered. -/
theorem Invariant.alloc (h : Invariant L msgSize s) {dev : Device} {msg : Message}
    (hmsg : (s.depot.tcp.effect .run).bind Effect.message = some (dev, msg)) (hhand : s.depot.post.hand = none) {pv : Nat}
    {use : HeapUse} (hlive : use.live = (pv, (msgSize dev).toNat) :: s.use.live) (hm : ∃ e, use.Models L e) :
    Invariant L msgSize { s with depot := s.depot.malloc pv, use } := by
  obtain ⟨e, hm⟩ := hm
  have hfresh : s.depot.post.heap pv = none := by
    by_contra hne
    obtain ⟨dev', hmem⟩ := h.mem_live hne
    exact not_mem_of_apart (AllocatorAux.apart_of_models hm) hlive hmem
  have halloc : s.depot.malloc pv =
      { s.depot with
        post := { s.depot.post with
          heap := Function.update s.depot.post.heap pv (some (msg, (s.depot.post.allocated dev).length)), hand := some (dev, pv)
          allocated := Function.update s.depot.post.allocated dev (s.depot.post.allocated dev ++ [msg]) } } := by
    unfold Depot.malloc
    rw [hmsg]
    simp [Post.Office.alloc, hhand, hfresh]
  refine ⟨invariant_step h.depot (.malloc pv), ⟨e, hm⟩, ?_, ?_⟩
  · intro dev' a ha
    simp only [halloc, Option.some.injEq, Prod.mk.injEq] at ha
    obtain ⟨rfl, rfl⟩ := ha
    simp [hlive]
  · intro dev' a ha
    simp only [halloc] at ha
    rw [hlive]
    exact List.mem_cons_of_mem _ (h.charge dev' a ha)

/-- A step of the controller that frees nothing. -/
theorem step_depot_none (hnull : s.nullWritten = false) (hl : ∀ addr, l ≠ .malloc addr) (hfreed : s.depot.freedBy l = none) :
    s.step L msgSize (.depot l) = { s with depot := s.depot.step l } := by
  unfold HeapDepot.step
  cases l with
  | malloc addr => exact absurd rfl (hl addr)
  | tcp | axis | lift | supervise | supResume | status => simp [hnull, hfreed]

/-- A step of the controller that frees a message. -/
theorem step_depot_some (hnull : s.nullWritten = false) (hl : ∀ addr, l ≠ .malloc addr) {pv : Nat}
    (hfreed : s.depot.freedBy l = some pv) :
    s.step L msgSize (.depot l) = { s with depot := s.depot.step l, use := s.use.step L (.free pv) } := by
  unfold HeapDepot.step
  cases l with
  | malloc addr => exact absurd rfl (hl addr)
  | tcp | axis | lift | supervise | supResume | status => simp [hnull, hfreed]

/-- What one step does: it goes wrong through `NULL`, or the invariant holds and the controller has made at most one step. -/
theorem invariant_next (h : Invariant L msgSize s) (i : HeapDepotLabel) :
    Invariant L msgSize (s.step L msgSize i) ∧ ∃ js, (s.step L msgSize i).depot = Runs.run Depot.step s.depot js := by
  by_cases hnull : s.nullWritten = true
  · have hsame : s.step L msgSize i = s := if_pos hnull
    rw [hsame]
    exact ⟨h, [], rfl⟩
  rw [Bool.not_eq_true] at hnull
  cases i with
  | malloc =>
    cases hmsg : (s.depot.tcp.effect .run).bind Effect.message with
    | none =>
      have hsame : s.step L msgSize .malloc = s := by
        unfold HeapDepot.step
        simp [hnull, hmsg]
      rw [hsame]
      exact ⟨h, [], rfl⟩
    | some m =>
      obtain ⟨dev, msg⟩ := m
      cases hhand : s.depot.post.hand with
      | some x =>
        have hsame : s.step L msgSize .malloc = s := by
          unfold HeapDepot.step
          simp [hnull, hmsg, hhand]
        rw [hsame]
        exact ⟨h, [], rfl⟩
      | none =>
        obtain ⟨e, hm⟩ := h.models
        obtain ⟨pv, heap, hmalloc, -, hm'⟩ := malloc_models hm (msgSize dev)
        rw [step_malloc_eq hnull hmsg hhand hmalloc]
        by_cases hpv : pv = 0
        · rw [if_pos hpv]
          rw [if_pos hpv] at hm'
          exact ⟨⟨h.depot, ⟨_, hm'⟩, h.hand, h.charge⟩, [], rfl⟩
        · rw [if_neg hpv]
          rw [if_neg hpv] at hm'
          exact ⟨h.alloc hmsg hhand rfl ⟨_, hm'⟩, [.malloc pv], rfl⟩
  | depot l =>
    by_cases hl : ∃ addr, l = .malloc addr
    · obtain ⟨addr, rfl⟩ := hl
      have hsame : s.step L msgSize (.depot (.malloc addr)) = s := by
        unfold HeapDepot.step
        simp
      rw [hsame]
      exact ⟨h, [], rfl⟩
    · have hl' : ∀ addr, l ≠ .malloc addr := fun addr heq => hl ⟨addr, heq⟩
      cases hfreed : s.depot.freedBy l with
      | none =>
        rw [step_depot_none hnull hl' hfreed]
        exact ⟨h.keep hl' hfreed, [l], rfl⟩
      | some pv =>
        rw [step_depot_some hnull hl' hfreed]
        exact ⟨(h.drop hl' hfreed).2, [l], rfl⟩
  | other c =>
    have hstep : s.step L msgSize (.other c) = if s.mayCall c then { s with use := s.use.step L c } else s := by
      unfold HeapDepot.step
      rw [if_neg (by simp [hnull])]
    rw [hstep]
    split
    · rename_i hmay
      obtain ⟨e, hm⟩ := h.models
      have hne : ∀ a, s.depot.post.heap a ≠ none → ∀ pv, c = .free pv → a ≠ pv := by
        rintro a ha pv rfl rfl
        exact ha (Option.isNone_iff_eq_none.mp hmay)
      refine ⟨⟨h.depot, ⟨_, HeapUse.models_step hm c⟩, ?_, ?_⟩, [], rfl⟩
      · intro dev a ha
        refine mem_live_other (h.hand dev a ha) (hne a ?_)
        exact (h.depot.kept.placed.live a).mpr ⟨none, by simpa [Post.Office.held] using ⟨dev, ha⟩⟩
      · intro dev a ha
        exact mem_live_other (h.charge dev a ha) (hne a ((h.depot.kept.placed.live a).mpr ⟨some dev, ha⟩))
    · exact ⟨h, [], rfl⟩

theorem invariant_boot (L : Layout) (msgSize : Device → UInt32) (stack : HMICmdVar) (rate : UInt32) (mem : Nat → BlockLink) :
    Invariant L msgSize (.boot stack rate mem) := by
  refine ⟨Rtu.invariant_boot stack rate, ⟨_, HeapUse.models_boot L mem⟩, ?_, ?_⟩
  · intro dev a h
    cases h
  · intro dev a h
    cases h

theorem Invariant.served (h : Invariant L msgSize s) : s.Served L msgSize :=
  ⟨h.apart, h.hand, h.charge, MessageConservationAux.conserved_of_invariant h.depot⟩

theorem wantedSize_le_messageBlock (msgSize : Device → UInt32) (dev : Device) :
    wantedSize (msgSize dev).toNat ≤ messageBlock msgSize := by
  unfold messageBlock
  cases dev <;> omega

/-- The blocks that are out and hold a message. -/
def messages (s : HeapDepot) : List (Nat × Nat) := s.use.live.filter fun x => !(s.depot.post.heap x.1).isNone

theorem mem_messages {x : Nat × Nat} : x ∈ messages s ↔ x ∈ s.use.live ∧ s.depot.post.heap x.1 ≠ none := by
  simp [messages, Option.isSome_iff_ne_none]

/-- No two blocks are at one address. -/
theorem Invariant.nodup (h : Invariant L msgSize s) : (s.use.live.map Prod.fst).Nodup := by
  refine List.pairwise_map.mpr (h.apart.apart.imp ?_)
  intro x y hxy heq
  omega

/-- There are at most 16 blocks with messages. -/
theorem length_messages_le (h : Invariant L msgSize s) : (messages s).length ≤ 16 := by
  have hmem := (h.depot.kept.inUseBy devices_nodup mem_devices).2
  have hsub : (messages s).map Prod.fst ⊆ s.depot.post.inUseBy devices := by
    intro a ha
    obtain ⟨x, hx, rfl⟩ := List.mem_map.mp ha
    exact (hmem x.1).mp (mem_messages.mp hx).2
  have hnodup : ((messages s).map Prod.fst).Nodup := h.nodup.sublist (List.filter_sublist.map Prod.fst)
  have hle := (List.subperm_of_subset hnodup hsub).length_le
  rw [List.length_map] at hle
  exact hle.trans (Post.length_inUseBy_le s.depot.post devices)

/-- Each of them is one of a device. -/
theorem wantedSize_le_of_message (h : Invariant L msgSize s) {x : Nat × Nat} (hx : x ∈ messages s) :
    wantedSize x.2 ≤ messageBlock msgSize := by
  obtain ⟨hlive, hsome⟩ := mem_messages.mp hx
  obtain ⟨dev, hdev⟩ := h.mem_live hsome
  have heq : x = (x.1, (msgSize dev).toNat) := List.inj_on_of_nodup_map h.nodup hlive hdev rfl
  rw [heq]
  exact wantedSize_le_messageBlock msgSize dev

theorem sum_le_of_forall_le {l : List (Nat × Nat)} {k : Nat} (hl : ∀ x ∈ l, wantedSize x.2 ≤ k) :
    (l.map fun x => wantedSize x.2 + 16).sum ≤ l.length * (k + 16) := by
  induction l with
  | nil => simp
  | cons x l ih =>
    obtain ⟨hx, hrest⟩ := List.forall_mem_cons.mp hl
    have := ih hrest
    rw [List.map_cons, List.sum_cons, List.length_cons, Nat.succ_mul]
    omega

theorem sum_add_length (l : List (Nat × Nat)) :
    (l.map fun x => wantedSize x.2 + 16).sum = (l.map fun x => wantedSize x.2).sum + 16 * l.length := by
  induction l with
  | nil => rfl
  | cons x l ih =>
    rw [List.map_cons, List.sum_cons, ih, List.map_cons, List.sum_cons, List.length_cons]
    omega

/-- What the blocks that are out need, messages and others. -/
theorem wanted_bound (h : Invariant L msgSize s) :
    s.use.wanted + 16 * s.use.live.length ≤
        (s.others.map fun x => wantedSize x.2 + 16).sum + 16 * (messageBlock msgSize + 16) ∧
      s.use.live.length ≤ s.others.length + 16 := by
  have hperm : (s.others ++ messages s).Perm s.use.live :=
    List.filter_append_perm (fun x : Nat × Nat => (s.depot.post.heap x.1).isNone) s.use.live
  have hmsgs := length_messages_le h
  have hsum := (hperm.map fun x => wantedSize x.2 + 16).sum_eq
  have hlen := hperm.length_eq
  have hle := sum_le_of_forall_le fun x hx => wantedSize_le_of_message h hx
  have hmul : (messages s).length * (messageBlock msgSize + 16) ≤ 16 * (messageBlock msgSize + 16) :=
    Nat.mul_le_mul_right _ hmsgs
  rw [List.map_append, List.sum_append, sum_add_length s.use.live] at hsum
  rw [List.length_append] at hlen
  unfold HeapUse.wanted
  omega

/-- The thread writes through `NULL` when `pvPortMalloc` gives it that. -/
theorem null_step (hnull : s.nullWritten = false) (i : HeapDepotLabel) :
    (s.step L msgSize i).nullWritten = false ∨ ∃ dev heap, pvPortMalloc L s.use.heap (msgSize dev) = some (0, heap) := by
  unfold HeapDepot.step
  rw [if_neg (by simp [hnull])]
  split
  · split
    · exact Or.inl hnull
    · rename_i dev _ _
      split
      · exact Or.inl hnull
      · split
        · exact Or.inl hnull
        · rename_i pv heap hmalloc
          split
          · rename_i hpv
            exact Or.inr ⟨dev, heap, by rw [hmalloc, hpv]⟩
          · exact Or.inl hnull
  · exact Or.inl hnull
  · split
    · exact Or.inl hnull
    · exact Or.inl hnull
  · split
    · exact Or.inl hnull
    · exact Or.inl hnull

/-- With that room the heap answers with a block. -/
theorem malloc_of_roomy (h : Invariant L msgSize s) (hsize : ∀ dev, 0 < msgSize dev) (hroomy : s.Roomy L msgSize) (dev : Device)
    {heap : Heap4} : pvPortMalloc L s.use.heap (msgSize dev) ≠ some (0, heap) := by
  intro hmalloc
  obtain ⟨e, hm⟩ := h.models
  obtain ⟨g, R, hsame⟩ := AllocatorAux.exists_represents hm
  obtain ⟨hwanted, hlen⟩ := wanted_bound h
  have hblock := wantedSize_le_messageBlock msgSize dev
  have hpos : 0 < (msgSize dev).toNat := hsize dev
  obtain ⟨h8, hbounds, -⟩ := wantedSize_bounds hpos
  have hroom := L.room_bounds
  unfold HeapDepot.Roomy at hroomy
  rw [hsame] at hmalloc
  cases ha : allot L (msgSize dev).toNat e.blocks with
  | some r =>
    obtain ⟨p, bs'⟩ := r
    obtain ⟨heap', hsome, -⟩ := pvPortMalloc_some R ha
    rw [hsome] at hmalloc
    exact absurd (Prod.mk.inj (Option.some_inj.mp hmalloc)).1 (Nat.succ_ne_zero _)
  | none =>
    have hlt : (msgSize dev).toNat < 2 ^ 31 := by
      unfold configTOTAL_HEAP_SIZE at hroom
      omega
    rw [allot, if_neg (by omega)] at ha
    have hfree := R.sound.total_free_le h8 ha
    have htotal := total_used_add_free L.pucAlignedHeap e.blocks
    rw [R.span] at htotal
    -- the blocks in use are those that are out
    have hused : (pick true L.pucAlignedHeap e.blocks).length = s.use.live.length ∧
        total (pick true L.pucAlignedHeap e.blocks) ≤ s.use.wanted + 16 * s.use.live.length := by
      rcases hm.order with ⟨-, he⟩ | ⟨owned, ho⟩
      · have hlive : s.use.live = [] := hm.live.trans (congrArg Estate.live he)
        rw [he, hlive]
        simp [Estate.boot, pick]
      · rw [← ho.perm.length_eq, ← ho.holds.length_eq, ← AllocatorAux.total_perm ho.perm]
        exact ⟨rfl, (AllocatorAux.wanted_le ho.holds).2⟩
    have hgap : ((pick true L.pucAlignedHeap e.blocks).length + 1) * (wantedSize (msgSize dev).toNat - 8) ≤
        (s.others.length + 17) * messageBlock msgSize := Nat.mul_le_mul (by omega) (by omega)
    omega

end MessageHeapAux

open MessageHeapAux

/-- Over every interleaving of the controller with the rest of the firmware, up to the first message that is written through
`NULL`: no call of the heap gets stuck, every message has a block of its own, large enough and apart from all others, and the
controller is in a state of a run of `Depot`. -/
theorem messages_on_heap (L : Layout) (msgSize : Device → UInt32) (stack : HMICmdVar) (rate : UInt32) (mem : Nat → BlockLink)
    (sched : List HeapDepotLabel) :
    Runs.Always (HeapDepot.step L msgSize) (HeapDepot.Served L msgSize) (.boot stack rate mem) sched ∧
      ∃ sched', (Runs.run (HeapDepot.step L msgSize) (.boot stack rate mem) sched).depot =
        Runs.run Depot.step (.boot stack rate) sched' := by
  refine ⟨?_, ?_⟩
  · intro pre _
    exact (Runs.run_inv (Invariant L msgSize) (fun s i h => (invariant_next h i).1)
      (MessageHeapAux.invariant_boot L msgSize stack rate mem) pre).served
  · exact Runs.run_refines HeapDepot.depot (Invariant L msgSize) (fun s i h => (invariant_next h i).1)
      (fun s i h => (invariant_next h i).2) (MessageHeapAux.invariant_boot L msgSize stack rate mem) sched

/-- In every run in which the rest of the firmware leaves that room, whatever the sizes of the messages are, no message is ever
written through `NULL`. -/
theorem no_null_message (L : Layout) (msgSize : Device → UInt32) (stack : HMICmdVar) (rate : UInt32) (mem : Nat → BlockLink)
    (sched : List HeapDepotLabel) (hsize : ∀ dev, 0 < msgSize dev)
    (hroomy : Runs.Steps (HeapDepot.step L msgSize) (fun s _ => s.Roomy L msgSize) (.boot stack rate mem) sched) :
    Runs.Always (HeapDepot.step L msgSize) (fun s => s.nullWritten = false) (.boot stack rate mem) sched := by
  have hall := Runs.always_of_steps (fun s => Invariant L msgSize s ∧ s.nullWritten = false) ?_
    ⟨MessageHeapAux.invariant_boot L msgSize stack rate mem, rfl⟩ hroomy
  · exact fun pre hpre => (hall pre hpre).2
  · rintro s i ⟨h, hnull⟩ hroom
    refine ⟨(invariant_next h i).1, ?_⟩
    rcases null_step hnull i with hok | ⟨dev, heap, hmalloc⟩
    · exact hok
    · exact absurd hmalloc (malloc_of_roomy h hsize hroom dev)

/-- The link goes, the thread sends the arm its stop, and the arm frees it; the rest of the firmware has a block of 100 bytes. -/
theorem no_null_message_sample :
    Runs.Always (HeapDepot.step .sample fun _ => 12) (fun s => s.nullWritten = false) (.boot bootCmd.stored 204000000 fun _ => ⟨0, 0⟩)
      [.other (.malloc 100), .depot (.tcp (.accept 0 bootCmd.stored)), .depot (.tcp (.recv (-1))), .malloc, .depot (.tcp .run),
        .depot (.axis .arm ⟨.stop, .cw, 0, 0⟩ 0), .depot (.axis .arm ⟨.stop, .cw, 0, 0⟩ 0)] :=
  no_null_message .sample _ bootCmd.stored 204000000 _ _ (fun _ => by decide) (by decide +kernel)

end Rtu

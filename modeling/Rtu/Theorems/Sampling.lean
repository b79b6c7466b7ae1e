import Rtu.Sampling
import Mathlib.Data.List.Induction

/-!
# What a reading of the position is worth

Tasks read both axes as they like. The mutex keeps the words of two readings apart, so that every reading is made of the high byte
of one latched position and the low byte of the same one or of a later one, and it is a position of the resolver if no falling edge
of SAMPLE came between the two; neither is older than the oldest reading going on when it began (`reading_is_sampled`). While SAMPLE
is low, what is latched is from the start of a reading that is still in progress (`latched_in_progress`). The line itself is not kept
apart: two tasks can make a reading of any two positions that the resolver has stood at (`torn_reading`).
-/

namespace Rtu

variable {τ : Type} [DecidableEq τ]

/-- The state after a run. -/
def SampleBus.after (angle : Axis → UInt16) (chip : Axis → Registers.Chip UInt8) (sched : List (SampleLabel τ)) : SampleBus τ :=
  Runs.run SampleBus.step (.boot angle chip) sched

/-- The positions that were latched in a run. -/
def samplesOf (angle : Axis → UInt16) (chip : Axis → Registers.Chip UInt8) (sched : List (SampleLabel τ)) :
    List (Axis → UInt16) :=
  Runs.trace SampleBus.step SampleBus.edges (.boot angle chip) sched

/-- The reading that a task is in began with the step after `pre`. -/
structure Began (angle : Axis → UInt16) (chip : Axis → Registers.Chip UInt8) (sched : List (SampleLabel τ)) (t : τ) (ax : Axis)
    (pre : List (SampleLabel τ)) : Prop where
  before : pre ++ [.run t] <+: sched
  start : (SampleBus.after angle chip pre).task t = some (ax, .sampleLow)
  since : ∀ mid, pre ++ [.run t] <+: mid → mid <+: sched →
    ∃ stage, (SampleBus.after angle chip mid).task t = some (ax, stage) ∧ stage ≠ .sampleLow

/-- A position is the one latched last after `mid`. It was latched when a reading began: one that began with the step after `pre` or
later, or one that was going on then. -/
structure LatchedBy (angle : Axis → UInt16) (chip : Axis → Registers.Chip UInt8) (pre mid : List (SampleLabel τ))
    (a : Axis → UInt16) : Prop where
  last : a ∈ (samplesOf angle chip mid).getLast?
  recent : ∃ u q, q ++ [.run u] <+: mid ∧ a = (SampleBus.after angle chip q).angle ∧
    samplesOf angle chip (q ++ [.run u]) = samplesOf angle chip mid ∧ (pre <+: q ∨ ∃ ax, Began angle chip pre u ax q)

/-- What the words of a reading are. The step after `pre` begins it, the one after `pre₁` transfers its second word and the one after
`pre₂` its third. -/
structure ReadingOf (angle : Axis → UInt16) (chip : Axis → Registers.Chip UInt8) (sched : List (SampleLabel τ)) (t : τ) (ax : Axis)
    (rx : List UInt8) (pre pre₁ pre₂ : List (SampleLabel τ)) (w : UInt8) (a₁ a₂ : Axis → UInt16) : Prop where
  began : Began angle chip sched t ax pre
  second_after : pre ++ [.run t] <+: pre₁
  third_after : pre₁ ++ [.run t] <+: pre₂
  within : pre₂ ++ [.run t] <+: sched
  second : (SampleBus.after angle chip pre₁).task t = some (ax, .transfer [w] [ad2s1210RegPosition + 1, ad2s1210RegFault])
  third : (SampleBus.after angle chip pre₂).task t = some (ax, .transfer [w, highByte (a₁ ax)] [ad2s1210RegFault])
  high : LatchedBy angle chip pre pre₁ a₁
  low : LatchedBy angle chip pre pre₂ a₂
  words : rx = [w, highByte (a₁ ax), lowByte (a₂ ax)]
  whole : samplesOf angle chip pre₁ = samplesOf angle chip pre₂ → configReadTwo rx = a₁ ax

namespace SamplingAux

variable {angle : Axis → UInt16} {chip : Axis → Registers.Chip UInt8} {sched pre pre₁ pre₂ : List (SampleLabel τ)}
  {l : SampleLabel τ} {t u : τ} {ax : Axis} {stage stage' : ReadStage} {s : SampleBus τ} {w h lo : UInt8} {tx : List UInt8}

/-- The two bytes of a position, put together. -/
theorem joinBytes_bytes (p : UInt16) : joinBytes (highByte p) (lowByte p) = p := by
  have hlt := p.toNat_lt
  have hshift : p.toNat >>> 8 = p.toNat / 256 := Nat.shiftRight_eq_div_pow p.toNat 8
  unfold joinBytes highByte lowByte
  apply UInt16.toNat_inj.mp
  rw [UInt16.toNat_or, UInt16.toNat_shiftLeft]
  simp only [UInt8.toNat_toUInt16, UInt16.toNat_toUInt8, UInt16.toNat_shiftRight]
  rw [show (8 : UInt16).toNat % 16 = 8 from rfl, hshift, Nat.mod_eq_of_lt (by omega : p.toNat / 256 < 2 ^ 8), Nat.mod_eq_of_lt,
    ← Nat.shiftLeft_add_eq_or_of_lt (Nat.mod_lt _ (by decide)), Nat.shiftLeft_eq]
  · omega
  · rw [Nat.shiftLeft_eq]
    omega

theorem after_snoc : SampleBus.after angle chip (sched ++ [l]) = (SampleBus.after angle chip sched).step l := by
  unfold SampleBus.after
  rw [Runs.run_snoc]

theorem samplesOf_snoc :
    samplesOf angle chip (sched ++ [l]) = samplesOf angle chip sched ++ (SampleBus.after angle chip sched).edges l := by
  unfold samplesOf SampleBus.after
  rw [Runs.trace_append]
  simp [Runs.trace]

/-! ### How far a reading has come -/

/-- The second word, transferred after `pre₁`, gave the high byte of what was latched last. -/
structure GotHigh (angle : Axis → UInt16) (chip : Axis → Registers.Chip UInt8) (sched : List (SampleLabel τ)) (t : τ) (ax : Axis)
    (pre pre₁ : List (SampleLabel τ)) (w h : UInt8) : Prop where
  after : pre ++ [.run t] <+: pre₁
  before : pre₁ ++ [.run t] <+: sched
  stage : (SampleBus.after angle chip pre₁).task t = some (ax, .transfer [w] [ad2s1210RegPosition + 1, ad2s1210RegFault])
  high : ∃ a ∈ (samplesOf angle chip pre₁).getLast?, h = highByte (a ax)

/-- The third word, transferred after `pre₂`, gave the low byte of what was latched last. -/
structure GotLow (angle : Axis → UInt16) (chip : Axis → Registers.Chip UInt8) (sched : List (SampleLabel τ)) (t : τ) (ax : Axis)
    (pre₁ pre₂ : List (SampleLabel τ)) (w h lo : UInt8) : Prop where
  after : pre₁ ++ [.run t] <+: pre₂
  before : pre₂ ++ [.run t] <+: sched
  stage : (SampleBus.after angle chip pre₂).task t = some (ax, .transfer [w, h] [ad2s1210RegFault])
  low : ∃ a ∈ (samplesOf angle chip pre₂).getLast?, lo = lowByte (a ax)

/-- What a task that is past the start of a reading has received and what it has selected. -/
inductive Progress (angle : Axis → UInt16) (chip : Axis → Registers.Chip UInt8) (sched : List (SampleLabel τ)) (t : τ) (ax : Axis)
    (pre : List (SampleLabel τ)) : ReadStage → Prop where
  | take : Progress angle chip sched t ax pre .take
  | first : Progress angle chip sched t ax pre (.transfer [] (configReadTwoTx ad2s1210RegPosition))
  | second (w : UInt8) : ((SampleBus.after angle chip sched).chip ax).addressed = ad2s1210RegPosition →
      Progress angle chip sched t ax pre (.transfer [w] [ad2s1210RegPosition + 1, ad2s1210RegFault])
  | third (w : UInt8) {h : UInt8} {pre₁ : List (SampleLabel τ)} :
      ((SampleBus.after angle chip sched).chip ax).addressed = ad2s1210RegPosition + 1 →
      GotHigh angle chip sched t ax pre pre₁ w h → Progress angle chip sched t ax pre (.transfer [w, h] [ad2s1210RegFault])
  | last (w : UInt8) {h lo : UInt8} {pre₁ pre₂ : List (SampleLabel τ)} : GotHigh angle chip sched t ax pre pre₁ w h →
      GotLow angle chip sched t ax pre₁ pre₂ w h lo → Progress angle chip sched t ax pre (.transfer [w, h, lo] [])
  | done (w : UInt8) {h lo : UInt8} {pre₁ pre₂ : List (SampleLabel τ)} : GotHigh angle chip sched t ax pre pre₁ w h →
      GotLow angle chip sched t ax pre₁ pre₂ w h lo → Progress angle chip sched t ax pre (.sampleHigh [w, h, lo])

theorem GotHigh.snoc (g : GotHigh angle chip sched t ax pre pre₁ w h) (l : SampleLabel τ) :
    GotHigh angle chip (sched ++ [l]) t ax pre pre₁ w h :=
  ⟨g.after, g.before.trans (List.prefix_append sched [l]), g.stage, g.high⟩

theorem GotLow.snoc (g : GotLow angle chip sched t ax pre₁ pre₂ w h lo) (l : SampleLabel τ) :
    GotLow angle chip (sched ++ [l]) t ax pre₁ pre₂ w h lo :=
  ⟨g.after, g.before.trans (List.prefix_append sched [l]), g.stage, g.low⟩

/-- A reading goes on, or another task does. -/
theorem began_snoc (h : Began angle chip sched t ax pre)
    (htask : ((SampleBus.after angle chip sched).step l).task t = some (ax, stage)) (hstage : stage ≠ .sampleLow) :
    Began angle chip (sched ++ [l]) t ax pre := by
  refine ⟨h.before.trans (List.prefix_append sched [l]), h.start, ?_⟩
  intro mid hpre hmid
  rcases List.prefix_concat_iff.mp hmid with rfl | hmid
  · exact ⟨stage, by rwa [after_snoc], hstage⟩
  · exact h.since mid hpre hmid

/-- A reading begins. -/
theorem began_begin (hstart : (SampleBus.after angle chip sched).task t = some (ax, .sampleLow)) :
    Began angle chip (sched ++ [.run t]) t ax sched := by
  refine ⟨List.prefix_refl _, hstart, ?_⟩
  intro mid hpre hmid
  obtain rfl := hmid.eq_of_length_le hpre.length_le
  refine ⟨.take, ?_, by simp⟩
  rw [after_snoc, SampleBus.step, hstart]
  simp [SampleBus.runTask, SampleBus.goOn]

/-- While other tasks go on, it stays where it is. -/
theorem Progress.snoc (h : Progress angle chip sched t ax pre stage)
    (hchip : (∃ rx tx, stage = .transfer rx tx) → (((SampleBus.after angle chip sched).step l).chip ax).addressed =
      ((SampleBus.after angle chip sched).chip ax).addressed) :
    Progress angle chip (sched ++ [l]) t ax pre stage := by
  cases h with
  | take => exact .take
  | first => exact .first
  | second w ha => exact .second w (by rw [after_snoc, hchip ⟨_, _, rfl⟩, ha])
  | third w ha g => exact .third w (by rw [after_snoc, hchip ⟨_, _, rfl⟩, ha]) (g.snoc l)
  | last w g g' => exact .last w (g.snoc l) (g'.snoc l)
  | done w g g' => exact .done w (g.snoc l) (g'.snoc l)

/-! ### The invariant -/

/-- What holds after every run. -/
structure Inv (angle : Axis → UInt16) (chip : Axis → Registers.Chip UInt8) (sched : List (SampleLabel τ)) : Prop where
  mutex : ∀ t, (SampleBus.after angle chip sched).spi_mutex = some t ↔
    ∃ ax rx tx, (SampleBus.after angle chip sched).task t = some (ax, .transfer rx tx)
  regs : ∀ a ∈ (samplesOf angle chip sched).getLast?, ∀ ax,
    ((SampleBus.after angle chip sched).chip ax).regs ad2s1210RegPosition = highByte (a ax) ∧
      ((SampleBus.after angle chip sched).chip ax).regs (ad2s1210RegPosition + 1) = lowByte (a ax)
  reading : ∀ t ax stage, (SampleBus.after angle chip sched).task t = some (ax, stage) → stage ≠ .sampleLow →
    samplesOf angle chip sched ≠ [] ∧ ∃ pre, Began angle chip sched t ax pre ∧ Progress angle chip sched t ax pre stage
  low : (SampleBus.after angle chip sched).sample = false → ∃ u ax pre, Began angle chip sched u ax pre ∧
    (SampleBus.after angle chip pre).sample = true ∧ samplesOf angle chip (pre ++ [.run u]) = samplesOf angle chip sched

theorem inv_nil (angle : Axis → UInt16) (chip : Axis → Registers.Chip UInt8) : Inv angle chip ([] : List (SampleLabel τ)) := by
  refine ⟨?_, ?_, ?_, ?_⟩
  · intro t
    simp [SampleBus.after, SampleBus.boot]
  · intro a ha
    simp [samplesOf, Runs.trace] at ha
  · intro t ax stage h
    simp [SampleBus.after, SampleBus.boot] at h
  · intro h
    simp [SampleBus.after, SampleBus.boot] at h

/-- The tasks that stay where they are. -/
theorem Inv.stay (h : Inv angle chip sched) (hu : (SampleBus.after angle chip sched).task u = some (ax, stage))
    (hstage : stage ≠ .sampleLow) (hsame : ((SampleBus.after angle chip sched).step l).task u = some (ax, stage))
    (hchip : (∃ rx tx, stage = .transfer rx tx) → (((SampleBus.after angle chip sched).step l).chip ax).addressed =
      ((SampleBus.after angle chip sched).chip ax).addressed) :
    samplesOf angle chip (sched ++ [l]) ≠ [] ∧
      ∃ pre, Began angle chip (sched ++ [l]) u ax pre ∧ Progress angle chip (sched ++ [l]) u ax pre stage := by
  obtain ⟨hne, pre, hbegan, hprogress⟩ := h.reading u ax stage hu hstage
  refine ⟨?_, pre, began_snoc hbegan hsame hstage, hprogress.snoc hchip⟩
  rw [samplesOf_snoc]
  exact List.append_ne_nil_of_left_ne_nil hne _

/-- A step that leaves SAMPLE low and takes no task out of its reading. -/
theorem Inv.low_snoc (h : Inv angle chip sched) (hedges : (SampleBus.after angle chip sched).edges l = [])
    (hsample : ((SampleBus.after angle chip sched).step l).sample = (SampleBus.after angle chip sched).sample)
    (hkeep : ∀ u ax stage, (SampleBus.after angle chip sched).task u = some (ax, stage) → stage ≠ .sampleLow →
      ∃ stage', ((SampleBus.after angle chip sched).step l).task u = some (ax, stage') ∧ stage' ≠ .sampleLow)
    (hlow : (SampleBus.after angle chip (sched ++ [l])).sample = false) :
    ∃ u ax pre, Began angle chip (sched ++ [l]) u ax pre ∧ (SampleBus.after angle chip pre).sample = true ∧
      samplesOf angle chip (pre ++ [.run u]) = samplesOf angle chip (sched ++ [l]) := by
  rw [after_snoc, hsample] at hlow
  obtain ⟨u, ax, pre, hbegan, htrue, hsamples⟩ := h.low hlow
  obtain ⟨stage, hu, hstage⟩ := hbegan.since sched hbegan.before (List.prefix_refl sched)
  obtain ⟨stage', hu', hstage'⟩ := hkeep u ax stage hu hstage
  refine ⟨u, ax, pre, began_snoc hbegan hu' hstage', htrue, ?_⟩
  rw [hsamples, samplesOf_snoc, hedges, List.append_nil]

/-- A resolver turns, or a task calls. -/
theorem inv_quiet (h : Inv angle chip sched) (hedges : (SampleBus.after angle chip sched).edges l = [])
    (hsample : ((SampleBus.after angle chip sched).step l).sample = (SampleBus.after angle chip sched).sample)
    (hmutex : ((SampleBus.after angle chip sched).step l).spi_mutex = (SampleBus.after angle chip sched).spi_mutex)
    (hchip : ((SampleBus.after angle chip sched).step l).chip = (SampleBus.after angle chip sched).chip)
    (htask : ∀ u ax stage, stage ≠ .sampleLow →
      (((SampleBus.after angle chip sched).step l).task u = some (ax, stage) ↔
        (SampleBus.after angle chip sched).task u = some (ax, stage))) :
    Inv angle chip (sched ++ [l]) := by
  refine ⟨?_, ?_, ?_, ?_⟩
  · intro t
    rw [after_snoc, hmutex, h.mutex]
    have hiff : ∀ ax rx tx, ((SampleBus.after angle chip sched).step l).task t = some (ax, .transfer rx tx) ↔
        (SampleBus.after angle chip sched).task t = some (ax, .transfer rx tx) := fun ax rx tx => htask t ax _ (by simp)
    simp only [hiff]
  · rw [samplesOf_snoc, hedges, List.append_nil, after_snoc, hchip]
    exact h.regs
  · intro u ax stage hu hstage
    rw [after_snoc] at hu
    exact h.stay ((htask u ax stage hstage).mp hu) hstage hu fun _ => by rw [hchip]
  · refine h.low_snoc hedges hsample ?_
    intro u ax stage hu hstage
    exact ⟨stage, (htask u ax stage hstage).mpr hu, hstage⟩

/-- A task that is in a reading goes on. -/
theorem step_run (htask : s.task t = some (ax, stage)) : s.step (.run t) = s.runTask t ax stage := by
  simp only [SampleBus.step, htask]

omit [DecidableEq τ] in
theorem edges_run (htask : s.task t = some (ax, stage)) :
    s.edges (.run t) = if s.sample = true ∧ stage = .sampleLow then [s.angle] else [] := by
  simp [SampleBus.edges, htask]

/-- The tasks after a step of one of them. -/
theorem task_goOn (next : Option (Axis × ReadStage)) (hu : u ≠ t) : (s.goOn t next).task u = s.task u :=
  Function.update_of_ne hu _ _

theorem task_goOn_self (next : Option (Axis × ReadStage)) : (s.goOn t next).task t = next := Function.update_self _ _ _

omit [DecidableEq τ] in
/-- A falling edge leaves what is selected. -/
theorem addressed_lower (ax : Axis) : (s.lower.chip ax).addressed = (s.chip ax).addressed := by
  unfold SampleBus.lower
  split <;> rfl

omit [DecidableEq τ] in
theorem task_lower : s.lower.task = s.task := by
  unfold SampleBus.lower
  split <;> rfl

omit [DecidableEq τ] in
theorem mutex_lower : s.lower.spi_mutex = s.spi_mutex := by
  unfold SampleBus.lower
  split <;> rfl

/-- A task is in the loop over the transfers. -/
def Transfers (next : Option (Axis × ReadStage)) : Prop := ∃ ax rx tx, next = some (ax, .transfer rx tx)

/-- The mutex belongs to the task that is in the loop: kept when one enters it, leaves it, or stays as it is. -/
theorem holder_goOn {m m' : Option τ} {task : τ → Option (Axis × ReadStage)} {next : Option (Axis × ReadStage)}
    (h : ∀ u, m = some u ↔ Transfers (task u))
    (hnext : Transfers next ∧ m' = some t ∧ (m = none ∨ m = some t) ∨ ¬Transfers next ∧ m' = none ∧ m = some t ∨
      ¬Transfers next ∧ m' = m ∧ m ≠ some t) (u : τ) :
    m' = some u ↔ Transfers (Function.update task t next u) := by
  by_cases hu : u = t
  · subst hu
    rw [Function.update_self]
    rcases hnext with ⟨hT, rfl, -⟩ | ⟨hT, rfl, -⟩ | ⟨hT, rfl, hne⟩
    · exact iff_of_true rfl hT
    · exact iff_of_false (by simp) hT
    · exact iff_of_false hne hT
  · rw [Function.update_of_ne hu, ← h u]
    rcases hnext with ⟨-, rfl, rfl | rfl⟩ | ⟨-, rfl, rfl⟩ | ⟨-, rfl, -⟩
    · simp [Ne.symm hu]
    · rfl
    · simp [Ne.symm hu]
    · rfl

/-- What is latched is latched. -/
theorem regs_latch (pos : UInt16) (c : Registers.Chip UInt8) :
    (latch pos c).regs ad2s1210RegPosition = highByte pos ∧ (latch pos c).regs (ad2s1210RegPosition + 1) = lowByte pos := by
  have hne : ad2s1210RegPosition ≠ ad2s1210RegPosition + 1 := by decide
  simp [latch, hne]

/-- SAMPLE is set low. -/
theorem inv_sampleLow (h : Inv angle chip sched) (htask : (SampleBus.after angle chip sched).task t = some (ax, .sampleLow)) :
    Inv angle chip (sched ++ [.run t]) := by
  have hstep : (SampleBus.after angle chip sched).step (.run t) =
      (SampleBus.after angle chip sched).lower.goOn t (some (ax, .take)) := step_run htask
  have hedges := edges_run htask
  simp only [and_true] at hedges
  have hother : ∀ u, u ≠ t → ((SampleBus.after angle chip sched).step (.run t)).task u =
      (SampleBus.after angle chip sched).task u := by
    intro u hu
    rw [hstep, task_goOn _ hu, task_lower]
  have hlow : ∃ u ax pre, Began angle chip (sched ++ [.run t]) u ax pre ∧ (SampleBus.after angle chip pre).sample = true ∧
      samplesOf angle chip (pre ++ [.run u]) = samplesOf angle chip (sched ++ [.run t]) := by
    by_cases hs : (SampleBus.after angle chip sched).sample = true
    · exact ⟨t, ax, sched, began_begin htask, hs, rfl⟩
    · obtain ⟨u, ax', pre, hbegan, htrue, hsamples⟩ := h.low (Bool.not_eq_true _ ▸ hs)
      obtain ⟨stage, hu, hstage⟩ := hbegan.since sched hbegan.before (List.prefix_refl sched)
      have hne : u ≠ t := by
        rintro rfl
        rw [htask] at hu
        exact hstage (Prod.mk.inj (Option.some_inj.mp hu)).2.symm
      refine ⟨u, ax', pre, began_snoc hbegan ((hother u hne).trans hu) hstage, htrue, ?_⟩
      rw [hsamples, samplesOf_snoc, hedges, if_neg hs, List.append_nil]
  have hsome : samplesOf angle chip (sched ++ [.run t]) ≠ [] := by
    obtain ⟨u, ax', pre, hbegan, htrue, hsamples⟩ := hlow
    rw [← hsamples, samplesOf_snoc, edges_run hbegan.start, if_pos ⟨htrue, rfl⟩]
    exact List.append_ne_nil_of_right_ne_nil _ (List.cons_ne_nil _ _)
  refine ⟨?_, ?_, ?_, fun _ => hlow⟩
  · rw [after_snoc, hstep]
    refine holder_goOn (by rw [task_lower]; exact h.mutex) (Or.inr (Or.inr ⟨?_, mutex_lower, ?_⟩))
    · rintro ⟨_, _, _, he⟩
      cases he
    · rw [ne_eq, h.mutex, htask]
      rintro ⟨_, _, _, he⟩
      cases he
  · rw [samplesOf_snoc, hedges, after_snoc, hstep]
    unfold SampleBus.lower
    split
    next hs =>
      intro a ha ax'
      rw [List.getLast?_concat] at ha
      obtain rfl := Option.some_inj.mp ha
      exact regs_latch _ _
    next hs =>
      rw [List.append_nil]
      exact h.regs
  · intro u ax' stage hu hstage
    rw [after_snoc] at hu
    by_cases hut : u = t
    · subst hut
      rw [hstep, task_goOn_self] at hu
      obtain ⟨rfl, rfl⟩ := Prod.mk.inj (Option.some_inj.mp hu)
      exact ⟨hsome, sched, began_begin htask, .take⟩
    · refine h.stay ((hother u hut).symm.trans hu) hstage hu fun _ => ?_
      rw [hstep]
      exact addressed_lower ax'

/-- What a later step of a reading has to show. -/
theorem Inv.move (h : Inv angle chip sched) (htask : (SampleBus.after angle chip sched).task t = some (ax, stage))
    (hstage : stage ≠ .sampleLow) {next : Option (Axis × ReadStage)}
    (hnext : ((SampleBus.after angle chip sched).step (.run t)).task =
      Function.update (SampleBus.after angle chip sched).task t next)
    (hmutex : ∀ u, ((SampleBus.after angle chip sched).step (.run t)).spi_mutex = some u ↔
      Transfers (Function.update (SampleBus.after angle chip sched).task t next u))
    (hregs : ∀ ax', (((SampleBus.after angle chip sched).step (.run t)).chip ax').regs =
      ((SampleBus.after angle chip sched).chip ax').regs)
    (haddressed : ∀ u, u ≠ t → Transfers ((SampleBus.after angle chip sched).task u) →
      ((SampleBus.after angle chip sched).step (.run t)).chip = (SampleBus.after angle chip sched).chip)
    (hprogress : ∀ pre, Progress angle chip sched t ax pre stage → Began angle chip sched t ax pre →
      ∀ ax' stage', next = some (ax', stage') →
        ax' = ax ∧ stage' ≠ .sampleLow ∧ Progress angle chip (sched ++ [.run t]) t ax pre stage')
    (hsample : ((SampleBus.after angle chip sched).step (.run t)).sample = (SampleBus.after angle chip sched).sample ∧
      next ≠ none ∨ ((SampleBus.after angle chip sched).step (.run t)).sample = true) :
    Inv angle chip (sched ++ [.run t]) := by
  have hedges : (SampleBus.after angle chip sched).edges (.run t) = [] := by
    rw [edges_run htask, if_neg fun hif => hstage hif.2]
  have hother : ∀ u, u ≠ t → ((SampleBus.after angle chip sched).step (.run t)).task u =
      (SampleBus.after angle chip sched).task u := by
    intro u hu
    rw [hnext, Function.update_of_ne hu]
  have hself : ((SampleBus.after angle chip sched).step (.run t)).task t = next := by rw [hnext, Function.update_self]
  obtain ⟨hsome, pre, hbegan, hold⟩ := h.reading t ax stage htask hstage
  refine ⟨?_, ?_, ?_, ?_⟩
  · rw [after_snoc, hnext]
    exact hmutex
  · intro a ha ax'
    rw [samplesOf_snoc, hedges, List.append_nil] at ha
    rw [after_snoc, hregs]
    exact h.regs a ha ax'
  · intro u ax' stage' hu hne
    rw [after_snoc] at hu
    by_cases hut : u = t
    · subst hut
      obtain ⟨rfl, -, hnew⟩ := hprogress pre hold hbegan ax' stage' (hself.symm.trans hu)
      refine ⟨?_, pre, began_snoc hbegan hu hne, hnew⟩
      rw [samplesOf_snoc]
      exact List.append_ne_nil_of_left_ne_nil hsome _
    · have hu' := (hother u hut).symm.trans hu
      refine h.stay hu' hne hu ?_
      rintro ⟨rx, tx, rfl⟩
      rw [haddressed u hut ⟨ax', rx, tx, hu'⟩]
  · rcases hsample with ⟨hsame, hnone⟩ | htrue
    · refine h.low_snoc hedges hsame ?_
      intro u ax' stage' hu hne
      by_cases hut : u = t
      · subst hut
        obtain ⟨⟨ax'', stage''⟩, hsome'⟩ := Option.ne_none_iff_exists'.mp hnone
        obtain ⟨rfl, hne'', -⟩ := hprogress pre hold hbegan ax'' stage'' hsome'
        rw [htask] at hu
        obtain ⟨rfl, -⟩ := Prod.mk.inj (Option.some_inj.mp hu)
        exact ⟨stage'', hself.trans hsome', hne''⟩
      · exact ⟨stage', (hother u hut).trans hu, hne⟩
    · intro hlow
      rw [after_snoc, htrue] at hlow
      cases hlow

/-- The mutex is taken, or the task waits for it. -/
theorem inv_take (h : Inv angle chip sched) (htask : (SampleBus.after angle chip sched).task t = some (ax, .take)) :
    Inv angle chip (sched ++ [.run t]) := by
  have hstep := step_run htask
  simp only [SampleBus.runTask] at hstep
  split at hstep
  next hnone =>
    have hnext : ((SampleBus.after angle chip sched).step (.run t)).task = Function.update
        (SampleBus.after angle chip sched).task t (some (ax, .transfer [] (configReadTwoTx ad2s1210RegPosition))) := by
      rw [hstep]
      rfl
    refine h.move htask (by simp) hnext ?_ (fun ax' => by rw [hstep]; rfl) (fun u hu hT => by rw [hstep]; rfl) ?_ ?_
    · rw [hstep]
      exact holder_goOn h.mutex (Or.inl ⟨⟨_, _, _, rfl⟩, rfl, Or.inl hnone⟩)
    · rintro pre hold hbegan ax' stage' ⟨⟩
      exact ⟨rfl, by simp, .first⟩
    · exact Or.inl ⟨by rw [hstep]; rfl, by simp⟩
  next =>
    exact inv_quiet h (by rw [edges_run htask]; simp) (by rw [hstep]) (by rw [hstep]) (by rw [hstep])
      (fun u ax stage _ => by rw [hstep])

/-- A word goes over the bus. -/
theorem inv_transfer (h : Inv angle chip sched) {rx : List UInt8}
    (htask : (SampleBus.after angle chip sched).task t = some (ax, .transfer rx (w :: tx))) :
    Inv angle chip (sched ++ [.run t]) := by
  have hstep := step_run htask
  simp only [SampleBus.runTask] at hstep
  have hholder : (SampleBus.after angle chip sched).spi_mutex = some t := (h.mutex t).mpr ⟨_, _, _, htask⟩
  obtain ⟨-, pre₀, -, hold₀⟩ := h.reading t ax _ htask (by simp)
  have haddress : isAddress w = true := by
    cases hold₀ <;> decide
  rw [Registers.transfer_address _ haddress] at hstep
  refine h.move htask (by simp) (by rw [hstep]; rfl) ?_ ?_ ?_ ?_ ?_
  · rw [hstep]
    exact holder_goOn h.mutex (Or.inl ⟨⟨_, _, _, rfl⟩, hholder, Or.inr hholder⟩)
  · intro ax'
    rw [hstep]
    by_cases hax : ax' = ax
    · subst hax
      simp [SampleBus.goOn]
    · simp [SampleBus.goOn, hax]
  · intro u hu hT
    have hsome := (h.mutex u).mpr hT
    rw [hholder] at hsome
    exact absurd (Option.some_inj.mp hsome).symm hu
  · rintro pre hold hbegan ax' stage' ⟨⟩
    refine ⟨rfl, by simp, ?_⟩
    have hselected : ((SampleBus.after angle chip (sched ++ [.run t])).chip ax).addressed = w := by
      rw [after_snoc, hstep]
      simp [SampleBus.goOn]
    obtain ⟨hsome, -⟩ := h.reading t ax _ htask (by simp)
    obtain ⟨a, ha⟩ := Option.ne_none_iff_exists'.mp (mt List.getLast?_eq_none_iff.mp hsome)
    cases hold with
    | first => exact .second _ hselected
    | second w' haddr =>
      rw [haddr]
      refine .third w' hselected ⟨hbegan.before, List.prefix_refl _, htask, a, ha, (h.regs a ha ax).1⟩
    | third w' haddr g =>
      rw [haddr]
      exact .last w' (g.snoc _) ⟨g.before, List.prefix_refl _, htask, a, ha, (h.regs a ha ax).2⟩
  · exact Or.inl ⟨by rw [hstep]; rfl, by simp⟩

/-- The mutex is given back. -/
theorem inv_give (h : Inv angle chip sched) {rx : List UInt8}
    (htask : (SampleBus.after angle chip sched).task t = some (ax, .transfer rx [])) : Inv angle chip (sched ++ [.run t]) := by
  have hstep := step_run htask
  simp only [SampleBus.runTask] at hstep
  have hholder : (SampleBus.after angle chip sched).spi_mutex = some t := (h.mutex t).mpr ⟨_, _, _, htask⟩
  refine h.move htask (by simp) (by rw [hstep]; rfl) ?_ (fun ax' => by rw [hstep]; rfl) (fun u hu hT => by rw [hstep]; rfl) ?_ ?_
  · rw [hstep]
    refine holder_goOn h.mutex (Or.inr (Or.inl ⟨?_, rfl, hholder⟩))
    rintro ⟨_, _, _, he⟩
    cases he
  · rintro pre hold hbegan ax' stage' ⟨⟩
    refine ⟨rfl, by simp, ?_⟩
    cases hold with
    | last w' g g' => exact .done w' (g.snoc _) (g'.snoc _)
  · exact Or.inl ⟨by rw [hstep]; rfl, by simp⟩

/-- SAMPLE is set high, and the reading returns. -/
theorem inv_sampleHigh (h : Inv angle chip sched) {rx : List UInt8}
    (htask : (SampleBus.after angle chip sched).task t = some (ax, .sampleHigh rx)) : Inv angle chip (sched ++ [.run t]) := by
  have hstep := step_run htask
  simp only [SampleBus.runTask] at hstep
  refine h.move htask (by simp) (by rw [hstep]; rfl) ?_ (fun ax' => by rw [hstep]; rfl) (fun u hu hT => by rw [hstep]; rfl) ?_ ?_
  · rw [hstep]
    refine holder_goOn h.mutex (Or.inr (Or.inr ⟨?_, rfl, ?_⟩))
    · rintro ⟨_, _, _, he⟩
      cases he
    · rw [ne_eq, h.mutex, htask]
      rintro ⟨_, _, _, he⟩
      cases he
  · rintro pre hold hbegan ax' stage' ⟨⟩
  · exact Or.inr (by rw [hstep]; rfl)

/-- What holds after every run. -/
theorem inv_run (angle : Axis → UInt16) (chip : Axis → Registers.Chip UInt8) (sched : List (SampleLabel τ)) :
    Inv angle chip sched := by
  induction sched using List.reverseRecOn with
  | nil => exact inv_nil angle chip
  | append_singleton sched l h =>
    cases l with
    | turn ax pos => exact inv_quiet h rfl rfl rfl rfl (fun u ax stage _ => Iff.rfl)
    | call t ax =>
      by_cases hnone : (SampleBus.after angle chip sched).task t = none
      · have hstep : (SampleBus.after angle chip sched).step (.call t ax) =
            (SampleBus.after angle chip sched).goOn t (some (ax, .sampleLow)) := if_pos hnone
        refine inv_quiet h rfl (by rw [hstep]; rfl) (by rw [hstep]; rfl) (by rw [hstep]; rfl) ?_
        intro u ax' stage hstage
        rw [hstep]
        by_cases hut : u = t
        · subst hut
          rw [task_goOn_self, hnone]
          simp [Ne.symm hstage]
        · rw [task_goOn _ hut]
      · have hstep : (SampleBus.after angle chip sched).step (.call t ax) = SampleBus.after angle chip sched := if_neg hnone
        exact inv_quiet h rfl (by rw [hstep]) (by rw [hstep]) (by rw [hstep]) (fun u ax stage _ => by rw [hstep])
    | run t =>
      rcases htask : (SampleBus.after angle chip sched).task t with _ | ⟨ax, stage⟩
      · have hstep : (SampleBus.after angle chip sched).step (.run t) = SampleBus.after angle chip sched := by
          simp only [SampleBus.step, htask]
        have hedges : (SampleBus.after angle chip sched).edges (.run t) = [] := by simp [SampleBus.edges, htask]
        exact inv_quiet h hedges (by rw [hstep]) (by rw [hstep]) (by rw [hstep]) (fun u ax stage _ => by rw [hstep])
      · cases stage with
        | sampleLow => exact inv_sampleLow h htask
        | take => exact inv_take h htask
        | transfer rx tx =>
          cases tx with
          | nil => exact inv_give h htask
          | cons w tx => exact inv_transfer h htask
        | sampleHigh rx => exact inv_sampleHigh h htask

/-! ### How old a position is -/

/-- What is latched in a run is latched in every run that goes on from it. -/
theorem samplesOf_mono {mid mid' : List (SampleLabel τ)} (h : mid <+: mid') :
    samplesOf angle chip mid <+: samplesOf angle chip mid' := by
  obtain ⟨rest, rfl⟩ := h
  unfold samplesOf
  rw [Runs.trace_append]
  exact List.prefix_append _ _

omit [DecidableEq τ] in
/-- A step that latches a position begins a reading. -/
theorem sampleLow_of_edges {a : Axis → UInt16} (h : a ∈ s.edges l) :
    ∃ u ax, l = .run u ∧ s.task u = some (ax, .sampleLow) ∧ s.sample = true ∧ s.edges l = [s.angle] := by
  cases l with
  | turn ax pos => cases h
  | call u ax => cases h
  | run u =>
    rcases htask : s.task u with _ | ⟨ax, stage⟩
    · simp [SampleBus.edges, htask] at h
    · rw [edges_run htask] at h ⊢
      split at h
      next hif =>
        obtain ⟨hsample, rfl⟩ := hif
        exact ⟨u, ax, rfl, htask, hsample, if_pos ⟨hsample, rfl⟩⟩
      next => cases h

/-- The position latched last was latched where a reading began. -/
theorem last_edge {a : Axis → UInt16} (h : a ∈ (samplesOf angle chip sched).getLast?) :
    ∃ u ax q, q ++ [.run u] <+: sched ∧ a = (SampleBus.after angle chip q).angle ∧
      samplesOf angle chip (q ++ [.run u]) = samplesOf angle chip sched ∧
      (SampleBus.after angle chip q).task u = some (ax, .sampleLow) := by
  induction sched using List.reverseRecOn with
  | nil => simp [samplesOf, Runs.trace] at h
  | append_singleton sched l ih =>
    rw [samplesOf_snoc] at h
    by_cases hnil : (SampleBus.after angle chip sched).edges l = []
    · rw [hnil, List.append_nil] at h
      obtain ⟨u, ax, q, hq, ha, hsame, htask⟩ := ih h
      refine ⟨u, ax, q, hq.trans (List.prefix_append sched [l]), ha, ?_, htask⟩
      rw [hsame, samplesOf_snoc, hnil, List.append_nil]
    · obtain ⟨b, hb⟩ := List.exists_mem_of_ne_nil _ hnil
      obtain ⟨u, ax, rfl, htask, -, hedges⟩ := sampleLow_of_edges hb
      rw [hedges, List.getLast?_concat] at h
      exact ⟨u, ax, sched, List.prefix_refl _, (Option.some_inj.mp h).symm, rfl, htask⟩

/-- Where a reading is going on, the position latched last is not older than the oldest reading that was going on when it began. -/
theorem latchedBy {mid : List (SampleLabel τ)} {a : Axis → UInt16}
    (hstart : (SampleBus.after angle chip pre).task t = some (ax, .sampleLow)) (hmid : pre ++ [.run t] <+: mid)
    (ha : a ∈ (samplesOf angle chip mid).getLast?) : LatchedBy angle chip pre mid a := by
  refine ⟨ha, ?_⟩
  obtain ⟨u, ax', q, hq, hangle, hsame, -⟩ := last_edge ha
  by_cases hpre : pre <+: q
  · exact ⟨u, q, hq, hangle, hsame, Or.inl hpre⟩
  · -- the last falling edge came before the reading began, so SAMPLE was low then
    have hpremid : pre <+: mid := (List.prefix_append pre [.run t]).trans hmid
    have hqpre : q ++ [.run u] <+: pre := by
      rcases List.prefix_or_prefix_of_prefix hq hpremid with hle | hle
      · exact hle
      · rcases List.prefix_concat_iff.mp hle with heq | hle
        · exact heq ▸ List.prefix_refl _
        · exact absurd hle hpre
    have hsteady : samplesOf angle chip pre = samplesOf angle chip mid :=
      (samplesOf_mono hpremid).eq_of_length_le (hsame ▸ (samplesOf_mono hqpre).length_le)
    have hnone : samplesOf angle chip (pre ++ [.run t]) = samplesOf angle chip pre :=
      ((samplesOf_mono (List.prefix_append pre [.run t])).eq_of_length_le (hsteady ▸ (samplesOf_mono hmid).length_le)).symm
    have hlow : (SampleBus.after angle chip pre).sample = false := by
      rw [samplesOf_snoc, edges_run hstart] at hnone
      by_contra hhigh
      simp [Bool.not_eq_false _ ▸ hhigh] at hnone
    obtain ⟨v, axv, p, hbegan, htrue, hp⟩ := (inv_run angle chip pre).low hlow
    refine ⟨v, p, hbegan.before.trans hpremid, ?_, hp.trans hsteady, Or.inr ⟨axv, hbegan⟩⟩
    rw [← hsteady, ← hp, samplesOf_snoc, edges_run hbegan.start, if_pos ⟨htrue, rfl⟩, List.getLast?_concat] at ha
    exact (Option.some_inj.mp ha).symm

/-! ### A reading that is torn -/

/-- A task has read one position and is about to set SAMPLE high; then another has received the high byte of it; then the first lets
SAMPLE rise and fall again, and the other goes on. -/
def tearing (t u : τ) (ax : Axis) (v w : UInt16) : List (SampleLabel τ) :=
  [.turn ax v, .call u ax] ++ List.replicate 6 (.run u) ++ [.call t ax] ++ List.replicate 4 (.run t) ++
    [.run u, .turn ax w, .call u ax, .run u] ++ List.replicate 2 (.run t)

theorem after_tearing (angle : Axis → UInt16) (chip : Axis → Registers.Chip UInt8) {t u : τ} (hut : u ≠ t) (ax : Axis)
    (v w : UInt16) : (SampleBus.after angle chip (tearing t u ax v w)).task t =
      some (ax, .sampleHigh [(chip ax).regs ad2s1210RegFault, highByte v, lowByte w]) := by
  have htu := Ne.symm hut
  have htx : configReadTwoTx 0x80 = [0x80, 0x81, 0xFF] := by decide
  have hpos : isAddress 0x80 = true ∧ isAddress 0x81 = true ∧ isAddress 0xFF = true := by decide
  have hreg : ad2s1210RegPosition = 0x80 := rfl
  simp [SampleBus.after, tearing, SampleBus.boot, List.replicate, SampleBus.step, SampleBus.runTask, SampleBus.goOn, SampleBus.lower,
    hut, htu, htx, hpos, hreg, ad2s1210RegFault, Registers.Chip.transfer, latch]

end SamplingAux

open SamplingAux

/-- Over every interleaving, a reading is made of the high byte of the position latched last before its second word and the low byte
of the one latched last before its third. If no falling edge came between the two words, it is the position that was latched. Neither
was latched before the start of the oldest reading that was going on when this one began. -/
theorem reading_is_sampled (angle : Axis → UInt16) (chip : Axis → Registers.Chip UInt8) (sched : List (SampleLabel τ)) (t : τ)
    (ax : Axis) (rx : List UInt8) (h : (SampleBus.after angle chip sched).task t = some (ax, .sampleHigh rx)) :
    ∃ pre pre₁ pre₂ w a₁ a₂, ReadingOf angle chip sched t ax rx pre pre₁ pre₂ w a₁ a₂ := by
  obtain ⟨-, pre, hbegan, hprogress⟩ := (inv_run angle chip sched).reading t ax _ h (by simp)
  cases hprogress with
  | @done w high lo pre₁ pre₂ g g' =>
    obtain ⟨a₁, ha₁, rfl⟩ := g.high
    obtain ⟨a₂, ha₂, rfl⟩ := g'.low
    have hlater : pre ++ [.run t] <+: pre₂ := g.after.trans ((List.prefix_append pre₁ [.run t]).trans g'.after)
    refine ⟨pre, pre₁, pre₂, w, a₁, a₂, hbegan, g.after, g'.after, g'.before, g.stage, g'.stage,
      latchedBy hbegan.start g.after ha₁, latchedBy hbegan.start hlater ha₂, rfl, ?_⟩
    intro he
    rw [he] at ha₁
    obtain rfl := Option.some_inj.mp (ha₁.symm.trans ha₂)
    exact joinBytes_bytes (a₁ ax)

/-- Two readings of the arm that overlap, the second of which lets SAMPLE rise and fall between the words of the first. -/
def overlapping : List (SampleLabel Bool) := tearing true false .arm 0x1234 0x1300

theorem reading_is_sampled_sample :
    ∃ pre pre₁ pre₂ w a₁ a₂, ReadingOf (fun _ => 0) (fun _ => ⟨fun _ => 0, 0⟩) overlapping true .arm [0, 0x12, 0x00] pre pre₁ pre₂ w
      a₁ a₂ :=
  reading_is_sampled _ _ overlapping true .arm [0, 0x12, 0x00] (by decide +kernel)

/-- Over every interleaving, while SAMPLE is low the positions in the registers were latched at the start of a reading that is still in
progress. -/
theorem latched_in_progress (angle : Axis → UInt16) (chip : Axis → Registers.Chip UInt8) (sched : List (SampleLabel τ))
    (h : (SampleBus.after angle chip sched).sample = false) :
    ∃ u ax pre, Began angle chip sched u ax pre ∧
      (samplesOf angle chip sched).getLast? = some (SampleBus.after angle chip pre).angle ∧
      ∀ ax', ((SampleBus.after angle chip sched).chip ax').regs ad2s1210RegPosition =
          highByte ((SampleBus.after angle chip pre).angle ax') ∧
        ((SampleBus.after angle chip sched).chip ax').regs (ad2s1210RegPosition + 1) =
          lowByte ((SampleBus.after angle chip pre).angle ax') := by
  obtain ⟨u, ax, pre, hbegan, htrue, hsamples⟩ := (inv_run angle chip sched).low h
  have hlast : (samplesOf angle chip sched).getLast? = some (SampleBus.after angle chip pre).angle := by
    rw [← hsamples, samplesOf_snoc, edges_run hbegan.start, if_pos ⟨htrue, rfl⟩, List.getLast?_concat]
  exact ⟨u, ax, pre, hbegan, hlast, (inv_run angle chip sched).regs _ hlast⟩

/-- A task begins to read the arm, and another to read the pole after the resolver of the arm has turned. -/
def begunTogether : List (SampleLabel Bool) :=
  [.turn .arm 0x1234, .call true .arm, .run true, .turn .arm 0x2000, .call false .pole, .run false, .run true, .run false]

theorem latched_in_progress_sample :
    ∃ u ax pre, Began (fun _ => 0) (fun _ => ⟨fun _ => 0, 0⟩) begunTogether u ax pre ∧
      (samplesOf (fun _ => 0) (fun _ => ⟨fun _ => 0, 0⟩) begunTogether).getLast? =
        some (SampleBus.after (fun _ => 0) (fun _ => ⟨fun _ => 0, 0⟩) pre).angle ∧
      ∀ ax', ((SampleBus.after (fun _ => 0) (fun _ => ⟨fun _ => 0, 0⟩) begunTogether).chip ax').regs ad2s1210RegPosition =
          highByte ((SampleBus.after (fun _ => 0) (fun _ => ⟨fun _ => 0, 0⟩) pre).angle ax') ∧
        ((SampleBus.after (fun _ => 0) (fun _ => ⟨fun _ => 0, 0⟩) begunTogether).chip ax').regs (ad2s1210RegPosition + 1) =
          lowByte ((SampleBus.after (fun _ => 0) (fun _ => ⟨fun _ => 0, 0⟩) pre).angle ax') :=
  latched_in_progress _ _ begunTogether (by decide +kernel)

/-- Whatever two positions a resolver stands at, one after the other, a task can read the high byte of the first and the low byte of the
second: another task that reads the same axis sets SAMPLE high and low again in between. -/
theorem torn_reading (angle : Axis → UInt16) (chip : Axis → Registers.Chip UInt8) {t u : τ} (hut : u ≠ t) (ax : Axis)
    (v w : UInt16) :
    ∃ sched : List (SampleLabel τ), (∀ ax' pos, .turn ax' pos ∈ sched → ax' = ax ∧ (pos = v ∨ pos = w)) ∧
      ∃ rx, (SampleBus.after angle chip sched).task t = some (ax, .sampleHigh rx) ∧
        configReadTwo rx = joinBytes (highByte v) (lowByte w) := by
  refine ⟨tearing t u ax v w, ?_, _, after_tearing angle chip hut ax v w, rfl⟩
  intro ax' pos h
  simp only [tearing, List.mem_append, List.mem_cons, List.mem_replicate, reduceCtorEq, and_false, or_false, false_or,
    List.not_mem_nil, SampleLabel.turn.injEq] at h
  rcases h with ⟨rfl, rfl⟩ | ⟨rfl, rfl⟩
  · exact ⟨rfl, Or.inl rfl⟩
  · exact ⟨rfl, Or.inr rfl⟩

theorem torn_reading_sample :
    ∃ sched : List (SampleLabel Bool), (∀ ax' pos, .turn ax' pos ∈ sched → ax' = .arm ∧ (pos = 0x00FF ∨ pos = 0x0100)) ∧
      ∃ rx, (SampleBus.after (fun _ => 0) (fun _ => ⟨fun _ => 0, 0⟩) sched).task true = some (.arm, .sampleHigh rx) ∧
        configReadTwo rx = joinBytes (highByte 0x00FF) (lowByte 0x0100) :=
  torn_reading _ _ Bool.false_ne_true .arm 0x00FF 0x0100

end Rtu

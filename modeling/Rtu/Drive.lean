import Rtu.Runs

/-!
# Drives that are switched on and off in time

A drive is on, in a direction, or off. What is seen of it over time is a list of intervals (`Log`), and the law of a drive that needs
time to come to rest is that two intervals in opposite directions, next to each other, are some gap apart (`Log.Apart`).

A device is a task that handles messages one after the other, switches a drive, and may wait once within a message. `apart_iff` says
when a device that waits before it reverses keeps the law: it may forget the direction of the drive while the drive is off,
and then nothing but the time of the next message keeps the intervals apart. Nothing here names a particular device.
-/

namespace Drive

universe u v w x

variable {δ : Type u} {α : Type v} {μ : Type w} {κ : Type x}

/-! ## What is seen of a drive -/

/-- An interval in which the drive was on, in one direction. -/
structure Interval (δ : Type u) where
  dir : δ
  start : Nat
  stop : Nat
  deriving DecidableEq, Repr

/-- The intervals that are over, newest first, and the direction and the start of the one under way. -/
structure Log (δ : Type u) where
  past : List (Interval δ)
  now : Option (δ × Nat)
  deriving DecidableEq, Repr

/-- Nothing seen yet. -/
def Log.empty : Log δ := { past := [], now := none }

/-- An interval that starts at `t` in direction `d` is far enough from the one before it, if that had another direction. -/
def AfterGap (gap : Nat) (past : List (Interval δ)) (d : δ) (t : Nat) : Prop :=
  ∀ iv, past.head? = some iv → iv.dir ≠ d → iv.stop + gap ≤ t

/-- Each interval is far enough from the one before it, if that had another direction. -/
def Spaced (gap : Nat) : List (Interval δ) → Prop
  | [] => True
  | iv :: past => AfterGap gap past iv.dir iv.start ∧ Spaced gap past

/-- Any two intervals in opposite directions, with no interval between them, are the gap apart. -/
def Log.Apart (gap : Nat) (log : Log δ) : Prop :=
  Spaced gap log.past ∧ ∀ d s, log.now = some (d, s) → AfterGap gap log.past d s

/-- The direction of the newest interval. -/
def Log.lastDir (log : Log δ) : Option δ :=
  match log.now with
  | some (d, _) => some d
  | none => log.past.head?.map Interval.dir

/-- No interval ended after `t`. -/
def Log.UpTo (log : Log δ) (t : Nat) : Prop := ∀ iv ∈ log.past, iv.stop ≤ t

theorem apart_empty (gap : Nat) : (Log.empty : Log δ).Apart gap := by
  refine ⟨trivial, ?_⟩
  intro d s h
  cases h

/-- A start in the direction of the newest interval needs no gap. -/
theorem afterGap_of_lastDir {log : Log δ} {d : δ} (hnow : log.now = none) (hdir : log.lastDir = some d) (gap t : Nat) :
    AfterGap gap log.past d t := by
  intro iv hhead hne
  unfold Log.lastDir at hdir
  rw [hnow, hhead] at hdir
  exact absurd (Option.some.inj hdir) hne

/-- A start a gap after a time by which all intervals are over. -/
theorem afterGap_of_upTo {log : Log δ} {t : Nat} (h : log.UpTo t) (d : δ) {gap t' : Nat} (ht : t + gap ≤ t') :
    AfterGap gap log.past d t' := by
  intro iv hhead _
  have hstop := h iv (List.mem_of_mem_head? hhead)
  omega

/-! ## Switching off -/

/-- At time `t` the drive is off. -/
def Log.off (log : Log δ) (t : Nat) : Log δ :=
  match log.now with
  | none => log
  | some (d, s) => { past := { dir := d, start := s, stop := t } :: log.past, now := none }

/-- Switching off keeps the law. -/
theorem apart_off {gap : Nat} {log : Log δ} (h : log.Apart gap) (t : Nat) : (log.off t).Apart gap := by
  obtain ⟨past, now⟩ := log
  obtain ⟨hpast, hnow⟩ := h
  cases now with
  | none => exact ⟨hpast, hnow⟩
  | some p =>
    refine ⟨⟨hnow p.1 p.2 rfl, hpast⟩, ?_⟩
    intro d s hno
    cases hno

/-- Switching off leaves the direction of the newest interval. -/
theorem lastDir_off (log : Log δ) (t : Nat) : (log.off t).lastDir = log.lastDir := by
  obtain ⟨past, now⟩ := log
  cases now <;> rfl

/-- After switching off, no interval is under way. -/
theorem now_off (log : Log δ) (t : Nat) : (log.off t).now = none := by
  obtain ⟨past, now⟩ := log
  cases now <;> rfl

theorem upTo_off {log : Log δ} {t : Nat} (h : log.UpTo t) : (log.off t).UpTo t := by
  obtain ⟨past, now⟩ := log
  cases now with
  | none => exact h
  | some p => exact List.forall_mem_cons.mpr ⟨Nat.le_refl t, h⟩

/-! ## Devices -/

/-- A task that switches a drive: how it handles a message, holding something if it waits, how it goes on after the wait, and what
its drive does. -/
structure Device (α : Type v) (μ : Type w) (κ : Type x) (δ : Type u) where
  handle : α → μ → α × Option κ
  resume : κ → α → α
  on : α → Bool
  dir : α → δ

/-- A message, with the time of its arrival, and by how much a wait within it exceeds the least one. -/
structure Arrival (μ : Type w) where
  msg : μ
  time : Nat
  extra : Nat

/-- A device in time: its state, the time at which it has handled the messages so far, and what was seen of the drive. -/
structure Timed (α : Type v) (δ : Type u) where
  state : α
  clock : Nat
  log : Log δ

/-- A device at time 0, nothing seen. -/
def Timed.start (state : α) : Timed α δ := { state := state, clock := 0, log := .empty }

/-- When a message is taken: as it arrives, or as the device is ready for it. -/
def Timed.taken (s : Timed α δ) (a : Arrival μ) : Nat := max s.clock a.time

/-- The device waits before it reverses, as far as it remembers the direction of its drive: `kept` is the direction it remembers, and
an energised drive is one whose direction is remembered. -/
structure Device.Waits (dv : Device α μ κ δ) (kept : α → Option δ) (Inv : α → Prop) : Prop where
  energised : ∀ a, Inv a → dv.on a = true → kept a = some (dv.dir a)
  handled : ∀ a m st, Inv a → dv.handle a m = (st, none) →
    Inv st ∧ (dv.on st = false → kept st = none ∨ kept st = kept a) ∧
      (dv.on st = true → kept a = none ∨ kept a = some (dv.dir st))
  waiting : ∀ a m st k, Inv a → dv.handle a m = (st, some k) →
    dv.on st = false ∧ Inv (dv.resume k st) ∧ dv.on (dv.resume k st) = true

/-- The message, if it starts the drive when its direction is not remembered, starts it in the direction of the newest interval or
a gap after its end. -/
def Device.Patient (dv : Device α μ κ δ) (kept : α → Option δ) (pause : Nat) (s : Timed α δ) (a : Arrival μ) : Prop :=
  ∀ st, dv.handle s.state a.msg = (st, none) → kept s.state = none → dv.on st = true →
    AfterGap pause s.log.past (dv.dir st) (s.taken a)

/-- Between messages: the log agrees with the drive, a direction remembered is that of the newest interval, and no interval ended
later than now. -/
structure Follows (dv : Device α μ κ δ) (kept : α → Option δ) (Inv : α → Prop) (s : Timed α δ) : Prop where
  inv : Inv s.state
  on : dv.on s.state = true → ∃ t, s.log.now = some (dv.dir s.state, t)
  off : dv.on s.state = false → s.log.now = none
  kept : ∀ d, kept s.state = some d → s.log.lastDir = some d
  upTo : s.log.UpTo s.clock

variable {dv : Device α μ κ δ} {kept : α → Option δ} {Inv : α → Prop}

/-- A device whose drive is off, and whose direction is not remembered, starts in agreement. -/
theorem follows_start {a : α} (ha : Inv a) (hoff : dv.on a = false) (hkept : kept a = none) :
    Follows dv kept Inv (.start a) := by
  refine ⟨ha, ?_, fun _ => rfl, ?_, fun iv hiv => by cases hiv⟩
  · intro hon
    rw [show dv.on a = true from hon] at hoff
    cases hoff
  · intro d hd
    rw [show kept a = some d from hd] at hkept
    cases hkept

/-- A drive whose direction is not remembered is off. -/
theorem Follows.off_of_kept_none {s : Timed α δ} (h : Follows dv kept Inv s) (hw : dv.Waits kept Inv)
    (hkept : kept s.state = none) : s.log.now = none := by
  apply h.off
  cases hon : dv.on s.state with
  | false => rfl
  | true =>
    have hsome := hw.energised s.state h.inv hon
    rw [hkept] at hsome
    cases hsome

/-- Where a message may leave the drive on without a wait, the drive is on in that direction, or it is off. -/
theorem Follows.started {s : Timed α δ} (h : Follows dv kept Inv s) (hw : dv.Waits kept Inv) {d : δ}
    (hkept : kept s.state = none ∨ kept s.state = some d) :
    (∃ t, s.log.now = some (d, t)) ∨ (s.log.now = none ∧ (kept s.state = none ∨ s.log.lastDir = some d)) := by
  cases hon : dv.on s.state with
  | true =>
    have hsome := hw.energised s.state h.inv hon
    rcases hkept with hnone | hd
    · rw [hnone] at hsome
      cases hsome
    · rw [hd] at hsome
      rw [Option.some.inj hsome]
      exact Or.inl (h.on hon)
  | false =>
    refine Or.inr ⟨h.off hon, ?_⟩
    rcases hkept with hnone | hd
    · exact Or.inl hnone
    · exact Or.inr (h.kept d hd)

/-- No interval ended after the message is taken. -/
theorem Follows.upTo_taken {s : Timed α δ} (h : Follows dv kept Inv s) (a : Arrival μ) : s.log.UpTo (s.taken a) :=
  fun iv hiv => Nat.le_trans (h.upTo iv hiv) (Nat.le_max_left _ _)

/-! ## Switching on -/

variable [DecidableEq δ]

/-- At time `t` the drive is on in direction `d`. -/
def Log.on (log : Log δ) (d : δ) (t : Nat) : Log δ :=
  match log.now with
  | none => { log with now := some (d, t) }
  | some (d', s) =>
    if d' = d then log else { past := { dir := d', start := s, stop := t } :: log.past, now := some (d, t) }

/-- What is seen at time `t`. -/
def Log.see (log : Log δ) (t : Nat) (on : Bool) (d : δ) : Log δ := if on then log.on d t else log.off t

/-- While the drive is on, switching it on in its direction changes nothing. -/
theorem on_same {log : Log δ} {d : δ} {s : Nat} (hnow : log.now = some (d, s)) (t : Nat) : log.on d t = log := by
  unfold Log.on
  rw [hnow]
  exact if_pos rfl

/-- From off, an interval in direction `d` begins. -/
theorem on_of_off {log : Log δ} (hnow : log.now = none) (d : δ) (t : Nat) : log.on d t = { log with now := some (d, t) } := by
  unfold Log.on
  rw [hnow]

/-- From off, switching on keeps the law exactly when the gap is kept. -/
theorem apart_on_iff {gap : Nat} {log : Log δ} (h : log.Apart gap) (hnow : log.now = none) (d : δ) (t : Nat) :
    (log.on d t).Apart gap ↔ AfterGap gap log.past d t := by
  rw [on_of_off hnow]
  constructor
  · rintro ⟨-, hgap⟩
    exact hgap d t rfl
  · intro hgap
    refine ⟨h.1, ?_⟩
    intro d' s hsome
    cases hsome
    exact hgap

/-! ## A device in time -/

/-- A message handled to its end. -/
def Device.step (dv : Device α μ κ δ) (pause : Nat) (s : Timed α δ) (a : Arrival μ) : Timed α δ :=
  match dv.handle s.state a.msg with
  | (st, none) => { state := st, clock := s.taken a, log := s.log.see (s.taken a) (dv.on st) (dv.dir st) }
  | (st, some k) =>
    { state := dv.resume k st
      clock := s.taken a + pause + a.extra
      log := (s.log.see (s.taken a) (dv.on st) (dv.dir st)).see (s.taken a + pause + a.extra) (dv.on (dv.resume k st))
        (dv.dir (dv.resume k st)) }

/-- A message that leaves the drive off. -/
theorem step_off {pause : Nat} {s : Timed α δ} {a : Arrival μ} {st : α} (h : dv.handle s.state a.msg = (st, none))
    (hon : dv.on st = false) : dv.step pause s a = { state := st, clock := s.taken a, log := s.log.off (s.taken a) } := by
  simp [Device.step, h, Log.see, hon]

/-- A message that leaves the drive on, without a wait. -/
theorem step_on {pause : Nat} {s : Timed α δ} {a : Arrival μ} {st : α} (h : dv.handle s.state a.msg = (st, none))
    (hon : dv.on st = true) :
    dv.step pause s a = { state := st, clock := s.taken a, log := s.log.on (dv.dir st) (s.taken a) } := by
  simp [Device.step, h, Log.see, hon]

/-- A message with a wait, in which the drive is off and after which it is on. -/
theorem step_wait {pause : Nat} {s : Timed α δ} {a : Arrival μ} {st : α} {k : κ} (h : dv.handle s.state a.msg = (st, some k))
    (hoff : dv.on st = false) (hon : dv.on (dv.resume k st) = true) :
    dv.step pause s a =
      { state := dv.resume k st
        clock := s.taken a + pause + a.extra
        log := (s.log.off (s.taken a)).on (dv.dir (dv.resume k st)) (s.taken a + pause + a.extra) } := by
  simp [Device.step, h, Log.see, hoff, hon]

/-- A message keeps the log in agreement. -/
theorem Follows.step {s : Timed α δ} (h : Follows dv kept Inv s) (hw : dv.Waits kept Inv) (pause : Nat) (a : Arrival μ) :
    Follows dv kept Inv (dv.step pause s a) := by
  have hupTo := h.upTo_taken a
  -- A direction that is remembered while the drive is on is the direction of the drive.
  have hkeeps : ∀ st, Inv st → dv.on st = true → ∀ d, kept st = some d → some (dv.dir st) = some d := by
    intro st hinv hon d hd
    rw [← hd, hw.energised st hinv hon]
  cases hhandle : dv.handle s.state a.msg with
  | mk st held =>
    cases held with
    | none =>
      obtain ⟨hinv, hstop, hgo⟩ := hw.handled s.state a.msg st h.inv hhandle
      cases hon : dv.on st with
      | false =>
        rw [step_off hhandle hon]
        refine ⟨hinv, by simp [hon], fun _ => now_off _ _, ?_, upTo_off hupTo⟩
        intro d hd
        have hsame : kept s.state = some d := by
          rcases hstop hon with hnone | heq
          · rw [hnone] at hd
            cases hd
          · rw [← heq]
            exact hd
        exact (lastDir_off s.log _).trans (h.kept d hsame)
      | true =>
        rw [step_on hhandle hon]
        rcases h.started hw (hgo hon) with ⟨t, hnow⟩ | ⟨hnow, -⟩
        · rw [on_same hnow]
          refine ⟨hinv, fun _ => ⟨t, hnow⟩, by simp [hon], ?_, hupTo⟩
          intro d hd
          rw [← hkeeps st hinv hon d hd]
          simp [Log.lastDir, hnow]
        · rw [on_of_off hnow]
          exact ⟨hinv, fun _ => ⟨_, rfl⟩, by simp [hon], hkeeps st hinv hon, hupTo⟩
    | some k =>
      obtain ⟨hoff, hinv, hon⟩ := hw.waiting s.state a.msg st k h.inv hhandle
      rw [step_wait hhandle hoff hon, on_of_off (now_off _ _)]
      refine ⟨hinv, fun _ => ⟨_, rfl⟩, by simp [hon], hkeeps _ hinv hon, ?_⟩
      intro iv hiv
      have hstop := upTo_off hupTo iv hiv
      dsimp only
      omega

/-- A message keeps the law exactly when it is patient. -/
theorem Follows.apart_step_iff {s : Timed α δ} (h : Follows dv kept Inv s) (hw : dv.Waits kept Inv) {pause : Nat}
    (hapart : s.log.Apart pause) (a : Arrival μ) : (dv.step pause s a).log.Apart pause ↔ dv.Patient kept pause s a := by
  unfold Device.Patient
  cases hhandle : dv.handle s.state a.msg with
  | mk st held =>
    cases held with
    | none =>
      obtain ⟨-, -, hgo⟩ := hw.handled s.state a.msg st h.inv hhandle
      cases hon : dv.on st with
      | false =>
        rw [step_off hhandle hon]
        refine iff_of_true (apart_off hapart _) ?_
        rintro _ ⟨⟩ _ hon'
        rw [hon] at hon'
        cases hon'
      | true =>
        rw [step_on hhandle hon]
        rcases h.started hw (hgo hon) with ⟨t, hnow⟩ | ⟨hnow, hkept⟩
        · rw [on_same hnow]
          refine iff_of_true hapart ?_
          rintro _ ⟨⟩ hnone _
          have hoff := h.off_of_kept_none hw hnone
          rw [hnow] at hoff
          cases hoff
        · rw [apart_on_iff hapart hnow]
          constructor
          · rintro hgap _ ⟨⟩ _ _
            exact hgap
          · intro hpatient
            rcases hkept with hnone | hdir
            · exact hpatient st rfl hnone hon
            · exact afterGap_of_lastDir hnow hdir _ _
    | some k =>
      obtain ⟨hoff, -, hon⟩ := hw.waiting s.state a.msg st k h.inv hhandle
      rw [step_wait hhandle hoff hon, apart_on_iff (apart_off hapart _) (now_off _ _)]
      refine iff_of_true (afterGap_of_upTo (upTo_off (h.upTo_taken a)) _ (by omega)) ?_
      rintro _ ⟨⟩

/-- The law of the gap, for a device that waits before it reverses. In every run from a state with the drive off: any two intervals in
opposite directions, with no interval between them, are the gap apart, if and only if every message is patient. -/
theorem apart_iff (hw : dv.Waits kept Inv) {a : α} (ha : Inv a) (hoff : dv.on a = false) (hkept : kept a = none) (pause : Nat)
    (sched : List (Arrival μ)) :
    Runs.Always (dv.step pause) (fun s => s.log.Apart pause) (.start a) sched ↔
      Runs.Steps (dv.step pause) (dv.Patient kept pause) (.start a) sched := by
  have h0 : Follows dv kept Inv (.start a) := follows_start ha hoff hkept
  constructor
  · intro h pre i hpre
    have hfollows := Runs.run_inv (Follows dv kept Inv) (fun _ i hs => hs.step hw pause i) h0 pre
    have hbefore := h pre ((List.prefix_append pre [i]).trans hpre)
    have hafter := h (pre ++ [i]) hpre
    rw [Runs.run_snoc] at hafter
    exact (hfollows.apart_step_iff hw hbefore i).mp hafter
  · intro h
    refine (Runs.always_of_steps (fun s => Follows dv kept Inv s ∧ s.log.Apart pause) ?_ ⟨h0, apart_empty pause⟩ h).imp
      fun _ hs => hs.2
    rintro s i ⟨hfollows, hapart⟩ hpatient
    exact ⟨hfollows.step hw pause i, (hfollows.apart_step_iff hw hapart i).mpr hpatient⟩

end Drive

/-!
# Runs of a machine under a schedule

A machine is a step function: a state reads a label and moves. A label that is not enabled in a state leaves the state as
it was, so a schedule is any list of labels and a run is a fold. Nothing here names a particular machine.

`Always` speaks about the states a run passes, `Steps` about the steps it takes (the state before the step and the label
read there). The rules at the end turn a fact about one step into a fact about every run.
-/

namespace Runs

universe u v w

variable {σ : Type u} {ι : Type v} {ε : Type w}

/-- The state a schedule leaves. -/
def run (step : σ → ι → σ) (s : σ) (sched : List ι) : σ := sched.foldl step s

@[simp] theorem run_nil (step : σ → ι → σ) (s : σ) : run step s [] = s := rfl

@[simp] theorem run_cons (step : σ → ι → σ) (s : σ) (i : ι) (sched : List ι) :
    run step s (i :: sched) = run step (step s i) sched := rfl

/-- A schedule run in two parts. -/
theorem run_append (step : σ → ι → σ) (s : σ) (a b : List ι) : run step s (a ++ b) = run step (run step s a) b := by
  simp [run, List.foldl_append]

/-- A schedule with one more label is one more step. -/
theorem run_snoc (step : σ → ι → σ) (s : σ) (a : List ι) (i : ι) : run step s (a ++ [i]) = step (run step s a) i := by
  simp [run_append]

/-- `P` holds in every state the run passes, the first and the last included. -/
def Always (step : σ → ι → σ) (P : σ → Prop) (s : σ) (sched : List ι) : Prop :=
  ∀ pre, pre <+: sched → P (run step s pre)

/-- `Q` holds of every step the run takes: of the state before it and the label read there. -/
def Steps (step : σ → ι → σ) (Q : σ → ι → Prop) (s : σ) (sched : List ι) : Prop :=
  ∀ pre i, pre ++ [i] <+: sched → Q (run step s pre) i

/-- What the steps of a run put out, in order. -/
def trace (step : σ → ι → σ) (out : σ → ι → List ε) (s : σ) : List ι → List ε
  | [] => []
  | i :: sched => out s i ++ trace step out (step s i) sched

/-- What a schedule in two parts puts out. -/
theorem trace_append (step : σ → ι → σ) (out : σ → ι → List ε) (s : σ) (a b : List ι) :
    trace step out s (a ++ b) = trace step out s a ++ trace step out (run step s a) b := by
  induction a generalizing s with
  | nil => rfl
  | cons i a ih => simp only [List.cons_append, trace, run_cons, ih, List.append_assoc]

/-! ## One step at a time -/

theorem always_nil {step : σ → ι → σ} {P : σ → Prop} {s : σ} : Always step P s [] ↔ P s := by
  simp [Always, List.prefix_nil]

/-- A property of every state of a run is one of its first state and of the states after the first step. -/
theorem always_cons {step : σ → ι → σ} {P : σ → Prop} {s : σ} {i : ι} {sched : List ι} :
    Always step P s (i :: sched) ↔ P s ∧ Always step P (step s i) sched := by
  constructor
  · intro h
    refine ⟨h [] (List.nil_prefix), ?_⟩
    intro pre hpre
    exact h (i :: pre) (List.cons_prefix_cons.mpr ⟨rfl, hpre⟩)
  · rintro ⟨h0, h⟩ pre hpre
    cases pre with
    | nil => exact h0
    | cons j pre =>
      obtain ⟨rfl, hrest⟩ := List.cons_prefix_cons.mp hpre
      exact h pre hrest

theorem steps_nil {step : σ → ι → σ} {Q : σ → ι → Prop} {s : σ} : Steps step Q s [] := by
  intro pre i h
  simp [List.prefix_nil] at h

/-- A property of every step of a run is one of its first step and of the steps after it. -/
theorem steps_cons {step : σ → ι → σ} {Q : σ → ι → Prop} {s : σ} {i : ι} {sched : List ι} :
    Steps step Q s (i :: sched) ↔ Q s i ∧ Steps step Q (step s i) sched := by
  constructor
  · intro h
    refine ⟨h [] i (List.cons_prefix_cons.mpr ⟨rfl, List.nil_prefix⟩), ?_⟩
    intro pre j hpre
    exact h (i :: pre) j (List.cons_prefix_cons.mpr ⟨rfl, hpre⟩)
  · rintro ⟨h0, h⟩ pre j hpre
    cases pre with
    | nil =>
      obtain ⟨rfl, -⟩ := List.cons_prefix_cons.mp hpre
      exact h0
    | cons k pre =>
      obtain ⟨rfl, hrest⟩ := List.cons_prefix_cons.mp hpre
      exact h pre j hrest

/-- A property of the steps of a run that can be decided of a step can be decided of the run. -/
instance decidableSteps (step : σ → ι → σ) (Q : σ → ι → Prop) [∀ s i, Decidable (Q s i)] :
    (s : σ) → (sched : List ι) → Decidable (Steps step Q s sched)
  | _, [] => isTrue steps_nil
  | s, i :: sched =>
    have := decidableSteps step Q (step s i) sched
    decidable_of_iff (Q s i ∧ Steps step Q (step s i) sched) steps_cons.symm

/-- The last state of a run is one of its states. -/
theorem Always.last {step : σ → ι → σ} {P : σ → Prop} {s : σ} {sched : List ι} (h : Always step P s sched) :
    P (run step s sched) :=
  h sched (List.prefix_refl sched)

/-- The steps of a run in two parts. -/
theorem steps_append {step : σ → ι → σ} {Q : σ → ι → Prop} {s : σ} {a b : List ι} :
    Steps step Q s (a ++ b) ↔ Steps step Q s a ∧ Steps step Q (run step s a) b := by
  induction a generalizing s with
  | nil => simp [steps_nil]
  | cons i a ih => simp only [List.cons_append, steps_cons, run_cons, ih, and_assoc]

/-! ## From one step to every run -/

/-- An invariant that every step meeting `Q` keeps holds in every state of a run whose steps all meet `Q`. -/
theorem always_of_steps {step : σ → ι → σ} {Q : σ → ι → Prop} (Inv : σ → Prop)
    (hstep : ∀ s i, Inv s → Q s i → Inv (step s i)) {s : σ} {sched : List ι} (h0 : Inv s) (hq : Steps step Q s sched) :
    Always step Inv s sched := by
  induction sched generalizing s with
  | nil => exact always_nil.mpr h0
  | cons i sched ih =>
    obtain ⟨hi, hrest⟩ := steps_cons.mp hq
    exact always_cons.mpr ⟨h0, ih (hstep s i h0 hi) hrest⟩

/-- An invariant that every step keeps holds after every run. -/
theorem run_inv {step : σ → ι → σ} (Inv : σ → Prop) (hstep : ∀ s i, Inv s → Inv (step s i)) {s : σ} (h0 : Inv s)
    (sched : List ι) : Inv (run step s sched) := by
  induction sched generalizing s with
  | nil => exact h0
  | cons i sched ih => exact ih (hstep s i h0)

/-- A property of the state and of what was put out so far, which every step keeps, holds after every run. -/
theorem trace_inv {step : σ → ι → σ} {out : σ → ι → List ε} (Inv : σ → List ε → Prop)
    (hstep : ∀ s done i, Inv s done → Inv (step s i) (done ++ out s i)) {s : σ} (h0 : Inv s []) (sched : List ι) :
    Inv (run step s sched) (trace step out s sched) := by
  have hall : ∀ done, Inv s done → Inv (run step s sched) (done ++ trace step out s sched) := by
    clear h0
    induction sched generalizing s with
    | nil =>
      intro done h
      rw [trace, List.append_nil]
      exact h
    | cons i sched ih =>
      intro done h
      rw [trace, run_cons, ← List.append_assoc]
      exact ih _ (hstep s done i h)
  exact hall [] h0

/-- The same where every step of the run meets a condition. -/
theorem trace_inv_of_steps {step : σ → ι → σ} {out : σ → ι → List ε} {Q : σ → ι → Prop} (Inv : σ → List ε → Prop)
    (hstep : ∀ s done i, Inv s done → Q s i → Inv (step s i) (done ++ out s i)) {s : σ} (h0 : Inv s []) {sched : List ι}
    (hq : Steps step Q s sched) : Inv (run step s sched) (trace step out s sched) := by
  have hall : ∀ done, Inv s done → Inv (run step s sched) (done ++ trace step out s sched) := by
    clear h0
    induction sched generalizing s with
    | nil =>
      intro done h
      rw [trace, List.append_nil]
      exact h
    | cons i sched ih =>
      intro done h
      obtain ⟨hi, hrest⟩ := steps_cons.mp hq
      rw [trace, run_cons, ← List.append_assoc]
      exact ih hrest _ (hstep s done i h hi)
  exact hall [] h0

/-- A condition on the labels alone. -/
theorem steps_of_forall {step : σ → ι → σ} {Q : ι → Prop} (s : σ) {sched : List ι} (h : ∀ i ∈ sched, Q i) :
    Steps step (fun _ => Q) s sched := by
  intro pre i hpre
  exact h i (hpre.subset (List.mem_append_right pre List.mem_cons_self))

/-- A property of states passes from every state of a run to every state of the same run. -/
theorem Always.imp {step : σ → ι → σ} {P P' : σ → Prop} (h : ∀ s, P s → P' s) {s : σ} {sched : List ι}
    (ha : Always step P s sched) : Always step P' s sched :=
  fun pre hpre => h _ (ha pre hpre)

/-- A step of a run whose states satisfy an invariant is taken from a state that satisfies it. -/
theorem steps_of_always {step : σ → ι → σ} {Inv : σ → Prop} {Q Q' : σ → ι → Prop}
    (h : ∀ s i, Inv s → Q s i → Q' s i) {s : σ} {sched : List ι} (ha : Always step Inv s sched)
    (hq : Steps step Q s sched) : Steps step Q' s sched := by
  intro pre i hpre
  exact h _ i (ha pre ((List.prefix_append pre [i]).trans hpre)) (hq pre i hpre)

/-- Two properties of steps that agree where an invariant holds, which the steps that have one of them keep: every step of a run has the one
exactly when every step has the other. -/
theorem steps_congr {step : σ → ι → σ} {Q Q' : σ → ι → Prop} (Inv : σ → Prop) (hstep : ∀ s i, Inv s → Q s i → Inv (step s i))
    (hQ : ∀ s i, Inv s → (Q s i ↔ Q' s i)) {s : σ} (h0 : Inv s) (sched : List ι) :
    Steps step Q s sched ↔ Steps step Q' s sched := by
  induction sched generalizing s with
  | nil => exact iff_of_true steps_nil steps_nil
  | cons i sched ih =>
    rw [steps_cons, steps_cons, ← hQ s i h0]
    exact and_congr_right fun hi => ih (hstep s i h0 hi)

/-- A property that is there at first: every state of a run has it exactly when no step takes it away. -/
theorem always_iff_steps {step : σ → ι → σ} {P : σ → Prop} {Q : σ → ι → Prop} (Inv : σ → Prop)
    (hstep : ∀ s i, Inv s → Inv (step s i)) (hPQ : ∀ s i, Inv s → P s → (P (step s i) ↔ Q s i)) {s : σ} (h0 : Inv s) (hP : P s)
    (sched : List ι) : Always step P s sched ↔ Steps step Q s sched := by
  induction sched generalizing s with
  | nil => exact iff_of_true (always_nil.mpr hP) steps_nil
  | cons i sched ih =>
    rw [always_cons, steps_cons]
    constructor
    · rintro ⟨-, hrest⟩
      have hnext : P (step s i) := hrest [] List.nil_prefix
      exact ⟨(hPQ s i h0 hP).mp hnext, (ih (hstep s i h0) hnext).mp hrest⟩
    · rintro ⟨hi, hrest⟩
      have hnext : P (step s i) := (hPQ s i h0 hP).mpr hi
      exact ⟨hP, (ih (hstep s i h0) hnext).mpr hrest⟩

/-- A run with a step that fails a condition has a first such step. -/
theorem exists_first_failure {step : σ → ι → σ} {Q : σ → ι → Prop} {s : σ} {sched : List ι} (hnot : ¬Steps step Q s sched) :
    ∃ pre i, pre ++ [i] <+: sched ∧ Steps step Q s pre ∧ ¬Q (run step s pre) i := by
  induction sched generalizing s with
  | nil => exact absurd steps_nil hnot
  | cons i sched ih =>
    by_cases hi : Q s i
    · obtain ⟨pre, j, hpre, hsteps, hfail⟩ := ih fun h => hnot (steps_cons.mpr ⟨hi, h⟩)
      exact ⟨i :: pre, j, List.cons_prefix_cons.mpr ⟨rfl, hpre⟩, steps_cons.mpr ⟨hi, hsteps⟩, hfail⟩
    · exact ⟨[], i, List.cons_prefix_cons.mpr ⟨rfl, List.nil_prefix⟩, steps_nil, hi⟩

/-- A step of a run that fails a condition, where from every such step the run can go on to a step that fails another. -/
theorem exists_not_steps {step : σ → ι → σ} {Q Q' : σ → ι → Prop} (Inv : σ → Prop)
    (hstep : ∀ s i, Inv s → Inv (step s i)) (hbad : ∀ s i, Inv s → ¬Q s i → ∃ rest, ¬Steps step Q' (step s i) rest) {s : σ}
    (h0 : Inv s) {sched : List ι} (hnot : ¬Steps step Q s sched) :
    ∃ pre rest, pre <+: sched ∧ ¬Steps step Q' s (pre ++ rest) := by
  obtain ⟨pre, i, hpre, hfail⟩ : ∃ pre i, pre ++ [i] <+: sched ∧ ¬Q (run step s pre) i := by
    simpa [Steps, Classical.not_forall] using hnot
  obtain ⟨rest, hrest⟩ := hbad _ i (run_inv Inv hstep h0 pre) hfail
  refine ⟨pre ++ [i], rest, hpre, ?_⟩
  intro hall
  rw [steps_append, run_snoc] at hall
  exact hrest hall.2

/-! ## Machines without a choice -/

section Settles

variable {step : σ → Unit → σ} {out : σ → Unit → List ε}

/-- A machine with one label goes from one state to another and puts out a list on the way. -/
def Leads (step : σ → Unit → σ) (out : σ → Unit → List ε) (s : σ) (es : List ε) (s' : σ) : Prop :=
  ∃ n, run step s (List.replicate n ()) = s' ∧ trace step out s (List.replicate n ()) = es

/-- The state after `n` steps is `s'` and what was put out is `es`, for every `n` from some number on. -/
def Settles (step : σ → Unit → σ) (out : σ → Unit → List ε) (s : σ) (es : List ε) (s' : σ) : Prop :=
  ∃ N, ∀ n, N ≤ n → run step s (List.replicate n ()) = s' ∧ trace step out s (List.replicate n ()) = es

theorem Leads.refl (s : σ) : Leads step out s [] s := ⟨0, rfl, rfl⟩

/-- One step. -/
theorem Leads.single {s s' : σ} {es : List ε} (hstep : step s () = s') (hout : out s () = es) : Leads step out s es s' :=
  ⟨1, hstep, by simp [trace, hout]⟩

/-- One way after another. -/
theorem Leads.trans {s s' s'' : σ} {es es' : List ε} (h : Leads step out s es s') (h' : Leads step out s' es' s'') :
    Leads step out s (es ++ es') s'' := by
  obtain ⟨n, rfl, rfl⟩ := h
  obtain ⟨m, hrun, htrace⟩ := h'
  refine ⟨n + m, ?_, ?_⟩
  · rw [← List.replicate_append_replicate, run_append, hrun]
  · rw [← List.replicate_append_replicate, trace_append, htrace]

/-- A state that the machine does not leave, and where it puts out nothing. -/
theorem run_still {s : σ} (hstep : step s () = s) (hout : out s () = []) (n : Nat) :
    run step s (List.replicate n ()) = s ∧ trace step out s (List.replicate n ()) = [] := by
  induction n with
  | zero => exact ⟨rfl, rfl⟩
  | succ n ih => simpa [List.replicate_succ, trace, hstep, hout] using ih

/-- A machine that comes to a state which it does not leave settles there. -/
theorem Leads.settles {s s' : σ} {es : List ε} (h : Leads step out s es s') (hstep : step s' () = s') (hout : out s' () = []) :
    Settles step out s es s' := by
  obtain ⟨n, hrun, htrace⟩ := h
  refine ⟨n, fun k hk => ?_⟩
  obtain ⟨m, rfl⟩ := Nat.exists_eq_add_of_le hk
  obtain ⟨hrest, hquiet⟩ := run_still hstep hout m
  rw [← List.replicate_append_replicate, run_append, trace_append, hrun, htrace, hrest, hquiet]
  exact ⟨rfl, List.append_nil es⟩

/-- A machine settles in one way. -/
theorem Settles.unique {s a b : σ} {es es' : List ε} (h : Settles step out s es a) (h' : Settles step out s es' b) :
    es = es' ∧ a = b := by
  obtain ⟨n, hn⟩ := h
  obtain ⟨m, hm⟩ := h'
  obtain ⟨hrun, htrace⟩ := hn (n + m) (Nat.le_add_right n m)
  obtain ⟨hrun', htrace'⟩ := hm (n + m) (Nat.le_add_left m n)
  exact ⟨htrace.symm.trans htrace', hrun.symm.trans hrun'⟩

end Settles

/-! ## From one machine to another -/

/-- Two machines that a relation keeps in step, the labels of the one read as labels of the other, end related. -/
theorem run_sim {τ : Type w} {κ : Type w} {step : σ → ι → σ} {step' : τ → κ → τ} (R : σ → τ → Prop) (f : ι → κ)
    (hstep : ∀ s t i, R s t → R (step s i) (step' t (f i))) {s : σ} {t : τ} (h0 : R s t) (sched : List ι) :
    R (run step s sched) (run step' t (sched.map f)) := by
  induction sched generalizing s t with
  | nil => exact h0
  | cons i sched ih => exact ih (hstep s t i h0)

/-- A machine whose every step, seen through `f`, is some steps of another machine (or none): what a run of it leaves is what a run of
the other leaves. -/
theorem run_refines {τ : Type w} {κ : Type w} {step : σ → ι → σ} {step' : τ → κ → τ} (f : σ → τ) (Inv : σ → Prop)
    (hstep : ∀ s i, Inv s → Inv (step s i)) (hsim : ∀ s i, Inv s → ∃ js, f (step s i) = run step' (f s) js)
    {s : σ} (h0 : Inv s) (sched : List ι) : ∃ sched', f (run step s sched) = run step' (f s) sched' := by
  induction sched generalizing s with
  | nil => exact ⟨[], rfl⟩
  | cons i sched ih =>
    obtain ⟨js, hjs⟩ := hsim s i h0
    obtain ⟨rest, hrest⟩ := ih (hstep s i h0)
    exact ⟨js ++ rest, by rw [run_cons, hrest, hjs, run_append]⟩

/-- Two machines that a relation keeps in step, with a property of the steps of each that the relation equates: a run of the one
has its property exactly when the run of the other has its own. -/
theorem steps_iff_of_sim {τ : Type w} {step : σ → ι → σ} {step' : τ → ι → τ} {Q : σ → ι → Prop} {Q' : τ → ι → Prop}
    (R : σ → τ → Prop) (hstep : ∀ s t i, R s t → R (step s i) (step' t i)) (hQ : ∀ s t i, R s t → (Q s i ↔ Q' t i))
    {s : σ} {t : τ} (h0 : R s t) (sched : List ι) : Steps step Q s sched ↔ Steps step' Q' t sched := by
  induction sched generalizing s t with
  | nil => simp [steps_nil]
  | cons i sched ih => rw [steps_cons, steps_cons, hQ s t i h0, ih (hstep s t i h0)]

end Runs

import Rtu.Lemmas.Depot

/-!
# No message is lost, read twice or leaked

Over every interleaving of the thread with the tasks, `MessagesConserved` holds in every state: per device, what was allocated is what
was sent and what is about to be, what was sent is what was received and what waits, and what was received is what was freed and what
is in hand. `allocated_handled` adds that nothing waits for ever: a task frees what was sent to it within a number of its own steps that the
length of its queue bounds, and the thread, whose send then finds room, sends what it holds.
-/

namespace Rtu

/-- Where the messages of the controller are. The numbers are those of the messages allocated for a device. -/
structure Depot.MessagesConserved (d : Depot) : Prop where
  /-- the messages allocated, in order, are those sent, with the contents they were given, and the one not yet sent -/
  sent : ∀ dev, (d.post.allocated dev).zipIdx = d.post.sent dev ++ d.post.drafted dev
  /-- those sent are those received, with the contents they had when sent, and those in the queue -/
  handled : ∀ dev, d.post.sent dev = d.post.handled dev ++ d.post.queued dev
  /-- those received are those freed and the one in the hands of the task -/
  freed : ∀ dev, (d.post.handled dev).map Prod.snd = d.post.freed dev ++ d.post.inUse dev
  /-- those freed are freed once each -/
  once : ∀ dev, d.post.freed dev = List.range (d.post.freed dev).length
  /-- a task that waits in the middle of a message has not freed it -/
  busy : ∀ dev, d.InDelay dev → d.post.taken dev ≠ none
  /-- the addresses in use are that in the hand of the thread, those in the hands of the tasks and those in the queues -/
  live : ∀ a, d.post.heap a ≠ none ↔ a ∈ d.post.inUseBy devices
  /-- each of them in one place -/
  nodup : (d.post.inUseBy devices).Nodup
  bound : (d.post.inUseBy devices).length ≤ 16

/-- The steps that a task needs for as many messages as it can have in its charge. -/
def Device.rounds (dev : Device) : Nat := 3 * (dev.queueLength + 1)

namespace MessageConservationAux

theorem conserved_of_invariant {d : Depot} (h : d.Invariant) : d.MessagesConserved where
  sent := h.kept.sent
  handled := h.kept.handled
  freed := h.kept.freed
  once := h.kept.freed_eq_range
  busy := h.busy
  live := (h.kept.inUseBy devices_nodup mem_devices).2
  nodup := (h.kept.inUseBy devices_nodup mem_devices).1
  bound := Post.length_inUseBy_le d.post devices

theorem invariant_run {d : Depot} (h : d.Invariant) (sched : List DepotLabel) : (Runs.run Depot.step d sched).Invariant :=
  Runs.run_inv Depot.Invariant (fun _ l h => invariant_step h l) h sched

/-- The record after a run. -/
theorem extends_run (d : Depot) (sched : List DepotLabel) : d.post.Extends (Runs.run Depot.step d sched).post := by
  induction sched generalizing d with
  | nil => exact .refl _
  | cons l sched ih => exact (turn d l).extends.trans (ih (d.step l))

/-- No run takes a task back. -/
theorem progress_le_run {d : Depot} (h : d.Invariant) (dev : Device) (sched : List DepotLabel) :
    d.progress dev ≤ (Runs.run Depot.step d sched).progress dev := by
  induction sched generalizing d with
  | nil => exact Nat.le_refl _
  | cons l sched ih => exact Nat.le_trans ((turn d l).progress h dev).1 (ih (invariant_step h l))

/-- A task comes further with each of its steps, until it has freed the first `m` messages sent to it. -/
theorem progress_run {d : Depot} (h : d.Invariant) (dev : Device) {m : Nat} (hm : m ≤ (d.post.sent dev).length)
    (sched : List DepotLabel) :
    3 * m ≤ (Runs.run Depot.step d sched).progress dev ∨
      d.progress dev + sched.countP (·.task = some dev) ≤ (Runs.run Depot.step d sched).progress dev := by
  induction sched generalizing d with
  | nil => exact Or.inr (Nat.le_refl _)
  | cons l sched ih =>
    have hturn := turn d l
    have hinv := invariant_step h l
    obtain ⟨hle, htask⟩ := hturn.progress h dev
    have hrest := ih hinv (Nat.le_trans hm (hturn.extends.sent dev).length_le)
    rw [Runs.run_cons, List.countP_cons]
    by_cases hl : l.task = some dev
    · rcases htask hl with hlt | hall
      · simp only [hl, decide_true, if_true]
        omega
      · -- the task had nothing left to do
        have hmono := progress_le_run hinv dev sched
        omega
    · simp only [hl, decide_false, Bool.false_eq_true, if_false]
      omega

/-- A task that has gone on often enough has received and freed what had been sent to it. -/
theorem sent_handled {d : Depot} (h : d.Invariant) {dev : Device} {sched : List DepotLabel}
    (hcount : dev.rounds ≤ sched.countP (·.task = some dev)) :
    d.post.sent dev <+: (Runs.run Depot.step d sched).post.handled dev ∧
      (d.post.sent dev).length ≤ ((Runs.run Depot.step d sched).post.freed dev).length := by
  have hinv := invariant_run h sched
  have hfreed : (d.post.sent dev).length ≤ ((Runs.run Depot.step d sched).post.freed dev).length := by
    have hcharge := h.kept.length_sent_le dev
    have hbefore : 3 * (d.post.freed dev).length ≤ d.progress dev := Nat.le_add_right _ _
    have hafter : (Runs.run Depot.step d sched).progress dev ≤ 3 * ((Runs.run Depot.step d sched).post.freed dev).length + 2 := by
      unfold Depot.progress
      split
      · omega
      · split <;> omega
    have hrun := progress_run h dev (Nat.le_refl _) sched
    unfold Device.rounds at hcount
    omega
  have hlen := hinv.kept.length_handled dev
  exact ⟨List.prefix_of_prefix_length_le ((extends_run d sched).sent dev) (hinv.kept.handled_prefix dev) (by omega), hfreed⟩

/-- The thread sends what it holds once its queue is empty. -/
theorem send_of_room {d : Depot} (h : d.Invariant) {dev : Device} {a : Nat} (hhand : d.post.hand = some (dev, a))
    (hqueue : (d.post.queue dev).items = []) : (d.post.allocated dev).zipIdx <+: ((d.step (.tcp .run)).post.sent dev) := by
  obtain ⟨e, msg, n, he, hmsg, hheap⟩ := h.drafted dev a hhand
  have hroom : (d.post.queue dev).items.length < dev.queueLength := by
    rw [hqueue]
    cases dev <;> decide
  obtain ⟨q, hq⟩ := Fifo.Queue.exists_send hroom a
  have hsend : ∃ post, d.post.send = some post ∧ post.sent dev = d.post.sent dev ++ [(msg, n)] := by
    unfold Post.Office.send
    simp [hhand, hq, hheap]
  obtain ⟨post, hpost, hsent⟩ := hsend
  have hstep : (d.step (.tcp .run)).post = post := by
    show (d.tcpStep .run).post = post
    unfold Depot.tcpStep
    simp [he, hmsg, hpost]
  rw [hstep, hsent, h.kept.sent dev]
  simp [Post.Office.drafted, hhand, hheap]

/-- The numbers of a beginning of a list are those of the list. -/
theorem zipIdx_prefix {α : Type} {l l' : List α} (h : l <+: l') : l.zipIdx <+: l'.zipIdx := by
  obtain ⟨rest, rfl⟩ := h
  rw [List.zipIdx_append]
  exact List.prefix_append _ _

/-- After enough steps of a task and then one of the thread, everything allocated for the task before has been sent. -/
theorem allocated_sent {d : Depot} (h : d.Invariant) {dev : Device} {sched : List DepotLabel}
    (hcount : dev.rounds ≤ sched.countP (·.task = some dev)) :
    (d.post.allocated dev).zipIdx <+: ((Runs.run Depot.step d sched).step (.tcp .run)).post.sent dev := by
  obtain ⟨-, hfreed⟩ := sent_handled h hcount
  have hinv := invariant_run h sched
  have hgrown := zipIdx_prefix ((extends_run d sched).allocated dev)
  generalize Runs.run Depot.step d sched = d' at *
  have hstep := (turn d' (.tcp .run)).extends.sent dev
  have hsent := hinv.kept.sent dev
  -- at most the message in the hand of the thread is allocated and not sent
  have hnear : (d.post.allocated dev).length ≤ (d.post.sent dev).length + 1 := by
    have hlen := congrArg List.length (h.kept.sent dev)
    have hdrafted : (d.post.drafted dev).length ≤ 1 := Post.length_drafted_le d.post dev
    rw [List.length_zipIdx, List.length_append] at hlen
    omega
  by_cases hhand : ∃ a, d'.post.hand = some (dev, a)
  · obtain ⟨a, hhand⟩ := hhand
    cases hqueue : (d'.post.queue dev).items with
    | nil => exact hgrown.trans (send_of_room hinv hhand hqueue)
    | cons c items =>
      -- something waits, so more has been sent than before
      have hlen := congrArg List.length (hinv.kept.handled dev)
      have hqueued := hinv.kept.length_queued dev
      have hhandled := hinv.kept.length_handled dev
      rw [List.length_append] at hlen
      rw [hqueue, List.length_cons] at hqueued
      refine (List.prefix_of_prefix_length_le hgrown (hinv.kept.sent_prefix dev) ?_).trans hstep
      rw [List.length_zipIdx]
      omega
  · have hnone : d'.post.drafted dev = [] := Post.drafted_eq_nil fun a ha => hhand ⟨a, ha⟩
    rw [hnone, List.append_nil] at hsent
    exact (hsent ▸ hgrown).trans hstep

end MessageConservationAux

open MessageConservationAux

/-- Every message allocated is received and freed: if a task goes on often enough, the thread has a turn, and the task goes on often
enough again, with anything in between, all that was allocated for the task at first has been received, as it was allocated
and in that order, and freed. -/
theorem allocated_handled {d : Depot} (h : d.Invariant) {dev : Device} {before after : List DepotLabel}
    (hbefore : dev.rounds ≤ before.countP (·.task = some dev)) (hafter : dev.rounds ≤ after.countP (·.task = some dev)) :
    (d.post.allocated dev).zipIdx <+: (Runs.run Depot.step d (before ++ .tcp .run :: after)).post.handled dev ∧
      (d.post.allocated dev).length ≤ ((Runs.run Depot.step d (before ++ .tcp .run :: after)).post.freed dev).length := by
  have hsent := allocated_sent h hbefore
  obtain ⟨hhandled, hfreed⟩ := sent_handled (invariant_step (invariant_run h before) (.tcp .run)) hafter
  rw [Runs.run_append, Runs.run_cons]
  refine ⟨hsent.trans hhandled, ?_⟩
  have hlen := hsent.length_le
  rw [List.length_zipIdx] at hlen
  exact Nat.le_trans hlen hfreed

/-- Message conservation, over every interleaving: in every state the messages are where `MessagesConserved` says, and from every
state, whatever else happens, each message allocated is received and freed once its task and the thread have had their turns. -/
theorem message_conservation (stack : HMICmdVar) (rate : UInt32) (sched : List DepotLabel) :
    Runs.Always Depot.step Depot.MessagesConserved (Depot.boot stack rate) sched ∧
      ∀ (dev : Device) (before after : List DepotLabel),
        dev.rounds ≤ before.countP (·.task = some dev) → dev.rounds ≤ after.countP (·.task = some dev) →
        let d := Runs.run Depot.step (Depot.boot stack rate) sched
        let d' := Runs.run Depot.step d (before ++ .tcp .run :: after)
        (d.post.allocated dev).zipIdx <+: d'.post.handled dev ∧ (d.post.allocated dev).length ≤ (d'.post.freed dev).length := by
  refine ⟨?_, ?_⟩
  · intro pre _
    exact conserved_of_invariant (invariant_run (invariant_boot stack rate) pre)
  · intro dev before after hbefore hafter
    exact allocated_handled (invariant_run (invariant_boot stack rate) sched) hbefore hafter

end Rtu

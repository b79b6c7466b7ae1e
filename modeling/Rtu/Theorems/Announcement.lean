import Rtu.Lemmas.Arrival
import Rtu.Lemmas.Repeat
import Rtu.Lemmas.Telemetry

/-!
# A completed positioning is announced once

`ON_COND;` reports an edge: the flags of both axes are set, and those sampled for the reply before were not. The tasks clear their
flags with every message, but the sample before, `on_condition_old`, outlives the command. So the edge of a positioning is lost if no
reply falls between the flags of one positioning and those of the next, and it is reported twice if a reply finds the flag of an axis
that has not taken its message yet. From either the run can go on to a reply that finds the positioning completed: the readings bring the
axes to their set points, and the peer sends its frame once more (`exists_not_once`).
-/

namespace Rtu

open Runs

/-! ## What is seen of a positioning -/

/-- The calls send a `MOT_PAP_TYPE_CLOSED_LOOP` to both axes. -/
def Positions (es : List Effect) : Prop :=
  (∃ b ∈ toAxis .arm es, b.type = some .closedLoop) ∧ ∃ b ∈ toAxis .pole es, b.type = some .closedLoop

/-- The calls send a message to an axis. -/
def Commands (es : List Effect) : Prop := toAxis .arm es ≠ [] ∨ toAxis .pole es ≠ []

instance (es : List Effect) : Decidable (Positions es) := inferInstanceAs (Decidable (_ ∧ _))

instance (es : List Effect) : Decidable (Commands es) := inferInstanceAs (Decidable (_ ∨ _))

/-- Both axes have taken what was on its way to them. -/
def Controller.Taken (c : Controller) : Prop := c.backlog .arm = [] ∧ c.backlog .pole = []

/-- And are back at their queues. -/
def Controller.Processed (c : Controller) : Prop := c.Taken ∧ c.arm.cmd = none ∧ c.pole.cmd = none

instance (c : Controller) : Decidable c.Taken := inferInstanceAs (Decidable (_ ∧ _))

instance (c : Controller) : Decidable c.Processed := inferInstanceAs (Decidable (_ ∧ _))

/-- `pArmStatus->already_there & pPoleStatus->already_there`. -/
def Controller.onCondition (c : Controller) : Bool := c.arm.me.alreadyThere && c.pole.me.alreadyThere

/-- The replies between a call that positions both axes and the next command. -/
structure Window where
  /-- how many carry `ON_COND;` -/
  announced : Nat
  /-- one of them found both axes there, all their messages taken -/
  found : Bool
  /-- one of them found both axes there, all their messages processed -/
  reached : Bool
  deriving DecidableEq, Repr

/-- One more reply. -/
def Window.reply (w : Window) (s : Station) (r : TelemetryReadings) : Window :=
  { announced := w.announced + if onCond.text ∈ (s.netValues r).2.2.2.fields then 1 else 0
    found := w.found || (decide s.controller.Taken && s.controller.onCondition)
    reached := w.reached || (decide s.controller.Processed && s.controller.onCondition) }

/-- The station, with an observer of the last positioning. -/
structure Reported where
  station : Station
  window : Option Window

/-- Boot. -/
def Reported.boot (stack : HMICmdVar) (rate : UInt32) (rtuDataTx : RTUData) : Reported :=
  { station := .boot stack rate rtuDataTx, window := none }

/-- What is seen after a producer has been entered. -/
def windowAfter (w : Option Window) (es : List Effect) : Option Window :=
  if Positions es then some { announced := 0, found := false, reached := false }
  else if Commands es then none
  else w

/-- One step. -/
def Reported.step (o : Reported) (l : StationLabel) : Reported :=
  { station := o.station.step l
    window := match l with
      | .controller (.tcp i) _ => ((o.station.controller.tcp.entered i).map (windowAfter o.window)).getD o.window
      | .controller _ _ => o.window
      | .reply r => if o.station.Replies then o.window.map (·.reply o.station r) else o.window }

/-- A positioning that a reply has found completed has been announced once. -/
def Reported.AnnouncedOnce (o : Reported) : Prop := ∀ w, o.window = some w → w.reached = true → w.announced = 1

/-- A reply that finds the flags of both axes set after a positioning: while a message is still on its way to an axis, the sample
before has them too; the first one after that, the sample before has not. -/
def Reported.Fresh (o : Reported) : StationLabel → Prop
  | .reply _ => ∀ w ∈ o.window, o.station.Replies → o.station.controller.onCondition = true →
      (¬o.station.controller.Taken → o.station.statics.onConditionOld = true) ∧
        (o.station.controller.Taken → w.found = false → o.station.statics.onConditionOld = false)
  | .controller _ _ => True

instance (o : Reported) (l : StationLabel) : Decidable (o.Fresh l) :=
  match l with
  | .reply _ => inferInstanceAs (Decidable (∀ w ∈ o.window, _))
  | .controller _ _ => isTrue trivial

namespace AnnouncementAux

/-- Both axes have arrived when they have taken their messages and their flags are set. -/
theorem arrived_iff (c : Controller) : (∀ ax, c.Arrived ax) ↔ c.Taken ∧ c.onCondition = true := by
  unfold Controller.Taken Controller.onCondition Controller.Arrived
  rw [Bool.and_eq_true]
  constructor
  · intro h
    exact ⟨⟨(h .arm).1, (h .pole).1⟩, (h .arm).2, (h .pole).2⟩
  · rintro ⟨⟨harm, hpole⟩, harm', hpole'⟩ ax
    cases ax
    · exact ⟨harm, harm'⟩
    · exact ⟨hpole, hpole'⟩

/-! ## A reply -/

/-- A reply leaves its sample in `on_condition_old`. -/
theorem reply_statics {s : Station} (h : s.Replies) (r : TelemetryReadings) :
    (s.step (.reply r)).statics.onConditionOld = s.controller.onCondition ∧
      (s.step (.reply r)).statics.temperature = temperatureRead s.statics.temperature r.temperature := by
  simp only [Station.step, if_pos h]
  exact ⟨rfl, rfl⟩

/-- What a reply does to the controller: it samples both positions, and the thread goes on to write it. -/
theorem reply_frame {s : Station} (h : s.Replies) (r : TelemetryReadings) :
    (s.step (.reply r)).controller.tcp.pc = .write ∧
      (s.step (.reply r)).controller.stallDetection = s.controller.stallDetection ∧
      ∀ ax, (s.step (.reply r)).controller.backlog ax = s.controller.backlog ax ∧
        ∃ raw, (s.step (.reply r)).controller.axis ax =
          { s.controller.axis ax with me := motPapReadCorrectedPos (s.controller.axis ax).me raw } := by
  have hpc : s.controller.tcp.pc = .trigger [] := h
  have hstep : (s.step (.reply r)).controller =
      { s.controller with
          arm := { s.controller.arm with me := motPapReadCorrectedPos s.controller.arm.me r.armStatus }
          pole := { s.controller.pole with me := motPapReadCorrectedPos s.controller.pole.me r.poleStatus }
          tcp := s.controller.tcp.step .run } := by
    simp only [Station.step, if_pos h]
    rfl
  have hwrite : (s.controller.tcp.step .run).pc = .write := by simp only [TcpState.step, hpc]
  rw [hstep]
  refine ⟨hwrite, rfl, ?_⟩
  intro ax
  refine ⟨?_, ?_⟩
  · unfold Controller.backlog
    simp only [hwrite, hpc, phase_write, phase_trigger, Phase.pending]
    exact congrArg (· ++ toAxis ax []) (queued_congr rfl rfl ax)
  · cases ax
    · exact ⟨r.armStatus, rfl⟩
    · exact ⟨r.poleStatus, rfl⟩

/-- It leaves the flags, and what is on its way. -/
theorem arrived_reply {s : Station} (h : s.Replies) (r : TelemetryReadings) (ax : Axis) :
    ((s.step (.reply r)).controller.axis ax).me.alreadyThere = (s.controller.axis ax).me.alreadyThere ∧
      (s.controller.Arrived ax → (s.step (.reply r)).controller.Arrived ax) := by
  obtain ⟨-, -, hframe⟩ := reply_frame h r
  obtain ⟨hbacklog, raw, haxis⟩ := hframe ax
  have hthere : ((s.step (.reply r)).controller.axis ax).me.alreadyThere = (s.controller.axis ax).me.alreadyThere := by
    rw [haxis]
    rfl
  exact ⟨hthere, fun harrived => ⟨hbacklog.trans harrived.1, hthere.trans harrived.2⟩⟩

/-- A reply announces a positioning exactly when the flags are set and the sample before was not. -/
theorem announced_reply {s : Station} (htemp : s.statics.temperature.temperature.toNat < 1000) (w : Window) (r : TelemetryReadings) :
    (w.reply s r).announced =
      w.announced + if s.controller.onCondition = true ∧ s.statics.onConditionOld = false then 1 else 0 := by
  have hannounces : onCond.text ∈ (s.netValues r).2.2.2.fields ↔
      s.controller.onCondition = true ∧ s.statics.onConditionOld = false := by
    unfold Station.netValues
    rw [onCond_mem_iff _ (temperatureRead_lt htemp _)]
    unfold onConditionFlag Controller.onCondition
    rw [Bool.and_eq_true, Bool.not_eq_true']
  simp only [Window.reply, hannounces]

/-- The window after a reply. -/
theorem window_reply {o : Reported} (h : o.station.Replies) {w : Window} (hw : o.window = some w) (r : TelemetryReadings) :
    (o.step (.reply r)).window = some (w.reply o.station r) := by
  simp only [Reported.step, if_pos h, hw, Option.map_some]

/-! ## Every run -/

/-- The last message of a call that positions both axes. -/
theorem newest_of_positions {es : List Effect} (h : Positions es) {t : MotPapType} (ht : ∀ ax, ∀ b ∈ toAxis ax es, b.type = some t)
    {ax : Axis} {items : List MotPapBlock} {b : MotPapBlock} (hb : (items ++ toAxis ax es).getLast? = some b) :
    b.type = some .closedLoop := by
  obtain ⟨⟨barm, harm, htype⟩, ⟨bpole, hpole, -⟩⟩ := h
  have hsame : t = .closedLoop := Option.some_inj.mp ((ht .arm barm harm).symm.trans htype)
  have hne : toAxis ax es ≠ [] := by
    cases ax
    · exact List.ne_nil_of_mem harm
    · exact List.ne_nil_of_mem hpole
  rw [List.getLast?_append] at hb
  rcases Option.or_eq_some_iff.mp hb with hlast | ⟨hnil, -⟩
  · rw [← hsame]
    exact ht ax b (List.mem_of_getLast? hlast)
  · exact absurd (List.getLast?_eq_none_iff.mp hnil) hne

/-- No messages, for both axes. -/
theorem toAxis_of_not_commands {es : List Effect} (h : ¬Commands es) (ax : Axis) : toAxis ax es = [] := by
  cases ax
  · exact Classical.not_not.mp fun hne => h (Or.inl hne)
  · exact Classical.not_not.mp fun hne => h (Or.inr hne)

/-- The window after a step that builds no reply: opened by the call, or as it was, and then nothing is sent to the axes. -/
theorem window_controller (o : Reported) (l : ControllerLabel) (stack : RTUData) {w : Window}
    (h : (o.step (.controller l stack)).window = some w) :
    (∃ i es, l = .tcp i ∧ o.station.controller.tcp.entered i = some es ∧ Positions es ∧
        w = { announced := 0, found := false, reached := false }) ∨
      (o.window = some w ∧ ∀ i es, l = .tcp i → o.station.controller.tcp.entered i = some es → ∀ ax, toAxis ax es = []) := by
  cases l with
  | tcp i =>
    cases henter : o.station.controller.tcp.entered i with
    | none =>
      simp only [Reported.step, henter, Option.map_none, Option.getD_none] at h
      refine Or.inr ⟨h, ?_⟩
      rintro i' es hi henter'
      cases hi
      rw [henter] at henter'
      cases henter'
    | some es =>
      simp only [Reported.step, henter, Option.map_some, Option.getD_some, windowAfter] at h
      by_cases hpositions : Positions es
      · rw [if_pos hpositions] at h
        exact Or.inl ⟨i, es, rfl, henter, hpositions, (Option.some_inj.mp h).symm⟩
      · rw [if_neg hpositions] at h
        by_cases hcommands : Commands es
        · rw [if_pos hcommands] at h
          cases h
        · rw [if_neg hcommands] at h
          refine Or.inr ⟨h, ?_⟩
          rintro i' es' hi henter'
          cases hi
          obtain rfl : es = es' := Option.some_inj.mp (henter.symm.trans henter')
          exact toAxis_of_not_commands hcommands
  | _ =>
    refine Or.inr ⟨h, ?_⟩
    intro i es hi
    cases hi

/-- What holds in every run: the temperature has three digits, the converters are as configured, the last frame can be sent once more,
and in a window the newest message of each axis is a positioning. -/
structure Sound (o : Reported) : Prop where
  threeDigits : o.station.statics.temperature.temperature.toNat < 1000
  rdc : o.station.controller.RdcOk
  repeatable : o.station.controller.tcp.Repeatable
  newest : ∀ w, o.window = some w → ∀ ax b, (o.station.controller.backlog ax).getLast? = some b → b.type = some .closedLoop

theorem sound_boot (stack : HMICmdVar) (rate : UInt32) (rtuDataTx : RTUData) : Sound (.boot stack rate rtuDataTx) := by
  refine ⟨?_, rdcOk_boot stack rate, repeatable_boot stack, ?_⟩
  · have hboot : TelemetryStatics.boot.temperature.temperature.toNat < 1000 := by decide
    exact hboot
  · intro w hw
    cases hw

theorem sound_step {o : Reported} (h : Sound o) (l : StationLabel) : Sound (o.step l) := by
  have hcontroller : (o.step l).station.controller.RdcOk ∧ (o.step l).station.controller.tcp.Repeatable := by
    show (o.station.step l).controller.RdcOk ∧ (o.station.step l).controller.tcp.Repeatable
    rw [station_controller]
    exact run_inv (fun c : Controller => c.RdcOk ∧ c.tcp.Repeatable)
      (fun _ l hc => ⟨rdcOk_step hc.1 l, repeatable_controller hc.2 l⟩) ⟨h.rdc, h.repeatable⟩ (o.station.turns l)
  suffices hrest : (o.station.step l).statics.temperature.temperature.toNat < 1000 ∧
      ∀ w, (o.step l).window = some w → ∀ ax b, ((o.station.step l).controller.backlog ax).getLast? = some b →
        b.type = some .closedLoop from
    ⟨hrest.1, hcontroller.1, hcontroller.2, hrest.2⟩
  cases l with
  | reply r =>
    by_cases hreplies : o.station.Replies
    · refine ⟨?_, ?_⟩
      · rw [(reply_statics hreplies r).2]
        exact temperatureRead_lt h.threeDigits _
      · intro w hw ax b hb
        simp only [Reported.step, if_pos hreplies] at hw
        obtain ⟨w', hw', -⟩ := Option.map_eq_some_iff.mp hw
        rw [((reply_frame hreplies r).2.2 ax).1] at hb
        exact h.newest w' hw' ax b hb
    · have hstation : o.station.step (.reply r) = o.station := if_neg hreplies
      rw [hstation]
      refine ⟨h.threeDigits, ?_⟩
      intro w hw
      simp only [Reported.step, if_neg hreplies] at hw
      exact h.newest w hw
  | controller l stack =>
    obtain ⟨hstatics, hstep⟩ := station_step_controller o.station l stack
    rw [hstatics]
    refine ⟨h.threeDigits, ?_⟩
    intro w hw ax b hb
    rcases window_controller o l stack hw with ⟨i, es, rfl, henter, hpositions, -⟩ | ⟨hw', hquiet⟩
    · obtain ⟨prev, hst, -⟩ := h.repeatable
      obtain ⟨t, ht⟩ := exists_type_entered hst henter
      have hreplies : ¬o.station.Replies := by
        intro hreplies
        have hpc : o.station.controller.tcp.pc = .trigger [] := hreplies
        simp only [TcpState.entered, hpc, phase_trigger] at henter
        cases henter
      have hmoved : (o.station.step (.controller (.tcp i) stack)).controller = o.station.controller.step (.tcp i) := by
        simp only [Station.step, if_neg hreplies]
      rw [hmoved, (enter_step _ henter ax).2] at hb
      exact newest_of_positions hpositions ht hb
    · rcases hstep with hsame | hmoved
      · rw [hsame] at hb
        exact h.newest w hw' ax b hb
      · rw [hmoved] at hb
        exact h.newest w hw' ax b ((axisTurn _ l ax).newest (fun i es hi henter => hquiet i es hi henter ax) hb)

/-! ## The invariant -/

/-- What is seen of a positioning follows the flags: it is announced with the first reply that finds it completed. -/
structure Follows (w : Window) (s : Station) : Prop where
  announced : w.announced = if w.found then 1 else 0
  reached : w.reached = true → w.found = true
  found : w.found = true → (∀ ax, s.controller.Arrived ax) ∧ s.statics.onConditionOld = true

/-- The invariant of a run that meets the condition. -/
structure Announcing (o : Reported) : Prop extends Sound o where
  follows : ∀ w, o.window = some w → Follows w o.station

theorem announcing_boot (stack : HMICmdVar) (rate : UInt32) (rtuDataTx : RTUData) : Announcing (.boot stack rate rtuDataTx) := by
  refine ⟨sound_boot stack rate rtuDataTx, ?_⟩
  intro w hw
  cases hw

/-- A positioning that no reply has followed yet. -/
theorem follows_opened (s : Station) : Follows { announced := 0, found := false, reached := false } s := ⟨rfl, nofun, nofun⟩

/-- A step that sends nothing to the axes. -/
theorem Follows.frame {w : Window} {s s' : Station} (h : Follows w s)
    (harrived : (∀ ax, s.controller.Arrived ax) → ∀ ax, s'.controller.Arrived ax)
    (hold : s'.statics.onConditionOld = s.statics.onConditionOld) : Follows w s' := by
  refine ⟨h.announced, h.reached, ?_⟩
  intro hfound
  obtain ⟨hall, htrue⟩ := h.found hfound
  exact ⟨harrived hall, hold.trans htrue⟩

/-- A reply that finds both axes there announces the positioning now, or an earlier one did. -/
theorem Follows.reply_there {w : Window} {s : Station} (h : Follows w s) (hreplies : s.Replies)
    (htemp : s.statics.temperature.temperature.toNat < 1000) (htaken : s.controller.Taken) (hcond : s.controller.onCondition = true)
    (hfresh : w.found = false → s.statics.onConditionOld = false) (r : TelemetryReadings) :
    Follows (w.reply s r) (s.step (.reply r)) := by
  have hafter : (w.reply s r).found = true := by simp [Window.reply, htaken, hcond]
  have harrived := (arrived_iff _).mpr ⟨htaken, hcond⟩
  refine ⟨?_, fun _ => hafter, fun _ => ⟨fun ax => (arrived_reply hreplies r ax).2 (harrived ax), ?_⟩⟩
  · rw [hafter, if_pos rfl, announced_reply htemp w r, h.announced]
    cases hfound : w.found with
    | true =>
      have hold := (h.found hfound).2
      simp [hold]
    | false =>
      have hold := hfresh hfound
      simp [hcond, hold]
  · exact (reply_statics hreplies r).1.trans hcond

/-- A reply that does not find them there found nothing, and announces nothing. -/
theorem Follows.reply_away {w : Window} {s : Station} (h : Follows w s)
    (htemp : s.statics.temperature.temperature.toNat < 1000) (hnot : ¬(s.controller.Taken ∧ s.controller.onCondition = true))
    (hstale : s.controller.onCondition = true → s.statics.onConditionOld = true) (r : TelemetryReadings) :
    Follows (w.reply s r) (s.step (.reply r)) := by
  have hnone : w.found = false := by
    cases hfound : w.found with
    | false => rfl
    | true => exact absurd ((arrived_iff _).mp (h.found hfound).1) hnot
  have hquiet : ¬(s.controller.onCondition = true ∧ s.statics.onConditionOld = false) := by
    rintro ⟨hcond, hold⟩
    rw [hstale hcond] at hold
    cases hold
  have hafter : (w.reply s r).found = false := by
    show (w.found || _) = false
    rw [hnone, Bool.false_or, Bool.and_eq_false_iff, decide_eq_false_iff_not]
    by_cases htaken : s.controller.Taken
    · exact Or.inr (Bool.not_eq_true _ ▸ fun hcond => hnot ⟨htaken, hcond⟩)
    · exact Or.inl htaken
  refine ⟨?_, ?_, ?_⟩
  · rw [hafter, announced_reply htemp w r, if_neg hquiet, h.announced, hnone]
    rfl
  · intro hreached
    have hsplit : w.reached = true ∨ s.controller.Processed ∧ s.controller.onCondition = true := by
      simpa [Window.reply] using hreached
    rcases hsplit with hbefore | ⟨hprocessed, hcond⟩
    · have hfound := h.reached hbefore
      rw [hnone] at hfound
      cases hfound
    · exact absurd ⟨hprocessed.1, hcond⟩ hnot
  · rw [hafter]
    nofun

/-- One more reply, if it meets the condition. -/
theorem Follows.reply {w : Window} {s : Station} (h : Follows w s) (hreplies : s.Replies)
    (htemp : s.statics.temperature.temperature.toNat < 1000)
    (hfresh : s.controller.onCondition = true → (¬s.controller.Taken → s.statics.onConditionOld = true) ∧
      (s.controller.Taken → w.found = false → s.statics.onConditionOld = false)) (r : TelemetryReadings) :
    Follows (w.reply s r) (s.step (.reply r)) := by
  by_cases hthere : s.controller.Taken ∧ s.controller.onCondition = true
  · obtain ⟨htaken, hcond⟩ := hthere
    exact h.reply_there hreplies htemp htaken hcond ((hfresh hcond).2 htaken) r
  · refine h.reply_away htemp hthere ?_ r
    intro hcond
    exact (hfresh hcond).1 fun htaken => hthere ⟨htaken, hcond⟩

/-- A step that meets the condition keeps the invariant. -/
theorem announcing_step {o : Reported} (h : Announcing o) {l : StationLabel} (hfresh : o.Fresh l) : Announcing (o.step l) := by
  refine ⟨sound_step h.toSound l, ?_⟩
  intro w hw
  cases l with
  | reply r =>
    by_cases hreplies : o.station.Replies
    · simp only [Reported.step, if_pos hreplies] at hw
      obtain ⟨w', hw', rfl⟩ := Option.map_eq_some_iff.mp hw
      exact (h.follows w' hw').reply hreplies h.threeDigits (hfresh w' hw' hreplies) r
    · have hstation : o.station.step (.reply r) = o.station := if_neg hreplies
      simp only [Reported.step, if_neg hreplies] at hw
      show Follows w (o.station.step (.reply r))
      rw [hstation]
      exact h.follows w hw
  | controller l stack =>
    obtain ⟨hstatics, hcontroller⟩ := station_step_controller o.station l stack
    rcases window_controller o l stack hw with ⟨i, es, -, -, -, rfl⟩ | ⟨hw', hquiet⟩
    · exact follows_opened _
    · -- a window that stays is kept by a step that sends nothing to the axes
      refine (h.follows w hw').frame ?_ (congrArg TelemetryStatics.onConditionOld hstatics)
      intro harrived ax
      show (o.station.step (.controller l stack)).controller.Arrived ax
      rcases hcontroller with hsame | hmoved
      · rw [hsame]
        exact harrived ax
      · rw [hmoved]
        exact (harrived ax).turn (axisTurn _ l ax) fun i es hl henter => hquiet i es hl henter ax

/-! ## Going on -/

/-- `RTUDataTx` on a cleared stack. -/
def clearedData : RTUData :=
  { posActArm := 0, posActPole := 0, velActArm := 0, velActPole := 0, cwLimitArm := .replicate _ 0, ccwLimitArm := .replicate _ 0
    cwLimitPole := .replicate _ 0, ccwLimitPole := .replicate _ 0, limitUp := .replicate _ 0, limitDown := .replicate _ 0
    stallAlm := .replicate _ 0, onCondition := .replicate _ 0, status := 0, buffer := .replicate _ 0 }

/-- Steps that build no reply. -/
def controllerSteps (ls : List ControllerLabel) : List StationLabel := ls.map fun l => .controller l clearedData

/-- With the thread elsewhere. -/
def withTcp (o : Reported) (tcp : TcpState) : Reported :=
  { o with station := { o.station with controller := { o.station.controller with tcp } } }

/-- A step of the thread that makes no call and opens no block. -/
theorem step_withTcp (o : Reported) {i : TcpInput} {tcp tcp' : TcpState} (hpc : tcp.pc ≠ .trigger []) (hblock : tcp.pc ≠ .accept)
    (heffect : tcp.effect i = none) (hstep : tcp.step i = tcp')
    (hwindow : ∀ es, tcp.entered i = some es → windowAfter o.window es = o.window) :
    (withTcp o tcp).step (.controller (.tcp i) clearedData) = withTcp o tcp' := by
  have hquiet : (withTcp o tcp).station.controller.step (.tcp i) = (withTcp o tcp').station.controller := by
    rw [← hstep]
    exact step_tcp_quiet heffect
  have hstation : (withTcp o tcp).station.step (.controller (.tcp i) clearedData) = (withTcp o tcp').station := by
    have hreplies : ¬(withTcp o tcp).station.Replies := hpc
    rw [station_step_tcp hreplies hblock, hquiet]
    rfl
  have hafter : ((tcp.entered i).map (windowAfter o.window)).getD o.window = o.window := by
    cases henter : tcp.entered i with
    | none => rfl
    | some es => exact hwindow es henter
  exact congr (congrArg Reported.mk hstation) hafter

/-- Where the next reply is due. -/
def due (o : Reported) (tcp : TcpState) : Reported :=
  { o with station := { o.station with controller := { o.station.controller with tcp, stallDetection := false } } }

/-- The peer can send its frame once more: the next reply is due, and nothing but the thread and the stall detection has changed. -/
theorem exists_due {o : Reported} (hpc : o.station.controller.tcp.pc = .write) (h : o.station.controller.tcp.Repeatable) :
    ∃ rest tcp, tcp.pc = .trigger [] ∧ run Reported.step o rest = due o tcp := by
  obtain ⟨cmd, hst, hs, harm, hpole⟩ := h
  have hself : o = withTcp o o.station.controller.tcp := rfl
  generalize o.station.controller.tcp = s at hpc hst hself
  obtain ⟨pc, statics, v, status⟩ := s
  obtain rfl : pc = .write := hpc
  obtain rfl : statics = .of cmd := hst
  have hwrite : (withTcp o ⟨.write, .of cmd, v, status⟩).step (.controller (.tcp (.write 0)) clearedData) =
      withTcp o ⟨.next, .of cmd, v, status⟩ := by
    refine step_withTcp o nofun nofun rfl rfl ?_
    intro es hes
    cases hes
  have hnext : (withTcp o ⟨.next, .of cmd, v, status⟩).step (.controller (.tcp (.next 0)) clearedData) =
      withTcp o ⟨.data, .of cmd, v, status⟩ := by
    refine step_withTcp o nofun nofun rfl rfl ?_
    intro es hes
    cases hes
  have hdata : (withTcp o ⟨.data, .of cmd, v, status⟩).step
        (.controller (.tcp (.data 0 cmd.again.memory RCV_TRAMA_LARGO)) clearedData) =
      withTcp o ⟨.trigger [.setStallDetection false], .of cmd.again, cmd.again.stored, ERR_OK⟩ := by
    refine step_withTcp o nofun nofun rfl (step_again hs harm hpole v status) ?_
    intro es hes
    unfold TcpState.entered at hes
    rw [step_again hs harm hpole v status] at hes
    obtain rfl : [.setStallDetection false] = es := Option.some_inj.mp hes
    rfl
  refine ⟨controllerSteps ((sentAgain cmd).map .tcp), ⟨.trigger [], .of cmd.again, cmd.again.stored, ERR_OK⟩, rfl, ?_⟩
  rw [hself]
  simp only [sentAgain, List.map_cons, List.map_nil, controllerSteps, run_cons, run_nil, hwrite, hnext, hdata]
  rfl

/-- A run of steps that are not the thread's. -/
theorem run_controllerSteps {o : Reported} {ls : List ControllerLabel} (h : ∀ l ∈ ls, ∀ i, l ≠ .tcp i) :
    run Reported.step o (controllerSteps ls) =
      { o with station := { o.station with controller := run Controller.step o.station.controller ls } } := by
  induction ls generalizing o with
  | nil => rfl
  | cons l ls ih =>
    have hstep : o.step (.controller l clearedData) =
        { o with station := { o.station with controller := o.station.controller.step l } } := by
      cases l with
      | tcp i => exact absurd rfl (h _ List.mem_cons_self i)
      | _ => rfl
    show run Reported.step (o.step (.controller l clearedData)) (controllerSteps ls) = _
    rw [hstep, ih fun l' hl' => h l' (List.mem_cons_of_mem l hl')]
    rfl

/-- In a window, with the thread about to write a reply. -/
structure Written (o : Reported) (w : Window) : Prop extends Sound o where
  pc : o.station.controller.tcp.pc = .write
  window : o.window = some w

theorem written_reply {o : Reported} (hsound : Sound o) (hreplies : o.station.Replies) {w : Window} (hw : o.window = some w)
    (r : TelemetryReadings) : Written (o.step (.reply r)) (w.reply o.station r) :=
  ⟨sound_step hsound (.reply r), (reply_frame hreplies r).1, window_reply hreplies hw r⟩

/-- The other tasks go on. -/
theorem written_controllerSteps {o : Reported} {w : Window} (h : Written o w) {ls : List ControllerLabel}
    (hls : ∀ l ∈ ls, ∀ i, l ≠ .tcp i) : Written (run Reported.step o (controllerSteps ls)) w := by
  refine ⟨run_inv Sound (fun _ l hs => sound_step hs l) h.toSound _, ?_, ?_⟩
  · rw [run_controllerSteps hls]
    exact (congrArg TcpState.pc (tcp_run_device _ hls)).trans h.pc
  · rw [run_controllerSteps hls]
    exact h.window

/-- The run can go on to a reply that finds the positioning completed, which then has been announced so many times. -/
def Completes (o : Reported) (announced : Nat) : Prop :=
  ∃ rest w, (run Reported.step o rest).window = some w ∧ w.reached = true ∧ w.announced = announced

theorem Completes.of_run {o : Reported} {rest : List StationLabel} {n : Nat} (h : Completes (run Reported.step o rest) n) :
    Completes o n := by
  obtain ⟨rest', w, hwindow, hcompleted⟩ := h
  exact ⟨rest ++ rest', w, (congrArg Reported.window (run_append ..)).trans hwindow, hcompleted⟩

theorem Completes.not_once {o : Reported} {n : Nat} (h : Completes o n) (hn : n ≠ 1) :
    ∃ rest, ¬(run Reported.step o rest).AnnouncedOnce := by
  obtain ⟨rest, w, hwindow, hreached, rfl⟩ := h
  exact ⟨rest, fun honce => hn (honce w hwindow hreached)⟩

/-- Readings of no interest. -/
def zeroReadings : TelemetryReadings := ⟨0, 0, 0, 0, 0⟩

/-- What is on its way to an axis is still on its way where the next reply is due. -/
theorem backlog_due {o : Reported} (hpc : o.station.controller.tcp.pc = .write) {tcp : TcpState} (htcp : tcp.pc = .trigger [])
    (ax : Axis) : (due o tcp).station.controller.backlog ax = o.station.controller.backlog ax := by
  have hpc' : (due o tcp).station.controller.tcp.pc = .trigger [] := htcp
  unfold Controller.backlog
  rw [hpc, hpc', phase_write, phase_trigger]
  exact congrArg (· ++ toAxis ax []) (queued_congr rfl rfl ax)

/-- Where both axes are back at their queues, their flags set, the peer sends its frame once more. -/
theorem Written.completes_of_processed {o : Reported} {w : Window} (h : Written o w) (hprocessed : o.station.controller.Processed)
    (hcond : o.station.controller.onCondition = true) :
    Completes o (w.announced + if o.station.statics.onConditionOld = false then 1 else 0) := by
  obtain ⟨rest, tcp, htcp, hdue⟩ := exists_due h.pc h.repeatable
  have hprocessed' : (due o tcp).station.controller.Processed :=
    ⟨⟨(backlog_due h.pc htcp .arm).trans hprocessed.1.1, (backlog_due h.pc htcp .pole).trans hprocessed.1.2⟩, hprocessed.2⟩
  have hcond' : (due o tcp).station.controller.onCondition = true := hcond
  have htemp : (due o tcp).station.statics.temperature.temperature.toNat < 1000 := h.threeDigits
  have hold : (due o tcp).station.statics.onConditionOld = o.station.statics.onConditionOld := rfl
  have hreplies : (due o tcp).station.Replies := htcp
  refine ⟨rest ++ [.reply zeroReadings], w.reply (due o tcp).station zeroReadings, ?_, ?_, ?_⟩
  · rw [run_snoc, hdue]
    exact window_reply hreplies h.window zeroReadings
  · simp [Window.reply, hprocessed', hcond']
  · rw [announced_reply htemp, hcond', hold]
    simp only [true_and]

/-- Where both axes have arrived, their commands go on first. -/
theorem Written.completes_of_arrived {o : Reported} {w : Window} (h : Written o w) (harrived : ∀ ax, o.station.controller.Arrived ax) :
    Completes o (w.announced + if o.station.statics.onConditionOld = false then 1 else 0) := by
  have hls : ∀ l ∈ [ControllerLabel.cmdResume .arm, .cmdResume .pole], ∀ i, l ≠ .tcp i := by simp
  have hwritten := written_controllerSteps h hls
  have hrun : run Reported.step o (controllerSteps [.cmdResume .arm, .cmdResume .pole]) =
      { o with
          station :=
            { o.station with
                controller :=
                  { o.station.controller with
                      arm := o.station.controller.arm.cmdResume, pole := o.station.controller.pole.cmdResume } } } := by
    rw [run_controllerSteps hls]
    rfl
  have hprocessed : (run Reported.step o (controllerSteps [.cmdResume .arm, .cmdResume .pole])).station.controller.Processed := by
    rw [hrun]
    exact ⟨⟨(harrived .arm).1, (harrived .pole).1⟩, cmd_cmdResume _, cmd_cmdResume _⟩
  have hcond : (run Reported.step o (controllerSteps [.cmdResume .arm, .cmdResume .pole])).station.controller.onCondition = true := by
    rw [hrun]
    exact Bool.and_eq_true_iff.mpr ⟨alreadyThere_cmdResume (harrived .arm).2, alreadyThere_cmdResume (harrived .pole).2⟩
  have hold : (run Reported.step o (controllerSteps [.cmdResume .arm, .cmdResume .pole])).station.statics = o.station.statics := by
    rw [hrun]
  have hcompletes := hwritten.completes_of_processed hprocessed hcond
  rw [hold] at hcompletes
  exact hcompletes.of_run

/-! ## The condition is needed -/

/-- A reply that finds the positioning completed and does not announce it. -/
theorem completes_unannounced {o : Reported} (h : Announcing o) (hreplies : o.station.Replies) {w : Window} (hw : o.window = some w)
    (hcond : o.station.controller.onCondition = true) (htaken : o.station.controller.Taken) (hfound : w.found = false)
    (hold : o.station.statics.onConditionOld = true) (r : TelemetryReadings) : Completes (o.step (.reply r)) 0 := by
  have harrived := (arrived_iff _).mpr ⟨htaken, hcond⟩
  have hcompletes := (written_reply h.toSound hreplies hw r).completes_of_arrived
    fun ax => (arrived_reply hreplies r ax).2 (harrived ax)
  have hzero : (w.reply o.station r).announced = 0 := by
    rw [announced_reply h.threeDigits, hold, (h.follows w hw).announced, hfound]
    simp
  have hstill : (o.step (.reply r)).station.statics.onConditionOld = true := (reply_statics hreplies r).1.trans hcond
  rw [hzero, hstill] at hcompletes
  exact hcompletes

theorem exists_other (ax : Axis) : ∃ bx, bx ≠ ax ∧ ∀ ax', ax' = ax ∨ ax' = bx := by
  cases ax
  · exact ⟨.pole, nofun, fun ax' => by cases ax' <;> simp⟩
  · exact ⟨.arm, nofun, fun ax' => by cases ax' <;> simp⟩

/-- Axes that are apart stay so with a reply. -/
theorem apart_reply {s : Station} (hreplies : s.Replies) (r : TelemetryReadings) {ax bx : Axis} (h : s.controller.Apart ax bx) :
    (s.step (.reply r)).controller.Apart ax bx := by
  obtain ⟨-, -, hframe⟩ := reply_frame hreplies r
  obtain ⟨hbacklog, raw, haxis⟩ := hframe ax
  obtain ⟨hbacklog', raw', haxis'⟩ := hframe bx
  refine ⟨⟨hbacklog'.trans h.arrived.1, ?_⟩, hbacklog.trans h.empty, ?_, ?_⟩
  · rw [haxis']
    exact h.arrived.2
  · rw [haxis]
    exact ⟨h.underWay.type, h.underWay.notThere, h.underWay.rdc⟩
  · rw [haxis]
    exact h.sup

/-- Axes that are apart are so where the next reply is due. -/
theorem apart_due {o : Reported} (hpc : o.station.controller.tcp.pc = .write) {tcp : TcpState} (htcp : tcp.pc = .trigger [])
    {ax bx : Axis} (h : o.station.controller.Apart ax bx) : (due o tcp).station.controller.Apart ax bx := by
  have haxis : ∀ ax, (due o tcp).station.controller.axis ax = o.station.controller.axis ax := axis_congr rfl rfl
  refine ⟨⟨(backlog_due hpc htcp bx).trans h.arrived.1, ?_⟩, (backlog_due hpc htcp ax).trans h.empty, ?_, ?_⟩
  · rw [haxis]
    exact h.arrived.2
  · rw [haxis]
    exact h.underWay
  · rw [haxis]
    exact h.sup

/-- An axis under way is not there. -/
theorem onCondition_of_apart {c : Controller} {ax bx : Axis} (h : c.Apart ax bx) : c.onCondition = false := by
  have hnot := h.underWay.notThere
  unfold Controller.onCondition
  cases ax
  · exact Bool.and_eq_false_iff.mpr (Or.inl hnot)
  · exact Bool.and_eq_false_iff.mpr (Or.inr hnot)

/-- Where the axes are apart, a reply finds the one under way, its supervisor finds it at its set point, and another reply finds both
there. -/
theorem Written.completes_of_apart {o : Reported} {w : Window} (h : Written o w) {ax bx : Axis} (hne : bx ≠ ax)
    (hall : ∀ ax', ax' = ax ∨ ax' = bx) (hapart : o.station.controller.Apart ax bx) : Completes o (w.announced + 1) := by
  obtain ⟨rest, tcp, htcp, hdue⟩ := exists_due h.pc h.repeatable
  have hreplies : (due o tcp).station.Replies := htcp
  have hwindow : (due o tcp).window = some w := h.window
  have hsound : Sound (due o tcp) := hdue ▸ run_inv Sound (fun _ l hs => sound_step hs l) h.toSound rest
  have hwritten := written_reply hsound hreplies hwindow zeroReadings
  have hdueApart := apart_due h.pc htcp hapart
  have hcond := onCondition_of_apart hdueApart
  obtain ⟨raw, harrived, harrived'⟩ :=
    (apart_reply hreplies zeroReadings hdueApart).exists_supervise hne (reply_frame hreplies zeroReadings).2.1
  have hls : ∀ l ∈ [ControllerLabel.supervise ax raw], ∀ i, l ≠ .tcp i := by simp
  have hrun := run_controllerSteps (o := (due o tcp).step (.reply zeroReadings)) hls
  have hboth : ∀ ax', (run Reported.step ((due o tcp).step (.reply zeroReadings))
      (controllerSteps [.supervise ax raw])).station.controller.Arrived ax' := by
    intro ax'
    rw [hrun]
    rcases hall ax' with rfl | rfl
    · exact harrived
    · exact harrived'
  have hquiet : (w.reply (due o tcp).station zeroReadings).announced = w.announced := by
    rw [announced_reply hsound.threeDigits, hcond]
    simp
  have hold : (run Reported.step ((due o tcp).step (.reply zeroReadings))
      (controllerSteps [.supervise ax raw])).station.statics.onConditionOld = false := by
    rw [hrun]
    exact (reply_statics hreplies zeroReadings).1.trans hcond
  have hcompletes := (written_controllerSteps hwritten hls).completes_of_arrived hboth
  rw [hquiet, hold, if_pos rfl] at hcompletes
  have hreplied : Completes (run Reported.step o (rest ++ [.reply zeroReadings])) (w.announced + 1) := by
    rw [run_snoc, hdue]
    exact hcompletes.of_run
  exact hreplied.of_run

/-- Where a message is still on its way to an axis, that axis takes it away from its set point, while the other one arrives. -/
theorem Written.completes_of_backlog {o : Reported} {w : Window} (h : Written o w) (hcond : o.station.controller.onCondition = true)
    {ax : Axis} (hbacklog : o.station.controller.backlog ax ≠ []) : Completes o (w.announced + 1) := by
  obtain ⟨bx, hne, hall⟩ := exists_other ax
  have hpending : o.station.controller.tcp.pc.phase.pending = [] := by rw [h.pc, phase_write, Phase.pending]
  have hthere : (o.station.controller.axis bx).me.alreadyThere = true := by
    obtain ⟨harm, hpole⟩ := Bool.and_eq_true_iff.mp hcond
    cases bx
    · exact harm
    · exact hpole
  obtain ⟨sched, hsched, hapart⟩ := exists_apart hne hpending h.rdc (h.newest w h.window) hbacklog hthere
  refine ((written_controllerSteps h hsched).completes_of_apart hne hall ?_).of_run
  rw [run_controllerSteps hsched]
  exact hapart

/-- A reply that announces the positioning while a message is still on its way to an axis. -/
theorem completes_announced_twice {o : Reported} (h : Announcing o) (hreplies : o.station.Replies) {w : Window}
    (hw : o.window = some w) (hcond : o.station.controller.onCondition = true) (hnot : ¬o.station.controller.Taken)
    (hold : o.station.statics.onConditionOld = false) (r : TelemetryReadings) : Completes (o.step (.reply r)) 2 := by
  have hfound : w.found = false := by
    cases hfound : w.found with
    | false => rfl
    | true => exact absurd ((arrived_iff _).mp ((h.follows w hw).found hfound).1).1 hnot
  have hone : (w.reply o.station r).announced = 1 := by
    rw [announced_reply h.threeDigits, hold, hcond, (h.follows w hw).announced, hfound]
    simp
  have hcond' : (o.step (.reply r)).station.controller.onCondition = true :=
    (congr (congrArg and (arrived_reply hreplies r .arm).1) (arrived_reply hreplies r .pole).1).trans hcond
  obtain ⟨ax, hbacklog⟩ : ∃ ax, o.station.controller.backlog ax ≠ [] := by
    by_cases harm : o.station.controller.backlog .arm = []
    · exact ⟨.pole, fun hpole => hnot ⟨harm, hpole⟩⟩
    · exact ⟨.arm, harm⟩
  have hbacklog' : (o.step (.reply r)).station.controller.backlog ax ≠ [] := by
    intro hempty
    exact hbacklog (((reply_frame hreplies r).2.2 ax).1.symm.trans hempty)
  have hcompletes := (written_reply h.toSound hreplies hw r).completes_of_backlog hcond' hbacklog'
  rw [hone] at hcompletes
  exact hcompletes

/-- After a reply that does not meet the condition, the run can go on to a completed positioning that is not announced once. -/
theorem exists_not_once {o : Reported} (h : Announcing o) {l : StationLabel} (hbad : ¬o.Fresh l) :
    ∃ rest, ¬(run Reported.step (o.step l) rest).AnnouncedOnce := by
  cases l with
  | controller l stack => exact absurd trivial hbad
  | reply r =>
    simp only [Reported.Fresh, not_forall] at hbad
    obtain ⟨w, hw, hreplies, hcond, hstale⟩ := hbad
    by_cases htaken : o.station.controller.Taken
    · have hboth : w.found = false ∧ o.station.statics.onConditionOld = true := by simpa [htaken] using hstale
      exact (completes_unannounced h hreplies hw hcond htaken hboth.1 hboth.2 r).not_once (by decide)
    · have hold : o.station.statics.onConditionOld = false := by simpa [htaken] using hstale
      exact (completes_announced_twice h hreplies hw hcond htaken hold r).not_once (by decide)

/-! ## Two positionings -/

/-- An enabled frame in automatic mode, with set points. -/
def autoFrame (posCmdArm posCmdPole : UInt16) : HMICmd :=
  { bootCmd with mode := .eAuto, posCmdArm, posCmdPole, ctrlEn := .eEnable, clientID := .eSigned }

/-- A frame that positions both axes, which stand at 2000, with the calls it makes and the reply. -/
def positioned (cmd : HMICmd) (calls : Nat) : List StationLabel :=
  controllerSteps ([.tcp (.recv 0), .tcp (.data 0 cmd.memory 51)] ++ List.replicate calls (.tcp .run) ++
      [.receive .arm ⟨.stop, .cw, 0, 0⟩ 22305, .receive .pole ⟨.stop, .cw, 0, 0⟩ 22181]) ++
    [.reply ⟨100, 22181, 22305, 22305, 22181⟩]

/-- A connection is opened, and both axes are positioned where they stand. -/
def onePositioning : List StationLabel := controllerSteps [.tcp (.accept 0 bootCmd.stored)] ++ positioned (autoFrame 2000 2000) 4

/-- And once more, a count further. -/
def twoPositionings : List StationLabel :=
  onePositioning ++ controllerSteps [.tcp (.write 0), .tcp (.next (-1)), .tcp .run] ++ positioned (autoFrame 2001 2001) 3

end AnnouncementAux

open AnnouncementAux

/-- In every run whose replies all meet the condition, a completed positioning is announced once. A run with a reply that does not can
go on, after that reply, to a completed positioning that is not. -/
theorem announced_once (stack : HMICmdVar) (rate : UInt32) (rtuDataTx : RTUData) (sched : List StationLabel) :
    (Steps Reported.step Reported.Fresh (.boot stack rate rtuDataTx) sched →
        Always Reported.step Reported.AnnouncedOnce (.boot stack rate rtuDataTx) sched) ∧
      (¬Steps Reported.step Reported.Fresh (.boot stack rate rtuDataTx) sched →
        ∃ pre rest, pre <+: sched ∧ ¬Always Reported.step Reported.AnnouncedOnce (.boot stack rate rtuDataTx) (pre ++ rest)) := by
  have hannouncing : ∀ {sched}, Steps Reported.step Reported.Fresh (.boot stack rate rtuDataTx) sched →
      Always Reported.step Announcing (.boot stack rate rtuDataTx) sched :=
    fun h => always_of_steps Announcing (fun _ _ h hl => announcing_step h hl) (announcing_boot stack rate rtuDataTx) h
  constructor
  · intro h
    refine (hannouncing h).imp ?_
    intro o ho w hw hreached
    have hfollows := ho.follows w hw
    rw [hfollows.announced, if_pos (hfollows.reached hreached)]
  · intro hnot
    obtain ⟨pre, l, hpre, hgood, hbad⟩ := exists_first_failure hnot
    obtain ⟨rest, honce⟩ := exists_not_once (hannouncing hgood).last hbad
    refine ⟨pre ++ [l], rest, hpre, ?_⟩
    intro halways
    have hend := halways.last
    rw [run_append, run_snoc] at hend
    exact honce hend

/-- A positioning that is announced. -/
example : Steps Reported.step Reported.Fresh (.boot bootCmd.stored 204000000 clearedData) onePositioning ∧
    (run Reported.step (.boot bootCmd.stored 204000000 clearedData) onePositioning).window = some ⟨1, true, true⟩ := by
  decide +kernel

/-- Two set points next to each other: no reply falls between the flags of the one and those of the other, and the second positioning
is never announced. -/
theorem announcement_lost :
    ¬∀ (stack : HMICmdVar) (rate : UInt32) (rtuDataTx : RTUData) (sched : List StationLabel),
      Always Reported.step Reported.AnnouncedOnce (.boot stack rate rtuDataTx) sched := by
  intro h
  have honce := (h bootCmd.stored 204000000 clearedData twoPositionings).last
  have hwindow : (run Reported.step (.boot bootCmd.stored 204000000 clearedData) twoPositionings).window = some ⟨0, true, true⟩ := by
    decide +kernel
  exact absurd (honce _ hwindow rfl) (by decide)

end Rtu

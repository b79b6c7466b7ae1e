import Rtu.Lemmas.Axis

/-!
# What the functions of an axis keep

The guard of a reversal tests `type` and not the timer, so the invariant of a structure between two operations ties the two
(`AxisOk`): a running timer means a type that is not STOP, and a type that is not STOP means a direction on the output and a
frequency in the timer. Every lemma says what one function does to it.
-/

namespace Rtu

/-- A peripheral call within its limits: a frequency the timer accepts, a direction that does not turn a running motor. -/
def Call.Ok : Call → Prop
  | .tmrSetFreq hz ret => hz ≠ 0 ∧ hz ≤ motPapCompumotorMaxFreq ∧ ret = 0
  | .direction dir last running => running = true → last = some dir
  | _ => True

/-- The frequency of the structure is a motor frequency, and the match register is the one for it. -/
structure FreqOk (rate : UInt32) (me : MotPap) : Prop where
  ge : 25000 ≤ me.freq.toNat
  le : me.freq.toNat ≤ 125000
  mr1 : me.tmr.mr1.toNat = rate.toNat / (2 * me.freq.toNat)

/-- The structure of an axis between two operations, on a clock of the given rate. -/
structure AxisOk (rate : UInt32) (me : MotPap) : Prop where
  clock : me.tmr.rate = rate
  running : me.tmr.started = true → me.type ≠ .stop
  output : me.type ≠ .stop → me.dirOut = some me.dir
  freq : me.type ≠ .stop → FreqOk rate me
  calls : ∀ c ∈ me.calls, c.Ok

/-! ## Frequencies -/

/-- The match register `tmr_set_freq` computes, for a frequency whose double fits in 32 bits. -/
theorem div_shiftLeft_one_toNat (rate hz : UInt32) (h : hz.toNat ≤ 125000) :
    (rate / (hz <<< 1)).toNat = rate.toNat / (2 * hz.toNat) := by
  have hdouble : (hz <<< 1).toNat = 2 * hz.toNat := by
    rw [UInt32.toNat_shiftLeft]
    simp [Nat.shiftLeft_eq]
    omega
  rw [UInt32.toNat_div, hdouble]

/-- A speed that passes the check is one of the eight entries of the table after the first. -/
theorem freeRunSpeedOk_iff (speed : UInt32) : motPapFreeRunSpeedOk speed = true ↔ 0 < speed.toNat ∧ speed.toNat ≤ 8 := by
  simp [motPapFreeRunSpeedOk, motPapMaxSpeedFreeRun, UInt32.lt_iff_toNat_lt, UInt32.le_iff_toNat_le]

/-- A speed that passes the check runs the motor at 25 kHz to 125 kHz. -/
theorem freeRunFreq_bounds (speed : UInt32) (h : motPapFreeRunSpeedOk speed = true) :
    25000 ≤ (freeRunFreq speed).toNat ∧ (freeRunFreq speed).toNat ≤ 125000 := by
  obtain ⟨hpos, hle⟩ := (freeRunSpeedOk_iff speed).mp h
  have table : ∀ n < 9, 0 < n → 25000 ≤ (motPapFreeRunFreqs.getD n 0 * 1000).toNat ∧
      (motPapFreeRunFreqs.getD n 0 * 1000).toNat ≤ 125000 := by decide
  exact table speed.toNat (by omega) hpos

/-- Programming a motor frequency is a call within its limits, and sets the match register of that frequency. -/
theorem setFreq_ok (t : Tmr) (hz : UInt32) (hge : 25000 ≤ hz.toNat) (hle : hz.toNat ≤ 125000) :
    (Call.tmrSetFreq hz (t.setFreq hz).1).Ok ∧ (t.setFreq hz).2.rate = t.rate ∧
      (t.setFreq hz).2.mr1.toNat = t.rate.toNat / (2 * hz.toNat) := by
  have hne : hz ≠ 0 := by
    rintro rfl
    simp at hge
  have hmax : hz ≤ motPapCompumotorMaxFreq := by
    rw [UInt32.le_iff_toNat_le]
    simp [motPapCompumotorMaxFreq]
    omega
  have hset : t.setFreq hz = (0, { t with mr1 := t.rate / (hz <<< 1) }) := by
    simp [Tmr.setFreq, UInt32.not_lt.mpr hmax]
  rw [hset]
  exact ⟨⟨hne, hmax, rfl⟩, rfl, div_shiftLeft_one_toNat t.rate hz hle⟩

/-! ## The pieces of a move -/

/-- The invariant does not read positions, counters or the stall flags. -/
theorem AxisOk.congr {rate : UInt32} {me me' : MotPap} (h : AxisOk rate me) (htype : me'.type = me.type)
    (hdir : me'.dir = me.dir) (hout : me'.dirOut = me.dirOut) (hfreq : me'.freq = me.freq) (htmr : me'.tmr = me.tmr)
    (hcalls : me'.calls = me.calls) : AxisOk rate me' := by
  refine ⟨by rw [htmr]; exact h.clock, by rw [htmr, htype]; exact h.running, by rw [htype, hout, hdir]; exact h.output, ?_,
    by rw [hcalls]; exact h.calls⟩
  intro hne
  rw [htype] at hne
  obtain ⟨hge, hle, hmr⟩ := h.freq hne
  exact ⟨by rw [hfreq]; exact hge, by rw [hfreq]; exact hle, by rw [hfreq, htmr]; exact hmr⟩

/-- Stopping the timer keeps the invariant, and the type may then become STOP. -/
theorem AxisOk.tmrStop {rate : UInt32} {me : MotPap} (h : AxisOk rate me) : AxisOk rate me.tmrStop := by
  refine ⟨h.clock, by simp [MotPap.tmrStop, Tmr.stop], h.output, ?_, ?_⟩
  · intro hne
    obtain ⟨hge, hle, hmr⟩ := h.freq hne
    exact ⟨hge, hle, hmr⟩
  · exact List.forall_mem_cons.mpr ⟨trivial, h.calls⟩

/-- Stopping the timer in a structure that held the invariant but for its type. -/
theorem AxisOk.toStop {rate : UInt32} {me : MotPap} (h : AxisOk rate me) : AxisOk rate { me with type := .stop }.tmrStop := by
  refine ⟨h.clock, by simp [MotPap.tmrStop, Tmr.stop], fun hne => absurd rfl hne, fun hne => absurd rfl hne, ?_⟩
  exact h.tmrStop.calls

/-- Starting the timer of a structure whose type is not STOP keeps the invariant. -/
theorem AxisOk.tmrStart {rate : UInt32} {me : MotPap} (h : AxisOk rate me) (hne : me.type ≠ .stop) :
    AxisOk rate me.tmrStart := by
  refine ⟨h.clock, fun _ => hne, h.output, ?_, ?_⟩
  · intro _
    obtain ⟨hge, hle, hmr⟩ := h.freq hne
    exact ⟨hge, hle, hmr⟩
  · exact List.forall_mem_cons.mpr ⟨trivial, h.calls⟩

/-- The timer is stopped, programmed and started, with the direction on the output: the structure is in order whatever the timer
did before. -/
theorem axisOk_restart {rate : UInt32} {me : MotPap} (hz : UInt32) (hclock : me.tmr.rate = rate) (hne : me.type ≠ .stop)
    (hout : me.dirOut = some me.dir) (hcalls : ∀ c ∈ me.calls, c.Ok) (hge : 25000 ≤ hz.toNat) (hle : hz.toNat ≤ 125000) :
    AxisOk rate { me with freq := hz }.restart := by
  obtain ⟨hok, hrate, hmr⟩ := setFreq_ok me.tmr.stop hz hge hle
  refine ⟨hrate.trans hclock, fun _ => hne, fun _ => hout, ?_, ?_⟩
  · intro _
    refine ⟨hge, hle, ?_⟩
    rw [← hclock]
    exact hmr
  · intro c hc
    simp only [MotPap.restart, MotPap.tmrStart, MotPap.tmrSetFreq, MotPap.tmrStop, List.mem_cons] at hc
    rcases hc with rfl | rfl | rfl | hc
    · trivial
    · exact hok
    · trivial
    · exact hcalls c hc

/-- The end of a move: the type and the direction are set, the direction is put on the output, and the timer is programmed
and started. Where the timer may still run, the output must hold that direction already. -/
theorem axisOk_move {rate : UInt32} {me : MotPap} (h : AxisOk rate me) (t : MotPapType) (dir : MotPapDirection) (hz : UInt32)
    (ht : t ≠ .stop) (hge : 25000 ≤ hz.toNat) (hle : hz.toNat ≤ 125000)
    (hdir : me.tmr.started = true → me.dirOut = some dir) :
    AxisOk rate { ({ me with type := t, dir := dir }.direction) with freq := hz }.restart := by
  have hcalls : ∀ c ∈ ({ me with type := t, dir := dir }.direction).calls, c.Ok := List.forall_mem_cons.mpr ⟨hdir, h.calls⟩
  exact axisOk_restart hz h.clock ht rfl hcalls hge hle

/-- Where no reversal is needed, a running motor already has the direction on its output. -/
theorem AxisOk.dirOut_of_running {rate : UInt32} {me : MotPap} (h : AxisOk rate me) {dir : MotPapDirection}
    (hdir : ¬(me.dir ≠ dir ∧ me.type ≠ .stop)) (hrun : me.tmr.started = true) : me.dirOut = some dir := by
  have hne := h.running hrun
  have : me.dir = dir := by
    by_cases hd : me.dir = dir
    · exact hd
    · exact absurd ⟨hd, hne⟩ hdir
  rw [h.output hne, this]

/-! ## The functions -/

theorem AxisOk.readCorrectedPos {rate : UInt32} {me : MotPap} (h : AxisOk rate me) (raw : UInt16) :
    AxisOk rate (motPapReadCorrectedPos me raw) :=
  h.congr rfl rfl rfl rfl rfl rfl

theorem AxisOk.cont {rate : UInt32} {me : MotPap} (h : AxisOk rate me) : AxisOk rate me.cont :=
  h.congr rfl rfl rfl rfl rfl rfl

/-- A command resumed after its delay, in which the timer stood still, keeps the invariant if its speed passed the check. -/
theorem AxisOk.resume {rate : UInt32} {me : MotPap} (h : AxisOk rate me) (k : CmdDelay) (hstop : me.tmr.started = false)
    (hk : ∀ dir speed, k = .freeRun dir speed → motPapFreeRunSpeedOk speed = true) : AxisOk rate (k.resume me) := by
  cases k with
  | freeRun dir speed =>
    obtain ⟨hge, hle⟩ := freeRunFreq_bounds speed (hk dir speed rfl)
    exact axisOk_move h .freeRunning dir _ (by decide) hge hle (by simp [hstop])
  | closedLoop dir =>
    exact axisOk_move h .closedLoop dir motPapMaxFreq (by decide) (by decide) (by decide) (by simp [hstop])

/-- `mot_pap_move_free_run`: it ends, or it waits with the timer stopped and a speed that passed the check. -/
theorem AxisOk.moveFreeRun {rate : UInt32} {me : MotPap} (h : AxisOk rate me) (direction : MotPapDirection) (speed : UInt32) :
    AxisOk rate (motPapMoveFreeRun me direction speed).1 ∧
      ∀ k, (motPapMoveFreeRun me direction speed).2 = some k →
        (motPapMoveFreeRun me direction speed).1.tmr.started = false ∧
          ∀ dir v, k = .freeRun dir v → motPapFreeRunSpeedOk v = true := by
  unfold motPapMoveFreeRun
  split
  · rename_i hspeed
    split
    · refine ⟨h.tmrStop, ?_⟩
      intro k hk
      simp only [Option.some.injEq] at hk
      subst hk
      refine ⟨rfl, ?_⟩
      intro dir v hv
      cases hv
      exact hspeed
    · rename_i hdir
      obtain ⟨hge, hle⟩ := freeRunFreq_bounds speed hspeed
      exact ⟨axisOk_move h .freeRunning direction _ (by decide) hge hle (h.dirOut_of_running hdir), by simp⟩
  · exact ⟨h, by simp⟩

/-- `mot_pap_move_closed_loop`: it ends, or it waits with the timer stopped. -/
theorem AxisOk.moveClosedLoop {rate : UInt32} {me : MotPap} (h : AxisOk rate me) (setpoint : UInt16) :
    AxisOk rate (motPapMoveClosedLoop me setpoint).1 ∧
      ∀ k, (motPapMoveClosedLoop me setpoint).2 = some k →
        (motPapMoveClosedLoop me setpoint).1.tmr.started = false ∧
          ∀ dir v, k = .freeRun dir v → motPapFreeRunSpeedOk v = true := by
  have hpos : AxisOk rate { me with posCmd := setpoint } := h.congr rfl rfl rfl rfl rfl rfl
  unfold motPapMoveClosedLoop MotPap.moveToPosCmd
  split
  · have hthere : AxisOk rate { me with posCmd := setpoint, alreadyThere := true } := h.congr rfl rfl rfl rfl rfl rfl
    exact ⟨hthere.tmrStop, by simp⟩
  · split
    · refine ⟨hpos.tmrStop, ?_⟩
      intro k hk
      simp only [Option.some.injEq] at hk
      subst hk
      exact ⟨rfl, by simp⟩
    · rename_i hdir
      exact ⟨axisOk_move hpos .closedLoop _ motPapMaxFreq (by decide) (by decide) (by decide)
        (hpos.dirOut_of_running hdir), by simp⟩

/-- The loop body of a command task: it ends, or it waits with the timer stopped. -/
theorem AxisOk.axisTask {rate : UInt32} {me : MotPap} (h : AxisOk rate me) (msg : MotPapMsg) (raw : UInt16) :
    AxisOk rate (axisTask me msg raw).1 ∧
      ∀ k, (Rtu.axisTask me msg raw).2 = some k →
        (Rtu.axisTask me msg raw).1.tmr.started = false ∧
          ∀ dir v, k = .freeRun dir v → motPapFreeRunSpeedOk v = true := by
  have hread : AxisOk rate
      (motPapReadCorrectedPos { me with stalled := false, stalledCounter := 0, alreadyThere := false } raw) :=
    h.congr rfl rfl rfl rfl rfl rfl
  unfold Rtu.axisTask
  split
  · exact hread.moveFreeRun _ _
  · exact hread.moveClosedLoop _
  · exact ⟨hread.toStop, by simp⟩

/-- A message handled to its end keeps the invariant. -/
theorem AxisOk.axisTaskComplete {rate : UInt32} {me : MotPap} (h : AxisOk rate me) (msg : MotPapMsg) (raw : UInt16) :
    AxisOk rate (axisTaskComplete me msg raw) := by
  obtain ⟨hok, hwait⟩ := h.axisTask msg raw
  unfold Rtu.axisTaskComplete
  split
  · rename_i me' heq
    rw [heq] at hok
    exact hok
  · rename_i me' k heq
    rw [heq] at hok hwait
    obtain ⟨hstop, hk⟩ := hwait k rfl
    exact hok.resume k hstop hk

/-- The stall check keeps the invariant: its one effect on a motor is to stop it. -/
theorem AxisOk.stallCheck {rate : UInt32} {me : MotPap} (h : AxisOk rate me) (stallDetection : Bool) :
    AxisOk rate (motPapStallCheck me stallDetection).1 := by
  unfold motPapStallCheck
  split
  · split
    · split
      · apply AxisOk.tmrStop
        exact h.congr rfl rfl rfl rfl rfl rfl
      · exact h.congr rfl rfl rfl rfl rfl rfl
    · exact h.congr rfl rfl rfl rfl rfl rfl
  · exact h

/-- The proximity branch of a closed loop keeps the invariant, and the type. -/
theorem AxisOk.slowDown {rate : UInt32} {me : MotPap} (h : AxisOk rate me) (hne : me.type ≠ .stop) :
    AxisOk rate me.slowDown ∧ me.slowDown.type = me.type := by
  unfold MotPap.slowDown
  split
  · exact ⟨axisOk_restart (motPapMaxFreq / 4) h.clock hne (h.output hne) h.calls (by decide) (by decide), rfl⟩
  · exact ⟨h, rfl⟩

/-- The supervision past the stall check: it ends, or it waits with the timer stopped and a type that is not STOP. -/
theorem AxisOk.follow {rate : UInt32} {me : MotPap} (h : AxisOk rate me) :
    AxisOk rate (motPapFollow me).1 ∧
      ∀ dir, (motPapFollow me).2 = some dir → (motPapFollow me).1.tmr.started = false ∧ (motPapFollow me).1.type ≠ .stop := by
  unfold motPapFollow
  split
  · rename_i htype
    obtain ⟨hslow, hslowtype⟩ := h.slowDown (by rw [htype]; decide)
    split
    · refine ⟨?_, by simp⟩
      have hthere : AxisOk rate { me.slowDown with alreadyThere := true } := hslow.congr rfl rfl rfl rfl rfl rfl
      exact hthere.toStop.cont
    · split
      · refine ⟨hslow.tmrStop, ?_⟩
        intro dir _
        exact ⟨rfl, by simp [MotPap.tmrStop, hslowtype, htype]⟩
      · exact ⟨hslow.cont, by simp⟩
  · exact ⟨h.cont, by simp⟩

/-- A supervision run to its end keeps the invariant. -/
theorem AxisOk.superviseComplete {rate : UInt32} {me : MotPap} (h : AxisOk rate me) (raw : UInt16) (stallDetection : Bool) :
    AxisOk rate (motPapSuperviseComplete me raw stallDetection) := by
  have hchecked := (h.readCorrectedPos raw).stallCheck stallDetection
  have hsup : AxisOk rate (motPapSupervise me raw stallDetection).1 ∧
      ∀ dir, (motPapSupervise me raw stallDetection).2 = some dir →
        (motPapSupervise me raw stallDetection).1.tmr.started = false ∧
          (motPapSupervise me raw stallDetection).1.type ≠ .stop := by
    unfold motPapSupervise
    dsimp only
    split
    · exact ⟨hchecked.cont, by simp⟩
    · exact hchecked.follow
  unfold motPapSuperviseComplete
  obtain ⟨hok, hwait⟩ := hsup
  split
  · rename_i me' heq
    rw [heq] at hok
    exact hok
  · rename_i me' dir heq
    rw [heq] at hok hwait
    obtain ⟨hstop, hne⟩ := hwait dir rfl
    have hturn : AxisOk rate ({ me' with dir := dir }.direction) := by
      refine ⟨hok.clock, hok.running, fun _ => rfl, fun _ => ?_, ?_⟩
      · obtain ⟨hge, hle, hmr⟩ := hok.freq hne
        exact ⟨hge, hle, hmr⟩
      · refine List.forall_mem_cons.mpr ⟨?_, hok.calls⟩
        intro hrun
        rw [hstop] at hrun
        cases hrun
    exact (hturn.tmrStart hne).cont

/-- The interrupt touches the counters and the pulse output only. -/
theorem AxisOk.isr {rate : UInt32} {me : MotPap} (h : AxisOk rate me) : AxisOk rate (motPapIsr me).1 := by
  obtain ⟨lastDir, halfPulses, hisr⟩ := isr_eq me
  rw [hisr]
  refine ⟨h.clock, h.running, h.output, ?_, ?_⟩
  · intro hne
    obtain ⟨hge, hle, hmr⟩ := h.freq hne
    exact ⟨hge, hle, hmr⟩
  · exact List.forall_mem_cons.mpr ⟨trivial, h.calls⟩

/-- The stall check leaves the motion as it is, but for the timer, which it stops if it trips. -/
theorem stallCheck_frame (me : MotPap) (stallDetection : Bool) :
    (motPapStallCheck me stallDetection).1.type = me.type ∧ (motPapStallCheck me stallDetection).1.dir = me.dir ∧
      (motPapStallCheck me stallDetection).1.dirOut = me.dirOut ∧
      (motPapStallCheck me stallDetection).1.tmr.started =
        (me.tmr.started && !(motPapStallCheck me stallDetection).2) := by
  unfold motPapStallCheck
  split
  · split
    · split
      · simp [MotPap.tmrStop, Tmr.stop]
      · simp
    · simp
  · simp

/-- A supervision of a motor that is not in closed loop ends without a delay and leaves the motion as it is, but for the
timer, which it stops if it trips. -/
theorem supervise_of_ne_closedLoop {me : MotPap} (h : me.type ≠ .closedLoop) (raw : UInt16) (stallDetection : Bool) :
    (motPapSupervise me raw stallDetection).2 = none ∧
      (motPapSupervise me raw stallDetection).1.type = me.type ∧
      (motPapSupervise me raw stallDetection).1.dir = me.dir ∧
      (motPapSupervise me raw stallDetection).1.dirOut = me.dirOut ∧
      (motPapSupervise me raw stallDetection).1.tmr.started =
        (me.tmr.started && !motPapStallTrips me raw stallDetection) := by
  obtain ⟨htype, hdir, hout, hrun⟩ := stallCheck_frame (motPapReadCorrectedPos me raw) stallDetection
  have hne : (motPapStallCheck (motPapReadCorrectedPos me raw) stallDetection).1.type ≠ .closedLoop := by
    rw [htype]
    exact h
  unfold motPapSupervise motPapStallTrips
  dsimp only
  split
  · exact ⟨rfl, htype, hdir, hout, hrun⟩
  · unfold motPapFollow
    rw [if_neg hne]
    exact ⟨rfl, htype, hdir, hout, hrun⟩

/-- Every complete operation keeps the invariant. -/
theorem AxisOk.apply {rate : UInt32} {me : MotPap} (h : AxisOk rate me) (op : AxisOp) : AxisOk rate (op.apply me) := by
  cases op with
  | message msg raw => exact h.axisTaskComplete msg raw
  | supervise raw stallDetection => exact h.superviseComplete raw stallDetection
  | isr => exact h.isr
  | status raw => exact h.readCorrectedPos raw
  | setOffset offset => exact h.congr rfl rfl rfl rfl rfl rfl

/-- The invariant holds of an axis as its `init` function leaves it. -/
theorem axisOk_init (ax : Axis) (rate : UInt32) : AxisOk rate (ax.init rate) := by
  obtain ⟨offset, h⟩ := ax.init_eq rate
  rw [h]
  exact ⟨rfl, by simp [axisInit], by simp [axisInit], by simp [axisInit], by simp [axisInit]⟩

end Rtu

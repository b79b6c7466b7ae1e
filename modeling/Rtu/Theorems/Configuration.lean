import Rtu.Axis
import Rtu.Lemmas.Rdc

/-!
# The cached configuration of a converter and its chip

A setter should be atomic: either the cache holds what was asked for and the chip agrees with the cache, or nothing has changed. The two
setters of a frequency assign the cache before they know whether the chip takes the word of both frequencies, and the setter of the
resolution halves an odd one without a word. `rdc_configuration_iff` says exactly for which calls the law holds.
-/

namespace Rtu

open Runs

/-- The resolution and hysteresis bits of the control register are those of the cache. -/
structure Rdc.ControlInStep (me : Rdc) : Prop where
  resolution :
    ad2s1210ResolutionValue.getD (me.chip.regs ad2s1210RegControl &&& ad2s1210ResolutionMask).toNat 0 = me.me.resolution
  hysteresis : decide (me.chip.regs ad2s1210RegControl &&& ad2s1210Hysteresis ≠ 0) = me.me.hysteresis

/-- The EXCIT register holds the word of the cached frequencies, and the chip takes it. -/
structure Rdc.ExcitInStep (me : Rdc) : Prop where
  word : (me.chip.regs ad2s1210RegExcitFreq).toNat = excitWord me.me.fexcit me.me.fclkin
  ok : WordOk me.me.fexcit me.me.fclkin

/-- The chip is configured as the cache says. -/
structure Rdc.InStep (me : Rdc) : Prop where
  control : me.ControlInStep
  excit : me.ExcitInStep

/-- The cache holds what a setter was asked for. -/
def RdcSetter.Cached (st : Ad2s1210) : RdcSetter → Prop
  | .resolution res => st.resolution = res
  | .fclkin hz => st.fclkin = hz
  | .fexcit hz => st.fexcit = hz

/-- A setter that succeeds caches what it was asked for and leaves the chip in step; one that fails leaves the cache and the registers. -/
def Rdc.Atomic (me : Rdc) (s : RdcSetter) : Prop :=
  (0 ≤ (me.set s).1 → s.Cached (me.set s).2.me ∧ (me.set s).2.InStep) ∧
    ((me.set s).1 < 0 → (me.set s).2.me = me.me ∧ (me.set s).2.chip.regs = me.chip.regs)

/-- A setter is asked for a value out of range; or for one that the chip takes, where the registers it does not write are in step; or for
the frequency that is cached already, where the chip does not take the word. -/
def Rdc.Fits (me : Rdc) : RdcSetter → Prop
  | .resolution res => ResolutionOut res ∨ (res ∈ ad2s1210ResolutionValue ∧ me.ExcitInStep)
  | .fclkin hz =>
    FclkinOut hz ∨ (WordOk me.me.fexcit hz ∧ me.ControlInStep) ∨
      (me.me.fclkin = hz ∧ ¬FcwOk (frequencyControlWord me.me.fexcit hz))
  | .fexcit hz =>
    FexcitOut hz ∨ (WordOk hz me.me.fclkin ∧ me.ControlInStep) ∨
      (me.me.fexcit = hz ∧ ¬FcwOk (frequencyControlWord hz me.me.fclkin))

/-- A setter is asked for a value out of range, or for a resolution of the table, or for a frequency whose word with the other one, as it is
cached, is not too large. -/
def Rdc.Sound (me : Rdc) : RdcSetter → Prop
  | .resolution res => ResolutionOut res ∨ res ∈ ad2s1210ResolutionValue
  | .fclkin hz => FclkinOut hz ∨ excitWord me.me.fexcit hz ≤ 0x50
  | .fexcit hz => FexcitOut hz ∨ excitWord hz me.me.fclkin ≤ 0x50

instance (me : Rdc) : (s : RdcSetter) → Decidable (me.Sound s)
  | .resolution _ | .fclkin _ | .fexcit _ => inferInstanceAs (Decidable (_ ∨ _))

/-- A property of the setters among the calls. -/
def RdcCall.OfSetter (P : RdcSetter → Prop) : RdcCall → Prop
  | .init _ => True
  | .set s => P s

/-- What a successful `ad2s1210_init` leaves: the chip in step, and both frequencies in range. -/
structure Rdc.Configured (me : Rdc) : Prop where
  inStep : me.InStep
  fclkin : ¬FclkinOut me.me.fclkin
  fexcit : ¬FexcitOut me.me.fexcit

namespace ConfigurationAux

/-! ## Staying in step -/

theorem ControlInStep.congr {me me' : Rdc} (h : me.ControlInStep)
    (hregs : me'.chip.regs ad2s1210RegControl = me.chip.regs ad2s1210RegControl)
    (hresolution : me'.me.resolution = me.me.resolution) (hhysteresis : me'.me.hysteresis = me.me.hysteresis) :
    me'.ControlInStep := by
  refine ⟨?_, ?_⟩
  · rw [hregs, hresolution]
    exact h.resolution
  · rw [hregs, hhysteresis]
    exact h.hysteresis

theorem ExcitInStep.congr {me me' : Rdc} (h : me.ExcitInStep)
    (hregs : me'.chip.regs ad2s1210RegExcitFreq = me.chip.regs ad2s1210RegExcitFreq)
    (hfexcit : me'.me.fexcit = me.me.fexcit) (hfclkin : me'.me.fclkin = me.me.fclkin) : me'.ExcitInStep := by
  refine ⟨?_, ?_⟩
  · rw [hregs, hfexcit, hfclkin]
    exact h.word
  · rw [hfexcit, hfclkin]
    exact h.ok

/-- A control register that has been written is in step. -/
theorem controlInStep_setControl (me : Rdc) (data : UInt8) : (ad2s1210SetControl me data).2.ControlInStep := by
  have hresolution : ad2s1210DataMask &&& ad2s1210ResolutionMask = ad2s1210ResolutionMask := by decide
  have hhysteresis : ad2s1210DataMask &&& ad2s1210Hysteresis = ad2s1210Hysteresis := by decide
  rw [setControl_eq]
  refine ⟨?_, ?_⟩
  · simp only [Function.update_self, data_and hresolution]
  · simp only [Function.update_self, data_and hhysteresis]

/-- What a write of the control register leaves alone. -/
theorem setControl_frame (me : Rdc) (data : UInt8) :
    (ad2s1210SetControl me data).2.chip.regs ad2s1210RegExcitFreq = me.chip.regs ad2s1210RegExcitFreq ∧
      (ad2s1210SetControl me data).2.me.fexcit = me.me.fexcit ∧ (ad2s1210SetControl me data).2.me.fclkin = me.me.fclkin := by
  have hother : ad2s1210RegExcitFreq ≠ ad2s1210RegControl := by decide
  rw [setControl_eq]
  exact ⟨Function.update_of_ne hother (data &&& ad2s1210DataMask) me.chip.regs, rfl, rfl⟩

/-- A write of the control register does not fail. -/
theorem setControl_nonneg (me : Rdc) (data : UInt8) : 0 ≤ (ad2s1210SetControl me data).1 := by
  rw [setControl_eq]
  exact Int.natCast_nonneg _

/-- A change of the frequencies leaves the cache as the assignment has left it. -/
theorem reconfigure_me (me : Rdc) : me.reconfigure.2.me = me.me := by
  rw [reconfigure_eq]
  split <;> rfl

/-- A change of the frequencies leaves the control register. -/
theorem reconfigure_control (me : Rdc) : me.reconfigure.2.chip.regs ad2s1210RegControl = me.chip.regs ad2s1210RegControl := by
  have hother : ad2s1210RegControl ≠ ad2s1210RegExcitFreq := by decide
  rw [reconfigure_eq]
  split
  · exact Function.update_of_ne hother (frequencyControlWord me.me.fexcit me.me.fclkin) me.chip.regs
  · rfl

/-- A change of the frequencies fails, and then leaves the chip, exactly where the chip does not take their word. -/
theorem reconfigure_neg (me : Rdc) :
    (me.reconfigure.1 < 0 ↔ ¬FcwOk (frequencyControlWord me.me.fexcit me.me.fclkin)) ∧
      (me.reconfigure.1 < 0 → me.reconfigure.2.chip = me.chip) := by
  have hminus : (-1 : Int) < 0 := by decide
  rw [reconfigure_eq]
  split
  · rename_i hok
    exact ⟨iff_of_false (Int.lt_irrefl 0) (not_not_intro hok), fun hneg => absurd hneg (Int.lt_irrefl 0)⟩
  · rename_i hok
    exact ⟨iff_of_true hminus hok, fun _ => rfl⟩

/-- Where it succeeds the EXCIT register holds the word. -/
theorem reconfigure_word {me : Rdc} (h : 0 ≤ me.reconfigure.1) :
    me.reconfigure.2.chip.regs ad2s1210RegExcitFreq = frequencyControlWord me.me.fexcit me.me.fclkin := by
  have hok : FcwOk (frequencyControlWord me.me.fexcit me.me.fclkin) := by
    refine Decidable.not_not.mp ?_
    rw [← (reconfigure_neg me).1]
    exact Int.not_lt.mpr h
  rw [reconfigure_eq, if_pos hok]
  exact Function.update_self ad2s1210RegExcitFreq _ me.chip.regs

/-! ## One setter -/

/-- A request that is out of range changes nothing. -/
theorem atomic_of_out {me : Rdc} {s : RdcSetter} (h : me.set s = (-1, me)) : me.Atomic s := by
  have hminus : ¬(0 : Int) ≤ -1 := by decide
  show (_ → _) ∧ (_ → _)
  rw [h]
  exact ⟨fun hpos => absurd hpos hminus, fun _ => ⟨rfl, rfl⟩⟩

/-- What the setters of the frequencies share. The cache is `st` past the assignment. -/
theorem atomic_iff_of_reconfigure {me : Rdc} {s : RdcSetter} {st : Ad2s1210}
    (hset : me.set s = Rdc.reconfigure { me with me := st }) (hcached : s.Cached st)
    (hresolution : st.resolution = me.me.resolution) (hhysteresis : st.hysteresis = me.me.hysteresis)
    (hrange : ¬FclkinOut st.fclkin ∨ ¬FexcitOut st.fexcit) :
    me.Atomic s ↔
      (WordOk st.fexcit st.fclkin ∧ me.ControlInStep) ∨ (st = me.me ∧ ¬FcwOk (frequencyControlWord st.fexcit st.fclkin)) := by
  have hme : (Rdc.reconfigure { me with me := st }).2.me = st := reconfigure_me _
  have hcontrol := reconfigure_control { me with me := st }
  obtain ⟨hfails, hchip⟩ := reconfigure_neg { me with me := st }
  show ((_ → _) ∧ (_ → _)) ↔ _
  rw [hset, hme]
  by_cases hneg : (Rdc.reconfigure { me with me := st }).1 < 0
  · have hnot : ¬FcwOk (frequencyControlWord st.fexcit st.fclkin) := hfails.mp hneg
    have hword : ¬WordOk st.fexcit st.fclkin := by
      intro hword
      refine hnot ?_
      rw [fcwOk_iff, word_of_wordOk hrange hword]
      exact hword
    constructor
    · rintro ⟨-, hsame⟩
      exact Or.inr ⟨(hsame hneg).1, hnot⟩
    · rintro (⟨hok, -⟩ | ⟨hsame, -⟩)
      · exact absurd hok hword
      · exact ⟨fun hpos => absurd hneg (Int.not_lt.mpr hpos), fun _ => ⟨hsame, by rw [hchip hneg]⟩⟩
  · have hpos : 0 ≤ (Rdc.reconfigure { me with me := st }).1 := Int.not_lt.mp hneg
    constructor
    · rintro ⟨hstep, -⟩
      obtain ⟨-, hin, hexcit⟩ := hstep hpos
      have hok := hexcit.ok
      rw [hme] at hok
      exact Or.inl ⟨hok, ControlInStep.congr hin hcontrol.symm (by rw [hme, hresolution]) (by rw [hme, hhysteresis])⟩
    · rintro (⟨hok, hin⟩ | ⟨-, hnot⟩)
      · refine ⟨fun _ => ⟨hcached, ?_, ?_, ?_⟩, fun h => absurd h hneg⟩
        · exact ControlInStep.congr hin hcontrol (by rw [hme, hresolution]) (by rw [hme, hhysteresis])
        · rw [reconfigure_word hpos, hme]
          exact word_of_wordOk hrange hok
        · rw [hme]
          exact hok
      · exact absurd (hfails.mpr hnot) hneg

/-- A resolution in range: the control register is read, and written with other resolution bits. -/
theorem setResolution_eq {me : Rdc} {res : UInt8} (h : ¬ResolutionOut res) :
    ad2s1210SetResolution me res =
      ad2s1210SetControl { me with chip := { me.chip with addressed := ad2s1210RegFault } }
        ((me.chip.regs ad2s1210RegControl &&& ~~~ad2s1210ResolutionMask) ||| ((res - 10) >>> 1)) := by
  have haddress : isAddress ad2s1210RegControl = true := by decide
  have hmsb : ad2s1210RegControl ||| ad2s1210AddressMask = ad2s1210RegControl := by decide
  simp only [ad2s1210SetResolution, if_neg h, ad2s1210GetControl, configRead_eq me haddress hmsb]

theorem atomic_resolution_iff {me : Rdc} {res : UInt8} (h : ¬ResolutionOut res) :
    me.Atomic (.resolution res) ↔ res ∈ ad2s1210ResolutionValue ∧ me.ExcitInStep := by
  have hset : me.set (.resolution res) = _ := setResolution_eq h
  have hcached : (me.set (.resolution res)).2.me.resolution = ad2s1210ResolutionValue.getD ((res - 10) >>> 1).toNat 0 := by
    rw [hset, setControl_eq]
    exact congrArg (fun bits : UInt8 => ad2s1210ResolutionValue.getD bits.toNat 0) (control_and_resolutionMask h _)
  have hpos : 0 ≤ (me.set (.resolution res)).1 := by
    rw [hset]
    exact setControl_nonneg _ _
  have hcontrol : (me.set (.resolution res)).2.ControlInStep := by
    rw [hset]
    exact controlInStep_setControl _ _
  obtain ⟨hregs, hfexcit, hfclkin⟩ : (me.set (.resolution res)).2.chip.regs ad2s1210RegExcitFreq =
      me.chip.regs ad2s1210RegExcitFreq ∧ (me.set (.resolution res)).2.me.fexcit = me.me.fexcit ∧
        (me.set (.resolution res)).2.me.fclkin = me.me.fclkin := by
    rw [hset]
    exact setControl_frame _ _
  constructor
  · rintro ⟨hstep, -⟩
    obtain ⟨hres, -, hexcit⟩ := hstep hpos
    refine ⟨(resolution_table h).2.mp (hcached.symm.trans hres), ?_⟩
    exact ExcitInStep.congr hexcit hregs.symm hfexcit.symm hfclkin.symm
  · rintro ⟨hmem, hexcit⟩
    refine ⟨fun _ => ⟨hcached.trans ((resolution_table h).2.mpr hmem), hcontrol, ?_⟩, fun hneg => absurd hpos (Int.not_le.mpr hneg)⟩
    exact ExcitInStep.congr hexcit hregs hfexcit hfclkin

/-- A setter keeps the law exactly where it fits. -/
theorem atomic_iff_fits (me : Rdc) (s : RdcSetter) : me.Atomic s ↔ me.Fits s := by
  cases s with
  | resolution res =>
    by_cases hout : ResolutionOut res
    · exact iff_of_true (atomic_of_out (if_pos hout)) (Or.inl hout)
    · exact (atomic_resolution_iff hout).trans (or_iff_right hout).symm
  | fclkin hz =>
    by_cases hout : FclkinOut hz
    · exact iff_of_true (atomic_of_out (if_pos hout)) (Or.inl hout)
    · have hset : me.set (.fclkin hz) = Rdc.reconfigure { me with me := { me.me with fclkin := hz } } := if_neg hout
      have hsame : { me.me with fclkin := hz } = me.me ↔ me.me.fclkin = hz :=
        ⟨fun h => (congrArg Ad2s1210.fclkin h).symm, fun h => by rw [← h]⟩
      refine (atomic_iff_of_reconfigure hset rfl rfl rfl (Or.inl hout)).trans ?_
      rw [hsame]
      exact (or_iff_right hout).symm
  | fexcit hz =>
    by_cases hout : FexcitOut hz
    · exact iff_of_true (atomic_of_out (if_pos hout)) (Or.inl hout)
    · have hset : me.set (.fexcit hz) = Rdc.reconfigure { me with me := { me.me with fexcit := hz } } := if_neg hout
      have hsame : { me.me with fexcit := hz } = me.me ↔ me.me.fexcit = hz :=
        ⟨fun h => (congrArg Ad2s1210.fexcit h).symm, fun h => by rw [← h]⟩
      refine (atomic_iff_of_reconfigure hset rfl rfl rfl (Or.inr hout)).trans ?_
      rw [hsame]
      exact (or_iff_right hout).symm

/-! ## After a successful init -/

/-- `ad2s1210_init` past its checks: the control register is written and the frequencies are changed, and then a threshold is written. -/
theorem init_eq (me : Rdc) (hresolution : ¬ResolutionOut me.me.resolution) (hclock : ¬FclkinOut me.me.fclkin)
    (hexcit : ¬FexcitOut me.me.fexcit) :
    ∃ data, data = (ad2s1210DefControl &&& ~~~ad2s1210ResolutionMask) ||| ((me.me.resolution - 10) >>> 1) ∧
      ad2s1210Init me =
        if (ad2s1210SetControl me data).2.reconfigure.1 < 0 then (ad2s1210SetControl me data).2.reconfigure
        else
          ((ad2s1210SetControl me data).2.reconfigure.1,
            (ad2s1210SetReg (ad2s1210SetControl me data).2.reconfigure.2 ad2s1210RegLosThrd 50).2) := by
  refine ⟨_, rfl, ?_⟩
  unfold ad2s1210Init
  generalize (ad2s1210DefControl &&& ~~~ad2s1210ResolutionMask) ||| ((me.me.resolution - 10) >>> 1) = data
  have hset := Int.not_lt.mpr (setControl_nonneg me data)
  simp only [if_neg hresolution, if_neg hclock, if_neg hexcit, if_neg hset]
  unfold Rdc.reconfigure
  by_cases hneg : (ad2s1210UpdateFrequencyControlWord (ad2s1210SetControl me data).2).1 < 0
  · simp only [if_pos hneg]
  · have hreset : ¬(ad2s1210SoftReset (ad2s1210UpdateFrequencyControlWord (ad2s1210SetControl me data).2).2).1 < 0 := Int.lt_irrefl 0
    simp only [if_neg hneg, if_neg hreset]

/-- A successful `ad2s1210_init` has passed its checks. -/
theorem init_succeeds {me : Rdc} (h : 0 ≤ (ad2s1210Init me).1) :
    ¬FclkinOut me.me.fclkin ∧ ¬FexcitOut me.me.fexcit ∧
      ∃ data, 0 ≤ (ad2s1210SetControl me data).2.reconfigure.1 ∧
        (ad2s1210Init me).2 = (ad2s1210SetReg (ad2s1210SetControl me data).2.reconfigure.2 ad2s1210RegLosThrd 50).2 := by
  have hminus : ¬(0 : Int) ≤ -1 := by decide
  by_cases hresolution : ResolutionOut me.me.resolution
  · rw [ad2s1210Init, if_pos hresolution] at h
    exact absurd h hminus
  by_cases hclock : FclkinOut me.me.fclkin
  · rw [ad2s1210Init, if_neg hresolution, if_pos hclock] at h
    exact absurd h hminus
  by_cases hexcit : FexcitOut me.me.fexcit
  · rw [ad2s1210Init, if_neg hresolution, if_neg hclock, if_pos hexcit] at h
    exact absurd h hminus
  obtain ⟨data, -, hinit⟩ := init_eq me hresolution hclock hexcit
  refine ⟨hclock, hexcit, data, ?_⟩
  by_cases hneg : (ad2s1210SetControl me data).2.reconfigure.1 < 0
  · rw [hinit, if_pos hneg] at h
    exact absurd hneg (Int.not_lt.mpr h)
  · rw [hinit, if_neg hneg]
    exact ⟨Int.not_lt.mp hneg, rfl⟩

/-- A change of the frequencies that succeeds, after a write of the control register, leaves the chip in step. -/
theorem inStep_reconfigure {me : Rdc} (hcontrol : me.ControlInStep) (hclock : ¬FclkinOut me.me.fclkin)
    (hexcit : ¬FexcitOut me.me.fexcit) (hpos : 0 ≤ me.reconfigure.1) : me.reconfigure.2.InStep := by
  have hme := reconfigure_me me
  have hok : FcwOk (frequencyControlWord me.me.fexcit me.me.fclkin) :=
    Decidable.not_not.mp fun hnot => absurd ((reconfigure_neg me).1.mpr hnot) (Int.not_lt.mpr hpos)
  obtain ⟨hword, -⟩ := word_of_ranges hclock hexcit
  rw [fcwOk_iff, hword] at hok
  refine ⟨ControlInStep.congr hcontrol (reconfigure_control me) (by rw [hme]) (by rw [hme]), ?_, ?_⟩
  · rw [reconfigure_word hpos, hme]
    exact hword
  · rw [hme]
    exact hok

/-- A successful `ad2s1210_init` leaves the converter configured. -/
theorem configured_init {me : Rdc} (h : 0 ≤ (ad2s1210Init me).1) : (ad2s1210Init me).2.Configured := by
  obtain ⟨hclock, hexcit, data, hpos, hinit⟩ := init_succeeds h
  have haddress : isAddress ad2s1210RegLosThrd = true := by decide
  have hmsb : ad2s1210RegLosThrd ||| ad2s1210AddressMask = ad2s1210RegLosThrd := by decide
  have hcontrol : ad2s1210RegControl ≠ ad2s1210RegLosThrd := by decide
  have hfreq : ad2s1210RegExcitFreq ≠ ad2s1210RegLosThrd := by decide
  obtain ⟨-, hfexcit, hfclkin⟩ := setControl_frame me data
  have hstep : (ad2s1210SetControl me data).2.reconfigure.2.InStep :=
    inStep_reconfigure (controlInStep_setControl me data) (by rwa [hfclkin]) (by rwa [hfexcit]) hpos
  obtain ⟨hme, hcontrolKept⟩ := setReg_frame (ad2s1210SetControl me data).2.reconfigure.2 haddress hmsb hcontrol 50
  obtain ⟨-, hfreqKept⟩ := setReg_frame (ad2s1210SetControl me data).2.reconfigure.2 haddress hmsb hfreq 50
  rw [← hinit] at hme hcontrolKept hfreqKept
  refine ⟨⟨?_, ?_⟩, ?_, ?_⟩
  · exact ControlInStep.congr hstep.control hcontrolKept (by rw [hme]) (by rw [hme])
  · exact ExcitInStep.congr hstep.excit hfreqKept (by rw [hme]) (by rw [hme])
  · rw [hme, reconfigure_me, hfclkin]
    exact hclock
  · rw [hme, reconfigure_me, hfexcit]
    exact hexcit

/-- On a configured converter a setter fits exactly where it is sound. -/
theorem fits_iff_sound {me : Rdc} (h : me.Configured) (s : RdcSetter) : me.Fits s ↔ me.Sound s := by
  have hcached : FcwOk (frequencyControlWord me.me.fexcit me.me.fclkin) := by
    rw [fcwOk_iff, (word_of_ranges h.fclkin h.fexcit).1]
    exact h.inStep.excit.ok
  cases s with
  | resolution res => exact or_congr_right (and_iff_left h.inStep.excit)
  | fclkin hz =>
    refine or_congr_right' fun hout => ?_
    constructor
    · rintro (⟨hok, -⟩ | ⟨rfl, hnot⟩)
      · exact hok.2
      · exact absurd hcached hnot
    · intro hle
      exact Or.inl ⟨⟨(word_of_ranges hout h.fexcit).2, hle⟩, h.inStep.control⟩
  | fexcit hz =>
    refine or_congr_right' fun hout => ?_
    constructor
    · rintro (⟨hok, -⟩ | ⟨rfl, hnot⟩)
      · exact hok.2
      · exact absurd hcached hnot
    · intro hle
      exact Or.inl ⟨⟨(word_of_ranges h.fclkin hout).2, hle⟩, h.inStep.control⟩

/-- A setter leaves the cached frequencies in range. -/
theorem ranges_set {me : Rdc} (hclock : ¬FclkinOut me.me.fclkin) (hexcit : ¬FexcitOut me.me.fexcit) (s : RdcSetter) :
    ¬FclkinOut (me.set s).2.me.fclkin ∧ ¬FexcitOut (me.set s).2.me.fexcit := by
  cases s with
  | resolution res =>
    show ¬FclkinOut (ad2s1210SetResolution me res).2.me.fclkin ∧ ¬FexcitOut (ad2s1210SetResolution me res).2.me.fexcit
    by_cases hout : ResolutionOut res
    · rw [ad2s1210SetResolution, if_pos hout]
      exact ⟨hclock, hexcit⟩
    · obtain ⟨-, hfexcit, hfclkin⟩ := setControl_frame { me with chip := { me.chip with addressed := ad2s1210RegFault } }
        ((me.chip.regs ad2s1210RegControl &&& ~~~ad2s1210ResolutionMask) ||| ((res - 10) >>> 1))
      rw [setResolution_eq hout, hfexcit, hfclkin]
      exact ⟨hclock, hexcit⟩
  | fclkin hz =>
    show ¬FclkinOut (ad2s1210SetFclkin me hz).2.me.fclkin ∧ ¬FexcitOut (ad2s1210SetFclkin me hz).2.me.fexcit
    by_cases hout : FclkinOut hz
    · rw [ad2s1210SetFclkin, if_pos hout]
      exact ⟨hclock, hexcit⟩
    · rw [ad2s1210SetFclkin, if_neg hout, reconfigure_me]
      exact ⟨hout, hexcit⟩
  | fexcit hz =>
    show ¬FclkinOut (ad2s1210SetFexcit me hz).2.me.fclkin ∧ ¬FexcitOut (ad2s1210SetFexcit me hz).2.me.fexcit
    by_cases hout : FexcitOut hz
    · rw [ad2s1210SetFexcit, if_pos hout]
      exact ⟨hclock, hexcit⟩
    · rw [ad2s1210SetFexcit, if_neg hout, reconfigure_me]
      exact ⟨hclock, hout⟩

/-- A setter that keeps the law leaves the converter configured. -/
theorem configured_set {me : Rdc} {s : RdcSetter} (h : me.Configured) (hatomic : me.Atomic s) : (me.set s).2.Configured := by
  obtain ⟨hclock, hexcit⟩ := ranges_set h.fclkin h.fexcit s
  refine ⟨?_, hclock, hexcit⟩
  by_cases hneg : (me.set s).1 < 0
  · obtain ⟨hme, hregs⟩ := hatomic.2 hneg
    refine ⟨?_, ?_⟩
    · exact ControlInStep.congr h.inStep.control (by rw [hregs]) (by rw [hme]) (by rw [hme])
    · exact ExcitInStep.congr h.inStep.excit (by rw [hregs]) (by rw [hme]) (by rw [hme])
  · exact (hatomic.1 (Int.not_lt.mp hneg)).2

end ConfigurationAux

open ConfigurationAux

/-- The converter of either axis as `arm_init` and `pole_init` leave it: whatever the chip held, and whatever was in the flag that they do
not assign, `ad2s1210_init` succeeds and leaves the configuration that the readings of the axes use. -/
theorem axisRdc_of_init (chip : Registers.Chip UInt8) (hysteresis : Bool) :
    (ad2s1210Init { me := { axisRdc with hysteresis }, chip }).1 = 0 ∧
      (ad2s1210Init { me := { axisRdc with hysteresis }, chip }).2.me = axisRdc := by
  have hlos : isAddress ad2s1210RegLosThrd = true := by decide
  have hmsb : ad2s1210RegLosThrd ||| ad2s1210AddressMask = ad2s1210RegLosThrd := by decide
  have hresolution : ¬ResolutionOut axisRdc.resolution := by decide
  have hclock : ¬FclkinOut axisRdc.fclkin := by decide
  have hexcit : ¬FexcitOut axisRdc.fexcit := by decide
  have hok : FcwOk (frequencyControlWord axisRdc.fexcit axisRdc.fclkin) := by decide
  have hbits : (ad2s1210DefControl &&& ~~~ad2s1210ResolutionMask) ||| ((axisRdc.resolution - 10) >>> 1) = 0x7F := by decide
  have hcache :
      { axisRdc with
          resolution := ad2s1210ResolutionValue.getD (0x7F &&& ad2s1210ResolutionMask).toNat 0
          hysteresis := 0x7F &&& ad2s1210Hysteresis ≠ 0 } = axisRdc := by decide
  obtain ⟨data, hdata, hinit⟩ := init_eq { me := { axisRdc with hysteresis }, chip } hresolution hclock hexcit
  obtain rfl : data = 0x7F := hdata.trans hbits
  rw [hinit, setControl_eq, reconfigure_eq, if_pos hok, if_neg (Int.lt_irrefl 0), setReg_eq _ hlos hmsb]
  exact ⟨rfl, hcache⟩

/-- The law of the setters. For every converter (so after any calls) and every sequence of calls with any arguments: every setter keeps the
law if and only if every setter fits. And after a successful `ad2s1210_init`, whatever setters are called: every one of them keeps the law
if and only if every one is sound, a condition on its argument and the cached frequencies alone. -/
theorem rdc_configuration_iff (me : Rdc) (calls : List RdcCall) :
    (Steps Rdc.step (fun me call => call.OfSetter me.Atomic) me calls ↔
        Steps Rdc.step (fun me call => call.OfSetter me.Fits) me calls) ∧
      ∀ setters, 0 ≤ (ad2s1210Init me).1 →
        (Steps (fun me s => (me.set s).2) Rdc.Atomic (ad2s1210Init me).2 setters ↔
          Steps (fun me s => (me.set s).2) Rdc.Sound (ad2s1210Init me).2 setters) := by
  constructor
  · refine steps_congr (fun _ => True) (fun _ _ h _ => h) (fun me call _ => ?_) trivial calls
    cases call with
    | init _ => exact Iff.rfl
    | set s => exact atomic_iff_fits me s
  · intro setters hinit
    exact steps_congr Rdc.Configured (fun _ _ => configured_set)
      (fun me s h => (atomic_iff_fits me s).trans (fits_iff_sound h s)) (configured_init hinit) setters

/-- A converter as `arm_init` has assigned its structure, on a chip whose registers are all clear. -/
def freshRdc : Rdc := { me := axisRdc, chip := { regs := fun _ => 0, addressed := 0 } }

/-- The converter of an axis, set to 12 bits and an excitation of 10 kHz. -/
theorem rdc_configuration_iff_fresh :
    Steps (fun me s => (me.set s).2) Rdc.Atomic (ad2s1210Init freshRdc).2 [.resolution 12, .fexcit 10000] :=
  ((rdc_configuration_iff freshRdc []).2 _ (by decide)).mpr (by decide)

/-- The excitation is set to 20 kHz, and then the clock to 6144000 Hz: the word would be 106, the setter answers -1, and the cache has the
new clock. -/
theorem rdc_configuration_false :
    ¬∀ (me : Rdc) (calls : List RdcCall), Steps Rdc.step (fun me call => call.OfSetter me.Atomic) me calls := by
  intro h
  have hlast : Rdc.Atomic _ _ := h freshRdc [.init axisRdc, .set (.fexcit 20000), .set (.fclkin 6144000)]
    [.init axisRdc, .set (.fexcit 20000)] (.set (.fclkin 6144000)) (List.prefix_refl _)
  have hclock := congrArg Ad2s1210.fclkin (hlast.2 (by decide)).1
  revert hclock
  decide

end Rtu

import Mathlib.Algebra.Group.Int.Defs
import Mathlib.Algebra.GroupWithZero.Nat
import Rtu.Axis

/-!
# The corrected position as an angle

The reading is taken in three stages: reversed, right-justified, and moved by the offset with one correction of `2^res` if the
difference is negative. `corrected_position_iff` says for which readings and offsets they compose to the angle modulo the
resolution: the reversal is made before the justification, with a mask that is not justified, so it is right at 16 bits only;
and one correction is enough for an offset of at most one turn beyond the reading.
-/

namespace Rtu

/-- The angle of the shaft in counts, for the register pair `raw`: the top bits of the pair, counted backwards if the converter
is mounted the other way round. -/
def Ad2s1210.angle (me : Ad2s1210) (raw : UInt16) : Nat :=
  if me.reversed then 2 ^ me.resolution.toNat - 1 - raw.toNat >>> (16 - me.resolution.toNat)
  else raw.toNat >>> (16 - me.resolution.toNat)

/-- The position stored is an angle below the resolution, congruent to that of the shaft less the offset. -/
def MotPap.AngleOk (me : MotPap) (raw : UInt16) : Prop :=
  (motPapReadCorrectedPos me raw).posAct.toNat < 2 ^ me.rdc.resolution.toNat ∧
    ((motPapReadCorrectedPos me raw).posAct.toNat : Int) % 2 ^ me.rdc.resolution.toNat =
      ((me.rdc.angle raw : Int) - me.offset.toNat) % 2 ^ me.rdc.resolution.toNat

/-- The converter counts forwards and the offset is at most one turn beyond the reading, or the resolution is 16 bits. -/
def MotPap.InTurn (me : MotPap) (raw : UInt16) : Prop :=
  me.rdc.resolution = 16 ∨
    me.rdc.reversed = false ∧ me.offset.toNat ≤ me.rdc.angle raw + 2 ^ me.rdc.resolution.toNat

namespace CorrectedPositionAux

/-! ## The offset -/

/-- Conversion to 16 bits reduces modulo the word. -/
theorem toNat_ofInt (i : Int) : ((UInt16.ofInt i).toNat : Int) = i % 65536 := by
  unfold UInt16.ofInt
  rw [UInt16.toNat_ofNat']
  omega

/-- The stored difference, as an integer. -/
theorem offsetCorrection_toNat (pos offset : UInt16) (res : UInt8) :
    ((motPapOffsetCorrection pos offset res).toNat : Int) =
      (if (pos.toNat : Int) - offset.toNat < 0 then (pos.toNat : Int) - offset.toNat + (2 ^ res.toNat : Nat)
        else (pos.toNat : Int) - offset.toNat) % 65536 := by
  unfold motPapOffsetCorrection
  dsimp only
  rw [toNat_ofInt, Nat.one_shiftLeft]

/-- A resolution of up to 16 bits divides the word. -/
theorem two_pow_dvd_word (res : UInt8) (h : res.toNat ≤ 16) : ((2 ^ res.toNat : Nat) : Int) ∣ 65536 := by
  have hdvd : 2 ^ res.toNat ∣ 2 ^ 16 := Nat.pow_dvd_pow 2 h
  exact Int.natCast_dvd_natCast.mpr hdvd

/-- The stored difference is right modulo the resolution, for every offset. -/
theorem offsetCorrection_mod (pos offset : UInt16) (res : UInt8) (h : res.toNat ≤ 16) :
    ((motPapOffsetCorrection pos offset res).toNat : Int) % (2 ^ res.toNat : Nat) =
      ((pos.toNat : Int) - offset.toNat) % (2 ^ res.toNat : Nat) := by
  rw [offsetCorrection_toNat, Int.emod_emod_of_dvd _ (two_pow_dvd_word res h)]
  split
  · exact Int.add_emod_right _ _
  · rfl

/-- The stored difference is below the resolution exactly when the offset is at most one turn beyond the reading. -/
theorem offsetCorrection_lt_iff (pos offset : UInt16) (res : UInt8) (h : res.toNat ≤ 16) (hpos : pos.toNat < 2 ^ res.toNat) :
    (motPapOffsetCorrection pos offset res).toNat < 2 ^ res.toNat ↔ offset.toNat ≤ pos.toNat + 2 ^ res.toNat := by
  have hval := offsetCorrection_toNat pos offset res
  have hoff := offset.toNat_lt
  have hword : 2 ^ res.toNat ≤ 65536 := Nat.pow_le_pow_right (by decide) h
  generalize hturn : 2 ^ res.toNat = turn at hval hpos hword ⊢
  generalize (motPapOffsetCorrection pos offset res).toNat = stored at hval ⊢
  split at hval <;> omega

/-! ## The reversal -/

/-- A mask below a power of two changes no bit from there on. -/
theorem xor_shiftRight_of_lt (r mask n : Nat) (h : mask < 2 ^ n) : (r ^^^ mask) >>> n = r >>> n := by
  rw [Nat.shiftRight_xor_distrib, Nat.shiftRight_eq_zero mask n h, Nat.xor_zero]

/-- The register pair, justified, is below the resolution. -/
theorem justified_lt (raw : UInt16) (res : Nat) (h : res ≤ 16) : raw.toNat >>> (16 - res) < 2 ^ res := by
  rw [Nat.shiftRight_eq_div_pow]
  apply Nat.div_lt_of_lt_mul
  rw [← Nat.pow_add, show 16 - res + res = 16 by omega]
  exact raw.toNat_lt

/-- The angle is below the resolution. -/
theorem angle_lt (me : Ad2s1210) (raw : UInt16) (h : me.resolution.toNat ≤ 16) : me.angle raw < 2 ^ me.resolution.toNat := by
  have hpos : 0 < 2 ^ me.resolution.toNat := Nat.two_pow_pos _
  unfold Ad2s1210.angle
  split
  · exact Nat.lt_of_le_of_lt (Nat.sub_le _ _) (Nat.sub_lt hpos Nat.one_pos)
  · exact justified_lt raw _ h

/-- A converter that counts forwards reads the angle. -/
theorem readPosition_forwards (me : Ad2s1210) (hhyst : me.hysteresis = true) (hrev : me.reversed = false) (raw : UInt16)
    (h : me.resolution.toNat ≤ 16) : (me.readPosition raw).toNat = me.angle raw := by
  have hlt := justified_lt raw me.resolution.toNat h
  have hword : 2 ^ me.resolution.toNat ≤ 65536 := Nat.pow_le_pow_right (by decide) h
  unfold Ad2s1210.readPosition Ad2s1210.angle
  simp only [hhyst, hrev, if_true, Bool.false_eq_true, if_false, UInt16.toNat_ofNat']
  exact Nat.mod_eq_of_lt (by omega)

/-- At 16 bits a converter that counts backwards reads the angle. -/
theorem readPosition_sixteen (me : Ad2s1210) (hhyst : me.hysteresis = true) (hrev : me.reversed = true) (raw : UInt16)
    (h : me.resolution = 16) : (me.readPosition raw).toNat = me.angle raw := by
  have hnot : (raw ^^^ 0xFFFF).toNat = 65535 - raw.toNat := by
    rw [show (0xFFFF : UInt16) = -1 from rfl, UInt16.xor_neg_one, UInt16.toNat_not]
    rfl
  have hraw := raw.toNat_lt
  unfold Ad2s1210.readPosition Ad2s1210.angle
  simp only [hhyst, hrev, h, if_true, show (16 : UInt8).toNat = 16 from rfl, Nat.sub_self, Nat.shiftRight_zero,
    UInt16.toNat_ofNat', show UInt16.ofNat 0xFFFF = (0xFFFF : UInt16) from rfl, hnot]
  omega

/-- Below 16 bits the reversal leaves the top bit of the reading, which the angle has the other way. -/
theorem readPosition_backwards_ne (me : Ad2s1210) (hhyst : me.hysteresis = true) (hrev : me.reversed = true) (raw : UInt16)
    (hlo : 0 < me.resolution.toNat) (hhi : me.resolution.toNat < 16) :
    (me.readPosition raw).toNat < 2 ^ me.resolution.toNat ∧ (me.readPosition raw).toNat ≠ me.angle raw := by
  generalize hres : me.resolution.toNat = res at hlo hhi ⊢
  have hlt := justified_lt raw res (by omega)
  have hmask : (0xFFFF : Nat) >>> (16 - res) >>> (16 - res) < 2 ^ (res - 1) := by
    have hall : ∀ n < 16, 0 < n → (0xFFFF : Nat) >>> (16 - n) >>> (16 - n) < 2 ^ (n - 1) := by decide
    exact hall res hhi hlo
  have hword : 2 ^ res ≤ 65536 := Nat.pow_le_pow_right (by decide) (Nat.le_of_lt hhi)
  have hsplit : 2 ^ res = 2 * 2 ^ (res - 1) := by
    rw [← Nat.pow_succ']
    congr 1
    omega
  have hhalf : 0 < 2 ^ (res - 1) := Nat.two_pow_pos _
  have hmasklt : (0xFFFF : Nat) >>> (16 - res) >>> (16 - res) < 2 ^ res := by
    apply Nat.lt_trans hmask
    omega
  -- The reading, as natural numbers: the justified pair under the justified mask.
  have hread : (me.readPosition raw).toNat =
      raw.toNat >>> (16 - res) ^^^ (0xFFFF : Nat) >>> (16 - res) >>> (16 - res) := by
    have hsmall : raw.toNat >>> (16 - res) ^^^ (0xFFFF : Nat) >>> (16 - res) >>> (16 - res) < 2 ^ res :=
      Nat.xor_lt_two_pow hlt hmasklt
    have hpair : (0xFFFF : Nat) >>> (16 - res) < 65536 := Nat.lt_of_le_of_lt (Nat.shiftRight_le _ _) (by decide)
    unfold Ad2s1210.readPosition
    simp only [hhyst, hrev, hres, if_true, UInt16.toNat_ofNat', UInt16.toNat_xor]
    rw [Nat.mod_eq_of_lt hpair, Nat.shiftRight_xor_distrib]
    exact Nat.mod_eq_of_lt (Nat.lt_of_lt_of_le hsmall hword)
  have htop : (me.readPosition raw).toNat >>> (res - 1) = (raw.toNat >>> (16 - res)) >>> (res - 1) := by
    rw [hread]
    exact xor_shiftRight_of_lt _ _ _ hmask
  have hangle : me.angle raw = 2 ^ res - 1 - raw.toNat >>> (16 - res) := by
    unfold Ad2s1210.angle
    rw [if_pos hrev, hres]
  constructor
  · rw [hread]
    exact Nat.xor_lt_two_pow hlt hmasklt
  · intro heq
    rw [heq, hangle, Nat.shiftRight_eq_div_pow, Nat.shiftRight_eq_div_pow _ (res - 1)] at htop
    generalize raw.toNat >>> (16 - res) = pair at hlt htop
    generalize 2 ^ (res - 1) = half at hsplit htop hhalf
    by_cases hlow : pair < half
    · rw [Nat.div_eq_of_lt hlow] at htop
      rcases Nat.div_eq_zero_iff.mp htop with hz | hz <;> omega
    · have hpos : 0 < pair / half := Nat.div_pos (by omega) hhalf
      rw [← htop, Nat.div_eq_of_lt (by omega)] at hpos
      omega

/-- Two numbers below the resolution that agree modulo it, less the same offset, are the same. -/
theorem eq_of_sub_emod_eq {a b n : Nat} {offset : Int} (ha : a < n) (hb : b < n)
    (h : ((a : Int) - offset) % n = ((b : Int) - offset) % n) : a = b := by
  have hmod : (a : Int) % n = (b : Int) % n := by
    have hadd := congrArg (fun x => (x + offset) % (n : Int)) h
    simpa only [Int.emod_add_emod, Int.sub_add_cancel] using hadd
  rw [Int.emod_eq_of_lt (by omega) (by omega), Int.emod_eq_of_lt (by omega) (by omega)] at hmod
  omega

end CorrectedPositionAux

open CorrectedPositionAux

/-- The corrected position is the shaft angle modulo the resolution, exactly when the reversal is made at 16 bits and one
correction is enough. For every register pair, every resolution of the chip, every offset, and the converter mounted either way,
with hysteresis on: the position stored is below `2^res` and congruent to the angle of the shaft less the offset if and only if
the resolution is 16 bits, or the converter counts forwards and the offset is at most the angle and one turn. -/
theorem corrected_position_iff (me : MotPap) (raw : UInt16) (hhyst : me.rdc.hysteresis = true)
    (hres : me.rdc.resolution ∈ ad2s1210ResolutionValue) : me.AngleOk raw ↔ me.InTurn raw := by
  have hbound : 0 < me.rdc.resolution.toNat ∧ me.rdc.resolution.toNat ≤ 16 := by
    have hcases : me.rdc.resolution = 10 ∨ me.rdc.resolution = 12 ∨ me.rdc.resolution = 14 ∨ me.rdc.resolution = 16 := by
      simpa [ad2s1210ResolutionValue] using hres
    rcases hcases with hr | hr | hr | hr <;> rw [hr] <;> exact ⟨by decide, by decide⟩
  obtain ⟨hlo, hhi⟩ := hbound
  have hlt := angle_lt me.rdc raw hhi
  have hoff := me.offset.toNat_lt
  have hmod := offsetCorrection_mod (me.rdc.readPosition raw) me.offset me.rdc.resolution hhi
  have hok : me.AngleOk raw ↔
      (motPapOffsetCorrection (me.rdc.readPosition raw) me.offset me.rdc.resolution).toNat < 2 ^ me.rdc.resolution.toNat ∧
        ((me.rdc.readPosition raw).toNat - (me.offset.toNat : Int)) % (2 ^ me.rdc.resolution.toNat : Nat) =
          ((me.rdc.angle raw : Int) - me.offset.toNat) % (2 ^ me.rdc.resolution.toNat : Nat) := by
    rw [← hmod]
    simp [MotPap.AngleOk, motPapReadCorrectedPos]
  -- Where the converter reads the angle, only the offset can be wrong.
  have hright : (me.rdc.readPosition raw).toNat = me.rdc.angle raw →
      (me.AngleOk raw ↔ me.offset.toNat ≤ me.rdc.angle raw + 2 ^ me.rdc.resolution.toNat) := by
    intro hread
    have hiff := offsetCorrection_lt_iff (me.rdc.readPosition raw) me.offset me.rdc.resolution hhi (hread ▸ hlt)
    rw [hok, hiff, hread]
    exact ⟨fun h => h.1, fun h => ⟨h, rfl⟩⟩
  cases hrev : me.rdc.reversed with
  | false =>
    rw [hright (readPosition_forwards me.rdc hhyst hrev raw hhi)]
    constructor
    · exact fun h => Or.inr ⟨hrev, h⟩
    · rintro (h16 | ⟨-, h⟩)
      · rw [h16, show (16 : UInt8).toNat = 16 from rfl]
        omega
      · exact h
  | true =>
    by_cases h16 : me.rdc.resolution = 16
    · rw [hright (readPosition_sixteen me.rdc hhyst hrev raw h16)]
      refine ⟨fun _ => Or.inl h16, fun _ => ?_⟩
      rw [h16, show (16 : UInt8).toNat = 16 from rfl]
      omega
    · have hlt16 : me.rdc.resolution.toNat < 16 := by
        have hne : me.rdc.resolution.toNat ≠ 16 := fun h => h16 (UInt8.toNat_inj.mp h)
        omega
      obtain ⟨hread, hne⟩ := readPosition_backwards_ne me.rdc hhyst hrev raw hlo hlt16
      constructor
      · intro h
        exact absurd (eq_of_sub_emod_eq hread hlt (hok.mp h).2) hne
      · rintro (h | ⟨h, -⟩)
        · exact absurd h h16
        · rw [hrev] at h
          cases h

/-- At 12 bits, counting forwards, an offset of a turn beyond the reading is corrected once. -/
theorem corrected_position_iff_twelve :
    ({ axisInit 5000 204000000 with rdc := { axisRdc with resolution := 12, reversed := false } } : MotPap).AngleOk 0xFFFF ↔
      ({ axisInit 5000 204000000 with rdc := { axisRdc with resolution := 12, reversed := false } } : MotPap).InTurn 0xFFFF :=
  corrected_position_iff _ _ rfl (by decide)

/-- At 10 bits, the register pair 0 counted backwards is the angle 1023; the position stored is 15. -/
theorem corrected_position_false :
    ¬∀ (me : MotPap) (raw : UInt16), me.rdc.hysteresis = true → me.rdc.resolution ∈ ad2s1210ResolutionValue →
      me.AngleOk raw := by
  intro h
  have hok := h { axisInit 0 204000000 with rdc := { axisRdc with resolution := 10 } } 0 rfl (by decide)
  exact absurd hok.2 (by decide)

end Rtu

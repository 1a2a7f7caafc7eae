import Mathlib.Tactic.ByContra
import XcfFlatten.Blend.Alpha
import XcfFlatten.Layer

/-!
# The arithmetic of alphas

Alphas are bytes, their products are rounded to the nearest byte, and mixing rounds down. All the
same, nothing is lost at the two ends: a source of alpha 0 leaves what is below exactly as it is,
and a source of alpha 255 leaves exactly itself.

* `effectiveAlpha_mono` and `effectiveAlpha_full_iff` — opacity and mask, multiplied into an alpha;
* `le_overAlpha` and `below_le_overAlpha` — a composite has at least the alpha of its source, and of
  what is below;
* `overPixel_clear` and `overPixel_solid` — the two ends;
* `overPixel_between` — in between, each channel stays between those of the source and the pixel.
-/

namespace XcfFlatten

/-! ### Products of fractions -/

@[simp] theorem mul255_zero_left (b : Nat) : mul255 0 b = 0 := by
  simp [mul255]

@[simp] theorem mul255_zero_right (a : Nat) : mul255 a 0 = 0 := by
  simp [mul255]

/-- Full opacity changes no alpha. -/
theorem mul255_full (a : UInt8) : mul255 a.toNat 255 = a.toNat := by
  have ha := a.toNat_lt
  unfold mul255
  dsimp only
  omega

/-- Products of fractions of 255 are such fractions. -/
theorem mul255_le {a b : Nat} (ha : a ≤ 255) (hb : b ≤ 255) : mul255 a b ≤ 255 := by
  have hab : a * b ≤ 255 * 255 := Nat.mul_le_mul ha hb
  unfold mul255
  dsimp only
  omega

/-- A larger fraction of something is not less of it. -/
theorem mul255_mono {a b : Nat} (h : a ≤ b) (c : Nat) : mul255 a c ≤ mul255 b c := by
  have hc : a * c ≤ b * c := Nat.mul_le_mul_right c h
  unfold mul255
  dsimp only
  omega

/-- A product of two fractions is whole only if both are. -/
theorem mul255_eq_full {a b : Nat} (ha : a ≤ 255) (hb : b ≤ 255) :
    mul255 a b = 255 ↔ a = 255 ∧ b = 255 := by
  constructor
  · intro h
    -- Rounding makes up for less than one step of either factor.
    have hab : 254 * 255 < a * b := by
      unfold mul255 at h
      dsimp only at h
      omega
    refine ⟨?_, ?_⟩
    · by_contra hne
      exact absurd hab (Nat.not_lt.mpr (Nat.mul_le_mul (by omega) hb))
    · by_contra hne
      have hba : a * b ≤ 255 * 254 := Nat.mul_le_mul ha (by omega)
      omega
  · rintro ⟨rfl, rfl⟩
    rfl

/-- Rounding to the nearest does not fall below a whole number. -/
theorem le_mul255 {a b n : Nat} (hn : n ≤ 255) (h : 255 * n ≤ a * b) : n ≤ mul255 a b := by
  unfold mul255
  dsimp only
  omega

/-! ### Effective alphas -/

theorem effectiveAlpha_le (opacity : UInt8) (mask : Option UInt8) (alpha : UInt8) :
    effectiveAlpha opacity mask alpha ≤ 255 := by
  have hproduct : mul255 alpha.toNat opacity.toNat ≤ 255 :=
    mul255_le (Nat.le_of_lt_succ alpha.toNat_lt) (Nat.le_of_lt_succ opacity.toNat_lt)
  cases mask with
  | none => exact hproduct
  | some m => exact mul255_le hproduct (Nat.le_of_lt_succ m.toNat_lt)

theorem toNat_effectiveAlpha (opacity : UInt8) (mask : Option UInt8) (alpha : UInt8) :
    (UInt8.ofNat (effectiveAlpha opacity mask alpha)).toNat = effectiveAlpha opacity mask alpha :=
  UInt8.toNat_ofNat_of_lt' (Nat.lt_succ_of_le (effectiveAlpha_le opacity mask alpha))

/-- Of a pixel with less alpha, no more remains. -/
theorem effectiveAlpha_mono (opacity : UInt8) (mask : Option UInt8) {alpha more : UInt8}
    (h : alpha ≤ more) :
    effectiveAlpha opacity mask alpha ≤ effectiveAlpha opacity mask more := by
  have hproduct : mul255 alpha.toNat opacity.toNat ≤ mul255 more.toNat opacity.toNat :=
    mul255_mono (UInt8.le_iff_toNat_le.mp h) _
  cases mask with
  | none => exact hproduct
  | some m => exact mul255_mono hproduct _

/-- Of a transparent pixel nothing is left. -/
theorem effectiveAlpha_clear (opacity : UInt8) (mask : Option UInt8) :
    effectiveAlpha opacity mask 0 = 0 := by
  unfold effectiveAlpha
  rw [show (0 : UInt8).toNat = 0 from rfl, mul255_zero_left]
  cases mask with
  | none => rfl
  | some m => exact mul255_zero_left _

/-- At opacity 0 there is no alpha left. -/
theorem effectiveAlpha_hidden (mask : Option UInt8) (alpha : UInt8) :
    effectiveAlpha 0 mask alpha = 0 := by
  unfold effectiveAlpha
  rw [show (0 : UInt8).toNat = 0 from rfl, mul255_zero_right]
  cases mask with
  | none => rfl
  | some m => exact mul255_zero_left _

/-- What is clipped to the alpha below has no more alpha than before. -/
theorem clipped_le (clips : Bool) (alpha below : UInt8) :
    (if clips then min alpha below else alpha) ≤ alpha := by
  split
  · exact Std.min_le_left
  · exact UInt8.le_refl _

/-- At full opacity, a pixel is opaque if it is stored so and nothing of it is masked. -/
theorem effectiveAlpha_full_iff (mask : Option UInt8) (alpha : UInt8) :
    effectiveAlpha 255 mask alpha = 255 ↔ alpha = 255 ∧ ∀ m, mask = some m → m = 255 := by
  have hfull : mul255 alpha.toNat (255 : UInt8).toNat = alpha.toNat := mul255_full alpha
  have hbyte : ∀ b : UInt8, b.toNat = 255 ↔ b = 255 := fun b => UInt8.toNat_inj (b := 255)
  unfold effectiveAlpha
  dsimp only
  rw [hfull]
  cases mask with
  | none => simp [hbyte]
  | some m =>
    dsimp only
    -- A product of two fractions is whole only if both are.
    rw [mul255_eq_full (Nat.le_of_lt_succ alpha.toNat_lt) (Nat.le_of_lt_succ m.toNat_lt), hbyte,
      hbyte]
    simp

/-! ### Alpha of a composite -/

/-- What a source adds never exceeds the room that is left, so the sum is a byte. -/
theorem toNat_overAlpha (alpha below : UInt8) :
    (overAlpha alpha below).toNat = below.toNat + mul255 (255 - below.toNat) alpha.toNat := by
  have halpha := alpha.toNat_lt
  have hbelow := below.toNat_lt
  -- What is added is a part of what is missing to 255.
  have hroom : mul255 (255 - below.toNat) alpha.toNat ≤ 255 - below.toNat := by
    have hprod : (255 - below.toNat) * alpha.toNat ≤ (255 - below.toNat) * 255 :=
      Nat.mul_le_mul_left _ (by omega)
    unfold mul255
    dsimp only
    omega
  have hlt : below.toNat + mul255 (255 - below.toNat) alpha.toNat < 256 := by omega
  exact UInt8.toNat_ofNat_of_lt' hlt

/-- **Nothing is taken away.** A composite has at least the alpha that was below. -/
theorem below_le_overAlpha (alpha below : UInt8) : below ≤ overAlpha alpha below := by
  rw [UInt8.le_iff_toNat_le, toNat_overAlpha]
  exact Nat.le_add_right _ _

/-- **The source fits in.** A composite has at least the alpha of its source. -/
theorem le_overAlpha (alpha below : UInt8) : alpha ≤ overAlpha alpha below := by
  have halpha := alpha.toNat_lt
  have hbelow := below.toNat_lt
  -- What the source adds to the alpha below is at least what it has more than that.
  have hadded : alpha.toNat - below.toNat ≤ mul255 (255 - below.toNat) alpha.toNat := by
    apply le_mul255 (by omega)
    calc 255 * (alpha.toNat - below.toNat)
        = 255 * alpha.toNat - 255 * below.toNat := Nat.mul_sub _ _ _
      _ ≤ 255 * alpha.toNat - below.toNat * alpha.toNat := by
        have hprod : below.toNat * alpha.toNat ≤ below.toNat * 255 :=
          Nat.mul_le_mul_left _ (by omega)
        omega
      _ = (255 - below.toNat) * alpha.toNat := (Nat.sub_mul _ _ _).symm
  rw [UInt8.le_iff_toNat_le, toNat_overAlpha]
  omega

/-- Over an opaque backdrop everything is opaque. -/
@[simp] theorem overAlpha_solid (alpha : UInt8) : overAlpha alpha 255 = 255 := by
  rw [overAlpha, show 255 - (255 : UInt8).toNat = 0 from rfl, mul255_zero_left]
  rfl

/-- Nothing adds nothing. -/
@[simp] theorem overAlpha_clear (below : UInt8) : overAlpha 0 below = below := by
  rw [overAlpha, show (0 : UInt8).toNat = 0 from rfl, mul255_zero_right, Nat.add_zero,
    UInt8.ofNat_toNat]

/-- An opaque source is opaque over everything: there is no room left above it. -/
@[simp] theorem solid_overAlpha (below : UInt8) : overAlpha 255 below = 255 :=
  UInt8.le_antisymm (UInt8.le_iff_toNat_le.mpr (Nat.le_of_lt_succ (UInt8.toNat_lt _)))
    (le_overAlpha 255 below)

/-! ### Mixing -/

/-- What has no alpha has no weight, unless there is nothing to weigh it against. -/
theorem mix_clear (source below : UInt8) {total : UInt8} (h : total ≠ 0) :
    mix source below 0 total = below := by
  have htotal : 0 < total.toNat := Nat.pos_of_ne_zero fun hzero => h (UInt8.toNat_inj.mp hzero)
  rw [mix, if_neg h, show (0 : UInt8).toNat = 0 from rfl, Nat.zero_mul, Nat.zero_add, Nat.sub_zero,
    Nat.mul_div_cancel_left _ htotal, UInt8.ofNat_toNat]

/-- What has all the alpha has all the weight. -/
theorem mix_all (source below alpha : UInt8) : mix source below alpha alpha = source := by
  unfold mix
  split
  · rfl
  · next h =>
    have halpha : 0 < alpha.toNat := Nat.pos_of_ne_zero fun hzero => h (UInt8.toNat_inj.mp hzero)
    rw [Nat.sub_self, Nat.zero_mul, Nat.add_zero, Nat.mul_div_cancel_left _ halpha,
      UInt8.ofNat_toNat]

/-- A weighted mean, rounded down, is not beyond any bound of what it is the mean of. -/
theorem mean_mem_bounds {alpha total source below low high : Nat} (halpha : alpha ≤ total)
    (htotal : 0 < total) (hlow : low ≤ source ∧ low ≤ below)
    (hhigh : source ≤ high ∧ below ≤ high) :
    low ≤ (alpha * source + (total - alpha) * below) / total ∧
      (alpha * source + (total - alpha) * below) / total ≤ high := by
  -- A number is the mean of itself and itself.
  have hsplit : ∀ n, total * n = alpha * n + (total - alpha) * n := by
    intro n
    rw [← Nat.add_mul, Nat.add_sub_cancel' halpha]
  constructor
  · rw [Nat.le_div_iff_mul_le htotal, Nat.mul_comm, hsplit]
    exact Nat.add_le_add (Nat.mul_le_mul_left _ hlow.1) (Nat.mul_le_mul_left _ hlow.2)
  · refine Nat.div_le_of_le_mul ?_
    rw [hsplit]
    exact Nat.add_le_add (Nat.mul_le_mul_left _ hhigh.1) (Nat.mul_le_mul_left _ hhigh.2)

/-- A value lies between two others, whichever of them is the smaller. -/
def Between (a b v : UInt8) : Prop := a ≤ v ∧ v ≤ b ∨ b ≤ v ∧ v ≤ a

theorem between_left (a b : UInt8) : Between a b a := by
  rcases UInt8.le_total a b with h | h
  · exact Or.inl ⟨UInt8.le_refl a, h⟩
  · exact Or.inr ⟨h, UInt8.le_refl a⟩

theorem between_right (a b : UInt8) : Between a b b := by
  rcases UInt8.le_total a b with h | h
  · exact Or.inl ⟨h, UInt8.le_refl b⟩
  · exact Or.inr ⟨UInt8.le_refl b, h⟩

/-- **Mixing stays in range.** A source that fits into the result is mixed into a level between the
two. -/
theorem mix_between (source below : UInt8) {alpha total : UInt8} (h : alpha ≤ total) :
    Between source below (mix source below alpha total) := by
  by_cases hzero : total = 0
  · rw [mix, if_pos hzero]
    exact between_left source below
  have htotal : 0 < total.toNat := Nat.pos_of_ne_zero fun h0 => hzero (UInt8.toNat_inj.mp h0)
  have halpha : alpha.toNat ≤ total.toNat := UInt8.le_iff_toNat_le.mp h
  have hsource : source.toNat ≤ 255 := Nat.le_of_lt_succ source.toNat_lt
  have hbelow : below.toNat ≤ 255 := Nat.le_of_lt_succ below.toNat_lt
  -- The mean is a byte, so nothing is cut off it.
  have hmix : (mix source below alpha total).toNat =
      (alpha.toNat * source.toNat + (total.toNat - alpha.toNat) * below.toNat) / total.toNat := by
    rw [mix, if_neg hzero]
    refine UInt8.toNat_ofNat_of_lt' (Nat.lt_succ_of_le ?_)
    exact (mean_mem_bounds halpha htotal ⟨Nat.zero_le _, Nat.zero_le _⟩ ⟨hsource, hbelow⟩).2
  unfold Between
  simp only [UInt8.le_iff_toNat_le, hmix]
  rcases Nat.le_total source.toNat below.toNat with hle | hle
  · exact Or.inl (mean_mem_bounds halpha htotal ⟨Nat.le_refl _, hle⟩ ⟨hle, Nat.le_refl _⟩)
  · exact Or.inr (mean_mem_bounds halpha htotal ⟨hle, Nat.le_refl _⟩ ⟨Nat.le_refl _, hle⟩)

/-- The channels of a colour. -/
def Rgb.channels : List (Rgb → UInt8) := [red, green, blue]

/-- So does each channel of a colour that is laid over a pixel. -/
theorem overPixel_between (source : Rgb) (alpha : UInt8) (below : Pixel) (affectsAlpha : Bool)
    {channel : Rgb → UInt8} (h : channel ∈ Rgb.channels) :
    Between (channel source) (channel below.color)
      (channel (overPixel source alpha below affectsAlpha).color) := by
  have hmix : ∀ s d, Between s d (mix s d alpha (overAlpha alpha below.alpha)) :=
    fun s d => mix_between s d (le_overAlpha alpha below.alpha)
  -- Each of the three channels is mixed in the same way.
  rcases List.mem_cons.mp h with rfl | h
  · exact hmix source.red below.color.red
  rcases List.mem_cons.mp h with rfl | h
  · exact hmix source.green below.color.green
  rw [List.mem_singleton.mp h]
  exact hmix source.blue below.color.blue

/-- **A clear source** leaves a pixel that can be seen exactly as it is. -/
theorem overPixel_clear (source : Rgb) {below : Pixel} (h : below.alpha ≠ 0) (affectsAlpha : Bool) :
    overPixel source 0 below affectsAlpha = below := by
  unfold overPixel
  simp only [overAlpha_clear, mix_clear _ _ h, ite_self]
  rfl

/-- **An opaque source** leaves nothing of the pixel below. -/
theorem overPixel_solid (source : Rgb) (below : Pixel) :
    overPixel source 255 below true = source.solid := by
  unfold overPixel
  simp only [solid_overAlpha, mix_all, if_true]
  rfl

/-! ### Thinning out -/

namespace Dissolve

/-- No pixel gains alpha. -/
theorem keep_le (alpha random : UInt8) : keep alpha random ≤ alpha := by
  unfold keep
  split
  · exact UInt8.le_iff_toNat_le.mpr (Nat.zero_le _)
  · exact UInt8.le_refl alpha

/-- Opaque pixels are always kept. -/
@[simp] theorem keep_full (random : UInt8) : keep 255 random = 255 := by
  have hle : random ≤ 255 := UInt8.le_iff_toNat_le.mpr (Nat.le_of_lt_succ random.toNat_lt)
  exact if_neg (UInt8.not_lt.mpr hle)

end Dissolve

end XcfFlatten

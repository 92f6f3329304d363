import Shamichan.Pix.Uploading

/-!
# Shamichan — the size of a thumbnail

Two pieces of code size a thumbnail. `get_thumb_specs` in `pix.js` divides the source's width
and height by `r = max(w / bw, h / bh, 1)` and rounds with `Math.round`. `thumbnail()` in the C
thumbnailer refuses a source past a set maximum, keeps a source that already fits its box, and
otherwise divides both sides by the scale of the longer one, truncating to `unsigned long`.
Both are written here in exact rational arithmetic, with the code's rounding.

* `getThumbSpecs_le`: `get_thumb_specs` keeps within its box;
* `thumbnail_le_of_square`: so does `thumbnail()` when its box is square;
* `thumbnail_wide_box`: on a box wider than high, a square source just past the box gets a
  thumbnail as high as the box is wide;
* `thumb_sizes_zero_height`: for every box, a source one pixel high and about twice as wide as
  the box gets a thumbnail of height 0 from both.
-/

namespace Shamichan.Pix

/-- The thumbnail settings of `config.js` that `get_thumb_specs` reads. -/
structure ThumbConfig where
  /-- `config.THUMB_DIMENSIONS` -/
  thumbDimensions : Nat × Nat
  /-- `config.PINKY_DIMENSIONS` -/
  pinkyDimensions : Nat × Nat
  /-- `config.THUMB_QUALITY` -/
  thumbQuality : Nat
  /-- `config.PINKY_QUALITY` -/
  pinkyQuality : Nat

/-- `config[pinky ? 'PINKY_DIMENSIONS' : 'THUMB_DIMENSIONS']`. -/
def ThumbConfig.bound (cfg : ThumbConfig) (pinky : Bool) : Nat × Nat :=
  if pinky then cfg.pinkyDimensions else cfg.thumbDimensions

/-- What `get_thumb_specs` returns: the thumbnail's width and height, and the JPEG quality. -/
structure ThumbSpecs where
  dims : Int × Int
  quality : Nat
  deriving DecidableEq, Repr

/-- `get_thumb_specs(w, h, pinky)` in exact arithmetic: `r = Math.max(w / bound[0],
h / bound[1], 1)` and the sides `Math.round(w / r)`, `Math.round(h / r)` (`round` takes a half
up, as `Math.round` does). -/
def getThumbSpecs (cfg : ThumbConfig) (w h : Nat) (pinky : Bool) : ThumbSpecs :=
  let quality := if pinky then cfg.pinkyQuality else cfg.thumbQuality
  let bound := cfg.bound pinky
  let r : ℚ := max (max ((w : ℚ) / bound.1) ((h : ℚ) / bound.2)) 1
  ⟨(round ((w : ℚ) / r), round ((h : ℚ) / r)), quality⟩

/-- The fields of the thumbnailer's `struct Options` that `thumbnail()` reads for the size. -/
structure Options where
  width : Nat
  height : Nat
  maxSrcWidth : Nat
  maxSrcHeight : Nat

/-- `thumbnail()`'s sizing, for a source of `columns × rows` that `BlobToImage` read, `pdf` when
its `magick` is `"PDF"`: the code 2 or 3 for a source past a set maximum, else the thumbnail's
`width` and `height`, each truncated to `unsigned long`. -/
def thumbnail (opts : Options) (pdf : Bool) (columns rows : Nat) : Except Nat (Nat × Nat) :=
  if pdf = false ∧ opts.maxSrcWidth ≠ 0 ∧ columns > opts.maxSrcWidth then .error 2
  else if pdf = false ∧ opts.maxSrcHeight ≠ 0 ∧ rows > opts.maxSrcHeight then .error 3
  else if columns ≤ opts.width ∧ rows ≤ opts.height then .ok (columns, rows)
  else
    let scale : ℚ :=
      if columns ≥ rows then (columns : ℚ) / opts.width else (rows : ℚ) / opts.height
    .ok (⌊(columns : ℚ) / scale⌋₊, ⌊(rows : ℚ) / scale⌋₊)

/-- The source passes `thumbnail()`'s checks of the set maximum dimensions. -/
def Options.Admits (opts : Options) (pdf : Bool) (columns rows : Nat) : Prop :=
  pdf = true ∨
    (opts.maxSrcWidth = 0 ∨ columns ≤ opts.maxSrcWidth) ∧
      (opts.maxSrcHeight = 0 ∨ rows ≤ opts.maxSrcHeight)

/-! ## `get_thumb_specs` -/

/-- `Math.round` of a number at most `n` is at most `n`. -/
theorem round_le_of_le {x : ℚ} {n : ℕ} (h : x ≤ n) : round x ≤ n := by
  have : (round x : ℚ) < n + 1 := by linarith [round_le_add_half x]
  exact Int.lt_add_one_iff.1 (by exact_mod_cast this)

/-- **`get_thumb_specs` keeps within its box**: `r` is at least `w / bw` and `h / bh`, so each
side divided by it is at most the box's, and so is its rounding. -/
theorem getThumbSpecs_le (cfg : ThumbConfig) (w h : Nat) (pinky : Bool)
    (hbw : 0 < (cfg.bound pinky).1) (hbh : 0 < (cfg.bound pinky).2) :
    (getThumbSpecs cfg w h pinky).dims.1 ≤ (cfg.bound pinky).1 ∧
      (getThumbSpecs cfg w h pinky).dims.2 ≤ (cfg.bound pinky).2 := by
  set r : ℚ := max (max ((w : ℚ) / (cfg.bound pinky).1) ((h : ℚ) / (cfg.bound pinky).2)) 1
  have hr : 0 < r := lt_of_lt_of_le one_pos (le_max_right _ _)
  have hw : (w : ℚ) / (cfg.bound pinky).1 ≤ r := (le_max_left _ _).trans (le_max_left _ _)
  have hh : (h : ℚ) / (cfg.bound pinky).2 ≤ r := (le_max_right _ _).trans (le_max_left _ _)
  rw [div_le_iff₀ (by exact_mod_cast hbw)] at hw
  rw [div_le_iff₀ (by exact_mod_cast hbh)] at hh
  refine ⟨round_le_of_le ?_, round_le_of_le ?_⟩
  · rw [div_le_iff₀ hr]; linarith
  · rw [div_le_iff₀ hr]; linarith

/-- A source at least as wide, relative to its box, as it is high: `r = w / bw`, so the width is
the box's and the height `Math.round(h · bw / w)`. -/
theorem getThumbSpecs_wide (cfg : ThumbConfig) {w h : Nat} (pinky : Bool)
    (hbw : 0 < (cfg.bound pinky).1) (hbh : 0 < (cfg.bound pinky).2)
    (hw : (cfg.bound pinky).1 ≤ w) (hwide : h * (cfg.bound pinky).1 ≤ w * (cfg.bound pinky).2) :
    (getThumbSpecs cfg w h pinky).dims =
      (((cfg.bound pinky).1 : Int), round ((h : ℚ) * (cfg.bound pinky).1 / w)) := by
  have hb1 : (0 : ℚ) < (cfg.bound pinky).1 := by exact_mod_cast hbw
  have hb2 : (0 : ℚ) < (cfg.bound pinky).2 := by exact_mod_cast hbh
  have hw0 : (0 : ℚ) < w := by exact_mod_cast (lt_of_lt_of_le hbw hw)
  -- the three candidates for `r`: `w / bw` wins
  have h1 : (1 : ℚ) ≤ (w : ℚ) / (cfg.bound pinky).1 := by
    rw [le_div_iff₀ hb1, one_mul]; exact_mod_cast hw
  have h2 : (h : ℚ) / (cfg.bound pinky).2 ≤ (w : ℚ) / (cfg.bound pinky).1 := by
    rw [div_le_div_iff₀ hb2 hb1]; exact_mod_cast hwide
  simp only [getThumbSpecs, max_eq_left h2, max_eq_left h1]
  congr 1
  · rw [div_div_cancel₀ hw0.ne', round_natCast]
  · rw [div_div_eq_mul_div]

/-! ## `thumbnail()` -/

/-- A source within the set maximum dimensions passes both checks. -/
theorem Options.Admits.checks {opts : Options} {pdf : Bool} {columns rows : Nat}
    (h : opts.Admits pdf columns rows) :
    ¬(pdf = false ∧ opts.maxSrcWidth ≠ 0 ∧ columns > opts.maxSrcWidth) ∧
      ¬(pdf = false ∧ opts.maxSrcHeight ≠ 0 ∧ rows > opts.maxSrcHeight) := by
  rcases h with rfl | ⟨h1, h2⟩
  · simp
  · constructor <;> rintro ⟨-, h0, hgt⟩ <;> omega

/-- A source that is too big for the box and at least as wide as high is scaled to the box's
width: its height becomes `⌊rows · width / columns⌋`. -/
theorem thumbnail_wide {opts : Options} {pdf : Bool} {columns rows : Nat}
    (hadm : opts.Admits pdf columns rows)
    (hfit : ¬(columns ≤ opts.width ∧ rows ≤ opts.height))
    (hcr : rows ≤ columns) :
    thumbnail opts pdf columns rows = .ok (opts.width, rows * opts.width / columns) := by
  have hc : (0 : ℚ) < columns := by exact_mod_cast (show 0 < columns by omega)
  rw [thumbnail, if_neg hadm.checks.1, if_neg hadm.checks.2, if_neg hfit]
  simp only [if_pos (show columns ≥ rows from hcr)]
  rw [div_div_cancel₀ hc.ne', Nat.floor_natCast, div_div_eq_mul_div, ← Nat.cast_mul,
    Nat.floor_div_eq_div]

/-- A source that is too big for the box and higher than wide is scaled to the box's height:
its width becomes `⌊columns · height / rows⌋`. -/
theorem thumbnail_tall {opts : Options} {pdf : Bool} {columns rows : Nat}
    (hadm : opts.Admits pdf columns rows)
    (hfit : ¬(columns ≤ opts.width ∧ rows ≤ opts.height))
    (hcr : columns < rows) :
    thumbnail opts pdf columns rows = .ok (columns * opts.height / rows, opts.height) := by
  have hr : (0 : ℚ) < rows := by exact_mod_cast (show 0 < rows by omega)
  rw [thumbnail, if_neg hadm.checks.1, if_neg hadm.checks.2, if_neg hfit]
  simp only [if_neg (show ¬columns ≥ rows by omega)]
  rw [div_div_cancel₀ hr.ne', Nat.floor_natCast, div_div_eq_mul_div, ← Nat.cast_mul,
    Nat.floor_div_eq_div]

/-- **`thumbnail()` keeps within a square box**: the longer side is scaled to the box's side,
and the shorter one to at most that. -/
theorem thumbnail_le_of_square {opts : Options} {pdf : Bool} {columns rows w' h' : Nat}
    (hsq : opts.width = opts.height) (hadm : opts.Admits pdf columns rows)
    (ht : thumbnail opts pdf columns rows = .ok (w', h')) :
    w' ≤ opts.width ∧ h' ≤ opts.height := by
  by_cases hfit : columns ≤ opts.width ∧ rows ≤ opts.height
  · rw [thumbnail, if_neg hadm.checks.1, if_neg hadm.checks.2, if_pos hfit] at ht
    cases ht; exact hfit
  by_cases hcr : rows ≤ columns
  · rw [thumbnail_wide hadm hfit hcr] at ht
    cases ht
    exact ⟨le_rfl, hsq ▸ Nat.div_le_of_le_mul (Nat.mul_le_mul_right _ hcr)⟩
  · rw [thumbnail_tall hadm hfit (by omega)] at ht
    cases ht
    exact ⟨hsq ▸ Nat.div_le_of_le_mul (Nat.mul_le_mul_right _ (by omega)), le_rfl⟩

/-- `thumbnail()` scales a square source just past the box's width to a thumbnail as high as
the box is wide: on a box wider than high the height bound is not kept. -/
theorem thumbnail_wide_box {opts : Options} {pdf : Bool}
    (hadm : opts.Admits pdf (opts.width + 1) (opts.width + 1)) :
    thumbnail opts pdf (opts.width + 1) (opts.width + 1) = .ok (opts.width, opts.width) := by
  rw [thumbnail_wide hadm (by omega) le_rfl, Nat.mul_div_cancel_left _ (by omega)]

/-! ## A side rounded to nothing -/

/-- **Both computations can give a thumbnail of height 0.** For every box (`bw × bh` of
`get_thumb_specs`, `width × height` of `thumbnail()`), a source one pixel high and a little over
twice as wide as the box gets a thumbnail of the box's width and of height 0: `get_thumb_specs`
rounds `bw / (2·bw + 1) < 1/2` down to 0, and `thumbnail()` truncates `1 / 2` to 0. -/
theorem thumb_sizes_zero_height (cfg : ThumbConfig) (pinky : Bool)
    (hbw : 0 < (cfg.bound pinky).1) (hbh : 0 < (cfg.bound pinky).2)
    {opts : Options} {pdf : Bool} (hw : 0 < opts.width)
    (hadm : opts.Admits pdf (2 * opts.width) 1) :
    (getThumbSpecs cfg (2 * (cfg.bound pinky).1 + 1) 1 pinky).dims =
        (((cfg.bound pinky).1 : Int), 0) ∧
      thumbnail opts pdf (2 * opts.width) 1 = .ok (opts.width, 0) := by
  refine ⟨?_, ?_⟩
  · have hwide := Nat.le_mul_of_pos_right (2 * (cfg.bound pinky).1 + 1) hbh
    rw [getThumbSpecs_wide cfg pinky hbw hbh (by omega) (by omega)]
    congr 1
    rw [round_eq_zero_iff]
    have hb : (0 : ℚ) < (cfg.bound pinky).1 := by exact_mod_cast hbw
    constructor
    · push_cast
      exact (show (-(1 / 2) : ℚ) ≤ 0 by norm_num).trans (by positivity)
    · push_cast
      rw [div_lt_div_iff₀ (by positivity) two_pos]
      linarith
  · rw [thumbnail_wide hadm (by omega) (by omega), Nat.div_eq_of_lt (by omega)]

/-- `THUMB_DIMENSIONS` of 125 × 125 and the thumbnailer's 150 × 150 box, sources up to
6000 × 6000: a 251 × 1 source gets a 125 × 0 thumbnail, a 300 × 1 source a 150 × 0 one. -/
theorem thumb_sizes_zero_height_sample :
    0 < (ThumbConfig.bound ⟨(125, 125), (50, 50), 50, 50⟩ false).1 ∧
      0 < (ThumbConfig.bound ⟨(125, 125), (50, 50), 50, 50⟩ false).2 ∧
      0 < (⟨150, 150, 6000, 6000⟩ : Options).width ∧
      (⟨150, 150, 6000, 6000⟩ : Options).Admits false (2 * 150) 1 ∧
      (getThumbSpecs ⟨(125, 125), (50, 50), 50, 50⟩
          (2 * (ThumbConfig.bound ⟨(125, 125), (50, 50), 50, 50⟩ false).1 + 1) 1 false).dims =
        (((ThumbConfig.bound ⟨(125, 125), (50, 50), 50, 50⟩ false).1 : Int), 0) ∧
      thumbnail ⟨150, 150, 6000, 6000⟩ false
          (2 * (⟨150, 150, 6000, 6000⟩ : Options).width) 1 =
        .ok ((⟨150, 150, 6000, 6000⟩ : Options).width, 0) :=
  have hadm : (⟨150, 150, 6000, 6000⟩ : Options).Admits false (2 * 150) 1 :=
    .inr ⟨.inr (by decide), .inr (by decide)⟩
  ⟨by decide, by decide, by decide, hadm,
    thumb_sizes_zero_height ⟨(125, 125), (50, 50), 50, 50⟩ false (by decide) (by decide)
      (by decide) hadm⟩

end Shamichan.Pix

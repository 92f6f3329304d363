import Shamichan.OpenPost.Spec

/-!
# Shamichan — the body invariant of an open post

The buffer of an open post is the UTF-8 encoding of scalar values without NUL, `len` is its
number of runes, and that number is at most `MaxLenBody` (`BodyInv`). Every call of every
handler keeps this, whether it succeeds or returns an error (`step_bodyInv`), and on a post
that satisfies it no slice expression of `backspace` or `spliceText` is out of range, so no
call panics. By induction over the calls, the same holds after any sequence of calls
(`run_bodyInv`).

`BodyInv` carries no line count: the line invariant is the subject of `Lines.lean`.
-/

namespace Shamichan

open Utf8

/-- A buffer that is the UTF-8 encoding of scalar values, none of them NUL. -/
def WellFormed (body : List Nat) : Prop :=
  ∃ rs, body = encodeString rs ∧ ∀ r ∈ rs, ValidRune r ∧ r ≠ 0

variable (cfg : Config)

/-- The body invariant: a well-formed buffer whose rune count, as `[]rune` counts it, is
`len`, and at most `MaxLenBody`. -/
structure BodyInv (p : OpenPost) : Prop where
  wellFormed : WellFormed p.body
  len_eq : p.len = (decodeRunes p.body).length
  len_le : p.len ≤ cfg.maxLenBody

variable {cfg}

/-- The runes of a post that satisfies the body invariant. -/
theorem BodyInv.runes {p : OpenPost} (h : BodyInv cfg p) :
    ∃ rs, p.body = encodeString rs ∧ (∀ r ∈ rs, ValidRune r ∧ r ≠ 0) ∧ p.len = rs.length ∧
      rs.length ≤ cfg.maxLenBody := by
  obtain ⟨rs, hb, hrs⟩ := h.wellFormed
  have hdec : decodeRunes p.body = rs := by rw [hb]; exact decodeRunes_encodeString fun r hr => (hrs r hr).1
  have := h.len_le
  exact ⟨rs, hb, hrs, by rw [h.len_eq, hdec], by rw [h.len_eq, hdec] at this; omega⟩

theorem BodyInv.of_runes {p : OpenPost} {rs : List Int} (hb : p.body = encodeString rs)
    (hrs : ∀ r ∈ rs, ValidRune r ∧ r ≠ 0) (hl : p.len = rs.length)
    (hmax : rs.length ≤ cfg.maxLenBody) : BodyInv cfg p where
  wellFormed := ⟨rs, hb, hrs⟩
  len_eq := by rw [hb, decodeRunes_encodeString fun r hr => (hrs r hr).1, hl]
  len_le := by omega

/-- The invariant reads only the body and the length. -/
theorem BodyInv.congr {p q : OpenPost} (h : BodyInv cfg p) (hb : q.body = p.body)
    (hl : q.len = p.len) : BodyInv cfg q where
  wellFormed := hb ▸ h.wellFormed
  len_eq := hb ▸ hl ▸ h.len_eq
  len_le := hl ▸ h.len_le

/-! ## One call -/

theorem appendRune_bodyInv {p : OpenPost} (h : BodyInv cfg p) (data : Except Error Int)
    (store : Option Error) :
    BodyInv cfg (appendRune cfg p data store).post ∧ (appendRune cfg p data store).exit ≠ .panic := by
  rcases appendRune_cases cfg p data store with
    ⟨hp, -, hx, -⟩ | ⟨-, hp, -, e, hx⟩ | ⟨c, -, -, hlen, hc, -, -, he⟩
  · exact ⟨by rw [hp]; exact h, hx⟩
  · exact ⟨h.congr (by rw [hp]) (by rw [hp]), by rw [hx]; exact nofun⟩
  rw [he]
  refine ⟨?_, nofun⟩
  obtain ⟨rs, hb, hrs, hl, -⟩ := h.runes
  -- `string(c)` encodes `c`, or `RuneError` when `c` is not a scalar value
  obtain ⟨r, hr, hr0, henc⟩ : ∃ r, ValidRune r ∧ r ≠ 0 ∧ encodeRune c = encodeRune r := by
    by_cases hv : ValidRune c
    · exact ⟨c, hv, hc, rfl⟩
    · exact ⟨runeError, validRune_runeError, by decide, encodeRune_of_not_validRune hv⟩
  refine BodyInv.of_runes (show _ = encodeString (rs ++ [r]) by simp [hb, henc]) ?_
    (by simp; omega) (by simp; omega)
  intro x hx
  rcases List.mem_append.mp hx with hx | hx
  · exact hrs x hx
  · rw [List.mem_singleton.mp hx]; exact ⟨hr, hr0⟩

theorem backspace_bodyInv {p : OpenPost} (h : BodyInv cfg p) (store : Option Error) :
    BodyInv cfg (backspace cfg p store).post ∧ (backspace cfg p store).exit ≠ .panic := by
  rcases backspace_cases cfg p store with ⟨hp, -, hx, -⟩ | ⟨hp, hl0⟩
  · exact ⟨by rw [hp]; exact h, hx⟩
  obtain ⟨rs, hb, hrs, hl, -⟩ := h.runes
  -- a nonempty body ends in the encoding of its last rune
  obtain ⟨rs, r, rfl⟩ : ∃ rs' r, rs = rs' ++ [r] := by
    rcases List.eq_nil_or_concat rs with rfl | ⟨rs', r, rfl⟩
    · simp at hl; omega
    · exact ⟨rs', r, List.concat_eq_append ..⟩
  simp only [List.mem_append, List.mem_singleton] at hrs
  rw [backspace_eq cfg hp hl0 hb (hrs r (.inr rfl)).1]
  refine ⟨BodyInv.of_runes rfl (fun x hx => hrs x (.inl hx)) (by simp at hl ⊢; omega)
    (by have := h.len_le; simp at hl; omega), nofun⟩

theorem spliceText_bodyInv {p : OpenPost} (h : BodyInv cfg p)
    (data : Except Error SpliceRequestString) (store : Option Error) :
    BodyInv cfg (spliceText cfg p data store).post ∧
      (spliceText cfg p data store).exit ≠ .panic := by
  rcases spliceText_cases cfg p data store with ⟨hp, -, hx, -⟩ | ⟨wire, -, -, -, herr, he⟩
  · exact ⟨by rw [hp]; exact h, hx⟩
  rw [he]
  obtain ⟨hs, -, -, h0⟩ := spliceError_eq_none cfg herr
  obtain ⟨rs, hb, hrs, hl, hmax⟩ := h.runes
  -- the runes of the request decode from a string, so they are scalar values
  have htext : ∀ r ∈ (SpliceRequest.unmarshal wire).text, ValidRune r ∧ r ≠ 0 :=
    fun r hr => ⟨validRune_of_mem_decodeRunes hr, fun h => h0 (h ▸ hr)⟩
  -- whatever the line check decides, the new body and length satisfy the invariant
  have hinv : ∀ q : OpenPost,
      q.body = encodeString (rs.take (SpliceRequest.unmarshal wire).start ++
        spliceTail cfg rs (SpliceRequest.unmarshal wire)) →
      q.len = (SpliceRequest.unmarshal wire).start +
        (spliceTail cfg rs (SpliceRequest.unmarshal wire)).length → BodyInv cfg q := by
    intro q hqb hql
    have htail := List.length_take_le (cfg.maxLenBody - (SpliceRequest.unmarshal wire).start)
      ((SpliceRequest.unmarshal wire).text ++
        rs.drop ((SpliceRequest.unmarshal wire).start + (SpliceRequest.unmarshal wire).len))
    refine BodyInv.of_runes hqb (fun x hx => ?_) ?_ ?_
    · rcases List.mem_append.mp hx with hx | hx
      · exact hrs x (List.mem_of_mem_take hx)
      · rcases List.mem_append.mp (List.mem_of_mem_take hx) with hx | hx
        · exact htext x hx
        · exact hrs x (List.mem_of_mem_drop hx)
    · simp only [List.length_append, List.length_take]; omega
    · simp only [spliceTail] at htext htail ⊢
      simp only [List.length_append, List.length_take]; omega
  rw [spliceEdit_eq cfg hb (fun r hr => (hrs r hr).1) hl (by omega) hmax]
  dsimp only
  split
  · exact ⟨hinv _ rfl rfl, nofun⟩
  · exact ⟨hinv _ rfl rfl, nofun⟩

/-- **One call keeps the body invariant and does not panic**, whatever the handler, the
payload, the database's answers and whether the call succeeds or returns an error. -/
theorem step_bodyInv {p : OpenPost} (h : BodyInv cfg p) (c : Call) :
    BodyInv cfg (step cfg p c).post ∧ (step cfg p c).exit ≠ .panic := by
  cases c with
  | appendRune data store => exact appendRune_bodyInv h data store
  | backspace store => exact backspace_bodyInv h store
  | spliceText data store => exact spliceText_bodyInv h data store
  | insertImage image data tx =>
    obtain ⟨hq, hx⟩ := insertImage_post cfg p image data tx
    exact ⟨h.congr (by rw [step, hq]) (by rw [step, hq]), hx⟩
  | spoilerImage image store =>
    obtain ⟨hq, hx⟩ := spoilerImage_post cfg p image store
    exact ⟨h.congr (by rw [step, hq]) (by rw [step, hq]), hx⟩

/-! ## Every run -/

/-- **The body invariant over every run.** From a post whose buffer is well-formed UTF-8
without NUL with `len` runes, at most `MaxLenBody`, every sequence of calls, each succeeding
or returning an error, leads to a post of which the same holds, and from which no call
panics: every slice expression of `backspace` and `spliceText` is in range. -/
theorem run_bodyInv {p : OpenPost} (h : BodyInv cfg p) (cs : List Call) :
    BodyInv cfg (run cfg p cs) ∧ ∀ c, (step cfg (run cfg p cs) c).exit ≠ .panic := by
  induction cs generalizing p with
  | nil => exact ⟨h, fun c => (step_bodyInv h c).2⟩
  | cons c cs ih => exact ih (step_bodyInv h c).1

/-- The empty post of thread 1, then `é`, a backspace and a splice of `"ab"` at 0. -/
theorem run_bodyInv_sample :
    BodyInv Config.sample ⟨1, 1, 0, 0, [], "a", false⟩ ∧
      (BodyInv Config.sample (run Config.sample ⟨1, 1, 0, 0, [], "a", false⟩
          [.appendRune (.ok 0xE9) none, .backspace none, .spliceText (.ok ⟨⟨0, 0⟩, [97, 98]⟩) none]) ∧
        ∀ c, (step Config.sample (run Config.sample ⟨1, 1, 0, 0, [], "a", false⟩
          [.appendRune (.ok 0xE9) none, .backspace none, .spliceText (.ok ⟨⟨0, 0⟩, [97, 98]⟩) none])
            c).exit ≠ .panic) :=
  have h : BodyInv Config.sample ⟨1, 1, 0, 0, [], "a", false⟩ :=
    BodyInv.of_runes (show [] = encodeString [] from rfl) nofun rfl (by decide)
  ⟨h, run_bodyInv h _⟩

end Shamichan

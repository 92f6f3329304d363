import Shamichan.OpenPost.Body

/-!
# Shamichan — laws of two calls, and of the wire form

Three laws the spec states about the handlers, each over every post, rune or request:

* `appendRune_backspace`: appending a rune and then deleting it gives back the post exactly
  (body, `len`, `lines`), and the deletion hands the original body to the feed and the
  database, for every rune `appendRune` accepts: `DecodeLastRune` finds exactly the bytes
  `string(r)` added, also when `r` is not a scalar value and `string(r)` is `RuneError`;
* `unmarshal_marshal`: a splice request survives its wire form whenever its text is made of
  scalar values, as decoding a JSON string always gives (`[]rune(string(rs))` gives back every
  scalar value and turns every other rune into `RuneError`);
* `spoilerImage_twice`: `spoilerImage` is not idempotent. It never sets `isSpoilered`, so a call
  that spoilers the image leaves the post as it was, and the same call again spoilers and
  broadcasts again instead of taking the `NOOP` branch.
-/

namespace Shamichan

open Utf8

variable {cfg : Config}

/-! ## Append, then backspace -/

/-- `string(char)` is the encoding of a scalar value that is a newline exactly when `char` is:
`char` itself, or `RuneError` when `char` is not a scalar value. -/
theorem encodeRune_eq_valid (char : Int) :
    ∃ r, ValidRune r ∧ (r = 10 ↔ char = 10) ∧ encodeRune char = encodeRune r := by
  by_cases hv : ValidRune char
  · exact ⟨char, hv, .rfl, rfl⟩
  · refine ⟨runeError, validRune_runeError, ⟨fun h => absurd h (by decide),
      fun h => absurd (h ▸ (by decide : ValidRune 10)) hv⟩, encodeRune_of_not_validRune hv⟩

/-- **A backspace undoes an appended rune.** On a post that satisfies the body invariant, if
`appendRune(char)` returns `nil` and the following `backspace()` returns `nil`, then either the
post was no longer open when the backspace came (`hasPost` answered false and nothing was
edited), or the backspace gave back the original post, body, `len` and `lines` alike, and
handed the original body to the feed and the database. -/
theorem appendRune_backspace {p : OpenPost} (h : BodyInv cfg p) {char : Int}
    {s₁ s₂ : Option Error} (hs₁ : (appendRune cfg p (.ok char) s₁).exit = .ret none)
    (hs₂ : (backspace cfg (appendRune cfg p (.ok char) s₁).post s₂).exit = .ret none) :
    cfg.hasPost (appendRune cfg p (.ok char) s₁).post = .ok false ∨
      (backspace cfg (appendRune cfg p (.ok char) s₁).post s₂).post = p ∧
        (backspace cfg (appendRune cfg p (.ok char) s₁).post s₂).effects =
          [.feedSetOpenBody p.id p.body (.backspace p.id), .spam cfg.charScore,
            .dbSetOpenBody p.id p.body] := by
  rcases appendRune_cases cfg p (.ok char) s₁ with
    ⟨hq, -, -, hd⟩ | ⟨-, -, -, e, hx⟩ | ⟨c, ⟨⟩, -, -, -, -, -, he⟩
  · left; rw [hq]; exact hd hs₁
  · rw [hs₁] at hx; cases hx
  rw [he, updateBody_post] at hs₂ ⊢
  rcases backspace_cases cfg _ s₂ with ⟨-, -, -, hd⟩ | ⟨hp, hl0⟩
  · exact .inl (hd hs₂)
  obtain ⟨rs, hb, -, -, -⟩ := h.runes
  obtain ⟨r, hr, hr10, henc⟩ := encodeRune_eq_valid char
  rw [backspace_eq cfg hp hl0 (show _ = encodeString (rs ++ [r]) by simp [hb, henc]) hr] at hs₂ ⊢
  rw [updateBody_exit] at hs₂
  cases hs₂
  refine .inr ⟨?_, by simp [updateBody, hb]⟩
  -- the line count goes up and down together: `r` is a newline exactly when `char` is
  by_cases h10 : char = 10
  · simp only [updateBody_post, if_pos (hr10.2 h10), if_pos h10, ← hb, add_sub_cancel_right]
  · simp only [updateBody_post, if_neg (mt hr10.1 h10), if_neg h10, ← hb, add_sub_cancel_right]

/-- Appending `é` to `"ab"`, then a backspace, on a post open as post 1 of thread 1. -/
theorem appendRune_backspace_sample :
    BodyInv Config.sample ⟨1, 1, 2, 0, [97, 98], "a", false⟩ ∧
      (appendRune Config.sample ⟨1, 1, 2, 0, [97, 98], "a", false⟩ (.ok 0xE9) none).exit =
        .ret none ∧
      (backspace Config.sample
        (appendRune Config.sample ⟨1, 1, 2, 0, [97, 98], "a", false⟩ (.ok 0xE9) none).post
          none).exit = .ret none ∧
      (Config.sample.hasPost
          (appendRune Config.sample ⟨1, 1, 2, 0, [97, 98], "a", false⟩ (.ok 0xE9) none).post =
            .ok false ∨
        (backspace Config.sample
            (appendRune Config.sample ⟨1, 1, 2, 0, [97, 98], "a", false⟩ (.ok 0xE9) none).post
              none).post = ⟨1, 1, 2, 0, [97, 98], "a", false⟩ ∧
          (backspace Config.sample
              (appendRune Config.sample ⟨1, 1, 2, 0, [97, 98], "a", false⟩ (.ok 0xE9) none).post
                none).effects =
            [.feedSetOpenBody 1 [97, 98] (.backspace 1), .spam Config.sample.charScore,
              .dbSetOpenBody 1 [97, 98]]) :=
  have h : BodyInv Config.sample ⟨1, 1, 2, 0, [97, 98], "a", false⟩ :=
    BodyInv.of_runes (show [97, 98] = encodeString [97, 98] from rfl) (by decide) rfl (by decide)
  have hs₁ : (appendRune Config.sample ⟨1, 1, 2, 0, [97, 98], "a", false⟩ (.ok 0xE9) none).exit =
      .ret none := by decide
  have hs₂ : (backspace Config.sample
      (appendRune Config.sample ⟨1, 1, 2, 0, [97, 98], "a", false⟩ (.ok 0xE9) none).post
        none).exit = .ret none := by decide
  ⟨h, hs₁, hs₂, appendRune_backspace h hs₁ hs₂⟩

/-! ## The wire form of a splice -/

/-- `UnmarshalJSON` after `MarshalJSON`: coordinates unchanged, every scalar value of the text
back, every other rune as `RuneError`. -/
theorem unmarshal_marshal_text (s : SpliceRequest) :
    SpliceRequest.unmarshal (SpliceRequest.marshal s) =
      { s with text := s.text.map fun r => if ValidRune r then r else runeError } := by
  simp only [SpliceRequest.unmarshal, SpliceRequest.marshal, decodeRunes_encodeString_map]

/-- **A splice request survives its wire form.** When every rune of the text is a scalar
value, `UnmarshalJSON(MarshalJSON(s)) = s`: `Start`, `Len` and every rune, multi-byte ones
included. -/
theorem unmarshal_marshal {s : SpliceRequest} (h : ∀ r ∈ s.text, ValidRune r) :
    SpliceRequest.unmarshal (SpliceRequest.marshal s) = s := by
  rw [unmarshal_marshal_text, List.map_congr_left (fun r hr => if_pos (h r hr)), List.map_id']

/-- A request to put `"hé€😀"` at rune 3 in place of one rune. -/
theorem unmarshal_marshal_sample :
    (∀ r ∈ [0x68, 0xE9, 0x20AC, 0x1F600], ValidRune r) ∧
      SpliceRequest.unmarshal (SpliceRequest.marshal ⟨⟨3, 1⟩, [0x68, 0xE9, 0x20AC, 0x1F600]⟩) =
        ⟨⟨3, 1⟩, [0x68, 0xE9, 0x20AC, 0x1F600]⟩ :=
  ⟨by decide, unmarshal_marshal (s := ⟨⟨3, 1⟩, [0x68, 0xE9, 0x20AC, 0x1F600]⟩) (by decide)⟩

/-! ## Spoilering twice -/

/-- The one branch of `spoilerImage` that writes: the post open, the image there and not yet
spoilered, the database answering `nil`. It leaves the post exactly as it was. -/
theorem spoilerImage_post_of_write {p : OpenPost} {image : Except Error Bool}
    {store : Option Error}
    (hw : Effect.dbSpoilerImage p.id p.op ∈ (spoilerImage cfg p image store).effects) :
    (spoilerImage cfg p image store).post = p := by
  unfold spoilerImage at hw ⊢
  rcases hh : cfg.hasPost p with e | _ | _ <;> rcases image with e' | _ | _ <;>
    simp only [hh, hasImage] at hw ⊢ <;>
    (try split_ifs at hw ⊢) <;> (try cases store) <;>
    simp [Outcome.after, Outcome.fail, Outcome.done] at hw ⊢

/-- **`spoilerImage` is not idempotent.** Whenever a call spoilers the image (sends
`db.SpoilerImage`), the post it leaves is the post it started from, with `isSpoilered` still
unset; so the same call made again, the image still there and the database answering `nil`,
takes the same branch and has the same effects: another `db.SpoilerImage` and another
`MessageSpoiler`, not the `NOOP`. -/
theorem spoilerImage_twice {p : OpenPost} {image : Except Error Bool} {store : Option Error}
    (hw : Effect.dbSpoilerImage p.id p.op ∈ (spoilerImage cfg p image store).effects) :
    spoilerImage cfg (spoilerImage cfg p image store).post image store =
      spoilerImage cfg p image store := by
  rw [spoilerImage_post_of_write hw]

/-- Post 2 of thread 1, its image not spoilered: the first call writes, so the second does too. -/
theorem spoilerImage_twice_sample :
    Effect.dbSpoilerImage 2 1 ∈
        (spoilerImage Config.sample ⟨2, 1, 0, 0, [], "a", false⟩ (.ok true) none).effects ∧
      spoilerImage Config.sample
          (spoilerImage Config.sample ⟨2, 1, 0, 0, [], "a", false⟩ (.ok true) none).post
          (.ok true) none =
        spoilerImage Config.sample ⟨2, 1, 0, 0, [], "a", false⟩ (.ok true) none :=
  have hw : Effect.dbSpoilerImage 2 1 ∈
      (spoilerImage Config.sample ⟨2, 1, 0, 0, [], "a", false⟩ (.ok true) none).effects := by
    decide
  ⟨hw, spoilerImage_twice hw⟩

example : (spoilerImage Config.sample ⟨2, 1, 0, 0, [], "a", false⟩ (.ok true) none).effects =
    [.spam 1, .dbSpoilerImage 2 1, .feedSpoilerImage 2 (.spoiler 2)] := by decide

end Shamichan

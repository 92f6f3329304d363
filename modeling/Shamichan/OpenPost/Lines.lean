import Shamichan.OpenPost.Body

/-!
# Shamichan — the line count of an open post

`lines` is meant to be the number of newlines of the body, within `MaxLinesBody`
(`LinesInv`). Every call that returns `nil` keeps this (`step_linesInv`), so along a run of
successful calls it always holds (`run_linesInv`). Two error paths break it:

* `appendRune` raises `lines` for a newline before it checks the limit, and returns
  `errTooManyLines` without lowering it again (`appendRune_newline_at_limit`);
* `spliceText` replaces the body, length and line count before it checks the limit, and
  returns `errTooManyLines` with the new body in place (`spliceText_tooManyLines`); the next
  accepted `appendRune` then hands that body to the feed and the database.
-/

namespace Shamichan

open Utf8

variable (cfg : Config)

/-- The line invariant: `lines` is the number of newline bytes of the body, the count
`countLines` makes, and within `MaxLinesBody`. -/
structure LinesInv (p : OpenPost) : Prop where
  lines_eq : p.lines = p.body.count 10
  lines_le : p.lines ≤ cfg.maxLinesBody

variable {cfg}

/-! ## Successful calls keep the count -/

theorem appendRune_linesInv {p : OpenPost} (hl : LinesInv cfg p) {data : Except Error Int}
    {store : Option Error} (hs : (appendRune cfg p data store).exit = .ret none) :
    LinesInv cfg (appendRune cfg p data store).post := by
  rcases appendRune_cases cfg p data store with
    ⟨hp, -, -⟩ | ⟨-, -, -, e, hx⟩ | ⟨c, -, -, -, -, hnl, -, he⟩
  · rw [hp]; exact hl
  · rw [hs] at hx; cases hx
  rw [he, updateBody_post]
  constructor
  · simp only [List.count_append, count_newline_encodeRune, hl.lines_eq]
    split_ifs <;> simp
  · have := hl.lines_le
    split_ifs with h10
    · exact hnl h10
    · exact this

theorem backspace_linesInv {p : OpenPost} (hb : BodyInv cfg p) (hl : LinesInv cfg p)
    (store : Option Error) : LinesInv cfg (backspace cfg p store).post := by
  rcases backspace_cases cfg p store with ⟨hp, -, -⟩ | ⟨hp, hl0⟩
  · rw [hp]; exact hl
  obtain ⟨rs, hbody, hrs, hlen, -⟩ := hb.runes
  obtain ⟨rs, r, rfl⟩ : ∃ rs' r, rs = rs' ++ [r] := by
    rcases List.eq_nil_or_concat rs with rfl | ⟨rs', r, rfl⟩
    · simp at hlen; omega
    · exact ⟨rs', r, List.concat_eq_append ..⟩
  have hr := (hrs r (List.mem_append_right _ (List.mem_singleton_self r))).1
  rw [backspace_eq cfg hp hl0 hbody hr, updateBody_post]
  -- the removed bytes hold one newline exactly when the removed rune is one
  have hcount : p.body.count 10 = (encodeString rs).count 10 + if r = 10 then 1 else 0 := by
    rw [hbody, encodeString_append, List.count_append, encodeString_cons, encodeString_nil,
      List.append_nil, count_newline_encodeRune]
  have := hl.lines_le
  have := hl.lines_eq
  constructor <;> dsimp only <;> split_ifs <;> simp_all
  -- the one goal `simp_all` leaves: a newline removed, the bound on the rest
  omega

theorem spliceText_linesInv {p : OpenPost} (hb : BodyInv cfg p) (hl : LinesInv cfg p)
    {data : Except Error SpliceRequestString} {store : Option Error}
    (hs : (spliceText cfg p data store).exit = .ret none) :
    LinesInv cfg (spliceText cfg p data store).post := by
  rcases spliceText_cases cfg p data store with ⟨hp, -, -⟩ | ⟨wire, -, -, -, herr, he⟩
  · rw [hp]; exact hl
  rw [he] at hs ⊢
  obtain ⟨hst, -, -, -⟩ := spliceError_eq_none cfg herr
  obtain ⟨rs, hbody, hrs, hlen, hmax⟩ := hb.runes
  rw [spliceEdit_eq cfg hbody (fun r hr => (hrs r hr).1) hlen (by omega) hmax] at hs ⊢
  dsimp only at hs ⊢
  -- the line check let the call through, so the recounted lines are within the limit
  split_ifs at hs ⊢ with hle
  · cases hs
  · exact ⟨rfl, by simp only [updateBody_post]; omega⟩

/-- **A successful call keeps the line count** equal to the body's newlines and within
`MaxLinesBody`. -/
theorem step_linesInv {p : OpenPost} (hb : BodyInv cfg p) (hl : LinesInv cfg p) (c : Call)
    (hs : (step cfg p c).exit = .ret none) : LinesInv cfg (step cfg p c).post := by
  cases c with
  | appendRune data store => exact appendRune_linesInv hl hs
  | backspace store => exact backspace_linesInv hb hl store
  | spliceText data store => exact spliceText_linesInv hb hl hs
  | insertImage image data tx =>
    obtain ⟨hq, -⟩ := insertImage_post cfg p image data tx
    exact ⟨by rw [step, hq]; exact hl.lines_eq, by rw [step, hq]; exact hl.lines_le⟩
  | spoilerImage image store =>
    obtain ⟨hq, -⟩ := spoilerImage_post cfg p image store
    exact ⟨by rw [step, hq]; exact hl.lines_eq, by rw [step, hq]; exact hl.lines_le⟩

/-- Along a run of successful calls the line count stays the body's newline count, within
`MaxLinesBody`. -/
theorem run_linesInv {p : OpenPost} (hb : BodyInv cfg p) (hl : LinesInv cfg p)
    (cs : List Call) (hs : Succeeds cfg p cs) : LinesInv cfg (run cfg p cs) := by
  induction cs generalizing p with
  | nil => exact hl
  | cons c cs ih => exact ih (step_bodyInv hb c).1 (step_linesInv hb hl c hs.1) hs.2

/-! ## The two late line checks

Both handlers change the post before they compare the line count with the limit, and keep
the change when they reject the call. -/

/-- At the line limit, appending a newline is rejected, yet `lines` stays raised: it no longer
counts the body's newlines. -/
theorem appendRune_newline_at_limit {p : OpenPost} (hl : LinesInv cfg p)
    (hp : cfg.hasPost p = .ok true) (hlen : p.len + 1 ≤ cfg.maxLenBody)
    (hlim : p.lines = cfg.maxLinesBody) (store : Option Error) :
    (appendRune cfg p (.ok 10) store).exit = .ret (some .tooManyLines) ∧
      (appendRune cfg p (.ok 10) store).effects = [] ∧
      (appendRune cfg p (.ok 10) store).post.lines =
        (appendRune cfg p (.ok 10) store).post.body.count 10 + 1 := by
  have he : appendRune cfg p (.ok 10) store =
      .fail { p with lines := p.lines + 1 } .tooManyLines := by
    simp [appendRune, hp, hlim, show ¬p.len + 1 > cfg.maxLenBody by omega, Int.lt_succ]
  rw [he]
  exact ⟨rfl, rfl, by simp only [Outcome.fail, hl.lines_eq]⟩

/-- A splice whose result has too many lines is rejected, yet the post keeps the new body,
which differs from the old one. -/
theorem spliceText_over_limit {p : OpenPost} (hb : BodyInv cfg p) (hl : LinesInv cfg p)
    (hp : cfg.hasPost p = .ok true) {wire : SpliceRequestString}
    (hpr : cfg.isPrintableRunes (SpliceRequest.unmarshal wire).text true = none)
    (herr : spliceError cfg p (SpliceRequest.unmarshal wire) = none) (store : Option Error)
    (hover : cfg.maxLinesBody < (spliceText cfg p (.ok wire) store).post.body.count 10) :
    (spliceText cfg p (.ok wire) store).exit = .ret (some .tooManyLines) ∧
      (spliceText cfg p (.ok wire) store).effects = [] ∧
      (spliceText cfg p (.ok wire) store).post.body ≠ p.body := by
  obtain ⟨hst, -, -, -⟩ := spliceError_eq_none cfg herr
  obtain ⟨rs, hbody, hrs, hlen, hmax⟩ := hb.runes
  have he : spliceText cfg p (.ok wire) store = spliceEdit cfg p (.unmarshal wire) store := by
    simp only [spliceText, hp, hpr, herr]
  rw [he, spliceEdit_eq cfg hbody (fun r hr => (hrs r hr).1) hlen (by omega) hmax] at hover ⊢
  dsimp only at hover ⊢
  have := hl.lines_le
  have := hl.lines_eq
  split_ifs at hover ⊢ with hle
  · refine ⟨rfl, rfl, fun h => ?_⟩
    simp only [Outcome.fail] at h hover
    rw [h] at hover
    omega
  · simp only [updateBody_post] at hover
    omega

/-- From an empty post, a splice of three newlines is rejected with `errTooManyLines`, and the
next appended rune hands a body of three newlines to the feed and the database, over a limit
of two. -/
theorem spliceText_rejected_body_reaches_feed :
    (spliceText Config.sample ⟨1, 1, 0, 0, [], "a", false⟩ (.ok ⟨⟨0, 0⟩, [10, 10, 10]⟩)
        none).exit = .ret (some .tooManyLines) ∧
      (appendRune Config.sample (spliceText Config.sample ⟨1, 1, 0, 0, [], "a", false⟩
          (.ok ⟨⟨0, 0⟩, [10, 10, 10]⟩) none).post (.ok 97) none).effects =
        [.feedSetOpenBody 1 [10, 10, 10, 97] (.append 1 97), .spam 1,
          .dbSetOpenBody 1 [10, 10, 10, 97]] ∧
      Config.sample.maxLinesBody < [10, 10, 10, 97].count 10 := by
  decide

/-- Two rejections that change the post: a newline appended at the line limit raises
`lines`, and a splice of three newlines after "ab" replaces the body, length and lines. -/
theorem rejected_calls_change_post :
    appendRune Config.sample ⟨1, 1, 2, 2, [10, 10], "a", false⟩ (.ok 10) none =
        .fail ⟨1, 1, 2, 3, [10, 10], "a", false⟩ .tooManyLines ∧
      spliceText Config.sample ⟨1, 1, 2, 0, [97, 98], "a", false⟩
          (.ok ⟨⟨2, 0⟩, [10, 10, 10]⟩) none =
        .fail ⟨1, 1, 5, 3, [97, 98, 10, 10, 10], "a", false⟩ .tooManyLines := by
  decide

end Shamichan

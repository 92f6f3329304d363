import Shamichan.OpenPost.Replica

/-!
# Shamichan — closing an open post

`Client.closePost` runs the parser's filters over a nonempty body (`RegisterFilter`, then
`ApplyFilters`, which rewrites `c.post.body` in place), broadcasts a changed body as a
full-range `MessageSplice`, parses the body for links and commands, lets a `#steal` post on
board `a` take the image of the last post it links, and hands the body to `db.ClosePost`;
only when that succeeds is the post reset to `openPost{}` (`closePost`). What the parser and
the database answer is an input of the call (`CloseAnswers`), so every rewrite the filters may
make and every failure are covered.

* `closePost_error_post`: a call that returns an error leaves the post open with the filtered
  body and the old `len` and `lines`, which the filter never recounts; so a rewrite that
  changes the rune count breaks the body invariant, and the next `spliceText` may slice past
  the end of the body (`closePost_error_breaks_len`);
* `closePost_filter_splice`: the full-range splice carries `len(c.post.body)`, the body's byte
  count, where splice coordinates count runes; a subscriber's replica reaches the rewritten
  body exactly when the old body is ASCII.
-/

namespace Shamichan

open Utf8

/-- A link `parser.ParseBody` found: the post it points to and that post's thread. -/
structure Link where
  id : Nat
  op : Nat
  deriving DecidableEq, Repr

/-- What `closePost` gets from outside `post_updates.go` in one call. -/
structure CloseAnswers where
  /-- `parser.RegisterFilter(op, body)` -/
  registerFilter : Bool
  /-- `parser.ApplyFilters(op, &body)`: the body it leaves, and whether it reports a change -/
  applyFilters : List Nat × Bool
  /-- `parser.ParseBody(body, board, op, id, ip, false)`: the links and the commands, the
  latter by their text, or the error -/
  parseBody : Except Error (List Link × List String)
  /-- `db.TransferImage(from, id, op)`: the image taken over, as `EncodeMessage` writes it -/
  transferImage : Except Error (Option (List Nat))
  /-- `db.ClosePost(id, op, string(body), links, com)` -/
  closePost : Option Error

/-- What `closePost` does besides changing the post, in order. -/
inductive CloseEffect where
  /-- an effect the editing handlers have too: the filtered body to the feed, the image score -/
  | effect (e : Effect)
  /-- `c.feed.Send` of `MessageStoleImageFrom` with the post the image was taken from -/
  | stoleImageFrom (source : Nat)
  /-- `c.feed.Send` of `MessageStoleImageTo` with the post and the image -/
  | stoleImageTo (id : Nat) (image : List Nat)
  /-- `db.ClosePost(id, op, string(body), links, com)` -/
  | dbClosePost (id op : Nat) (body : List Nat) (links : List Link) (com : List String)
  deriving DecidableEq, Repr

/-- The post after `closePost`, its effects, and the error it returned, if any. -/
structure CloseOutcome where
  post : OpenPost
  effects : List CloseEffect
  err : Option Error
  deriving DecidableEq, Repr

/-- `openPost{}`, the client's post once it is closed. -/
def OpenPost.closed : OpenPost := ⟨0, 0, 0, 0, [], "", false⟩

/-- The bytes of `"#steal"`. -/
def stealCommand : List Nat := [0x23, 0x73, 0x74, 0x65, 0x61, 0x6C]

/-- The filters of `closePost`: unless `RegisterFilter` took the body, `ApplyFilters`
rewrites it in place, and a change goes to the feed as the splice of the whole body, its
length `len(c.post.body)` taken before the rewrite. `len` and `lines` are left alone. -/
def applyFilter (p : OpenPost) (a : CloseAnswers) : OpenPost × List CloseEffect :=
  if a.registerFilter then (p, []) else
  let q := { p with body := a.applyFilters.1 }
  (q, if a.applyFilters.2 then
      [.effect (.feedSetOpenBody p.id q.body (.splice ⟨⟨⟨0, p.body.length⟩, q.body⟩, p.id⟩))]
    else [])

/-- The image theft of `closePost`: on board `a`, a body with links that contains `#steal`
takes the image of the last post it links (the list is not empty there). -/
def stealImage (imageScore : Nat) (p : OpenPost) (links : List Link) (a : CloseAnswers) :
    Except Error (List CloseEffect) :=
  if p.board = "a" ∧ links ≠ [] ∧ stealCommand <:+: p.body then
    match a.transferImage with
    | .error e => .error e
    | .ok none => .ok []
    | .ok (some img) =>
      .ok [.effect (.spam imageScore), .stoleImageFrom (links.getLastD ⟨0, 0⟩).id,
        .stoleImageTo p.id img]
  else .ok []

/-- The end of `closePost`: `db.ClosePost`, and on success the post reset to `openPost{}`. -/
def closeWith (p : OpenPost) (fx : List CloseEffect) (links : List Link) (com : List String)
    (a : CloseAnswers) : CloseOutcome :=
  let fx := fx ++ [.dbClosePost p.id p.op p.body links com]
  match a.closePost with
  | some e => ⟨p, fx, some e⟩
  | none => ⟨OpenPost.closed, fx, none⟩

/-- `Client.closePost`, with `imageScore` the value of `config.Get().ImageScore`. -/
def closePost (imageScore : Nat) (p : OpenPost) (a : CloseAnswers) : CloseOutcome :=
  if p.id = 0 then ⟨p, [], some .noPostOpen⟩ else
  if p.len = 0 then closeWith p [] [] [] a else
  match applyFilter p a with
  | (p, fx) =>
  match a.parseBody with
  | .error e => ⟨p, fx, some e⟩
  | .ok (links, com) =>
  match stealImage imageScore p links a with
  | .error e => ⟨p, fx, some e⟩
  | .ok sx => closeWith p (fx ++ sx) links com a

/-! ## A failed close keeps the filtered body -/

theorem applyFilter_post (p : OpenPost) (a : CloseAnswers) :
    (applyFilter p a).1 = if a.registerFilter then p else { p with body := a.applyFilters.1 } := by
  unfold applyFilter; split_ifs <;> rfl

theorem closeWith_effects (p : OpenPost) (fx : List CloseEffect) (links : List Link)
    (com : List String) (a : CloseAnswers) :
    (closeWith p fx links com a).effects = fx ++ [.dbClosePost p.id p.op p.body links com] := by
  unfold closeWith; split <;> rfl

theorem closeWith_post {p : OpenPost} {fx : List CloseEffect} {links : List Link}
    {com : List String} {a : CloseAnswers} (herr : (closeWith p fx links com a).err ≠ none) :
    (closeWith p fx links com a).post = p := by
  unfold closeWith at herr ⊢
  cases hc : a.closePost
  · rw [hc] at herr; exact absurd rfl herr
  · rfl

/-- Past the filters, `closePost` only appends effects to theirs, and a failure keeps the post
the filters left. -/
theorem closePost_after_filter {s : Nat} {p : OpenPost} {a : CloseAnswers} (hid : p.id ≠ 0)
    (hlen : p.len ≠ 0) :
    (∃ rest, (closePost s p a).effects = (applyFilter p a).2 ++ rest) ∧
      ((closePost s p a).err ≠ none → (closePost s p a).post = (applyFilter p a).1) := by
  unfold closePost
  rw [if_neg hid, if_neg hlen]
  generalize applyFilter p a = r
  obtain ⟨q, fx⟩ := r
  dsimp only
  split
  · exact ⟨⟨[], (List.append_nil _).symm⟩, fun _ => rfl⟩
  · split
    · exact ⟨⟨[], (List.append_nil _).symm⟩, fun _ => rfl⟩
    · exact ⟨⟨_, by rw [closeWith_effects, List.append_assoc]⟩, closeWith_post⟩

/-- **A close that fails leaves the filtered body with the old counts.** When `closePost`
returns an error for an open post, the post stays open with the body the filters left (the
old one when `RegisterFilter` took it or the body is empty) and the `len` and `lines` it had:
nothing recounts them after `ApplyFilters`. -/
theorem closePost_error_post {s : Nat} {p : OpenPost} {a : CloseAnswers} (hid : p.id ≠ 0)
    (herr : (closePost s p a).err ≠ none) :
    (closePost s p a).post =
      if p.len ≠ 0 ∧ a.registerFilter = false then { p with body := a.applyFilters.1 } else p := by
  by_cases hl : p.len = 0
  · unfold closePost at herr ⊢
    rw [if_neg hid, if_pos hl] at herr ⊢
    rw [if_neg (fun h => h.1 hl)]
    exact closeWith_post herr
  · rw [(closePost_after_filter hid hl).2 herr, applyFilter_post]
    cases a.registerFilter <;> simp [hl]

/-- A post `"ab"`, which the filters turn into `"a"` before the parser fails: `closePost`
returns the parser's error and leaves `"a"` with `len` 2, and a splice at rune 2, which the
coordinate check lets through, panics slicing `old[2:]` of the one-rune body. -/
theorem closePost_error_breaks_len :
    (closePost 0 ⟨1, 1, 2, 0, [97, 98], "a", false⟩
        ⟨false, ([97], true), .error (.external "parse"), .ok none, none⟩).err =
        some (.external "parse") ∧
      (closePost 0 ⟨1, 1, 2, 0, [97, 98], "a", false⟩
        ⟨false, ([97], true), .error (.external "parse"), .ok none, none⟩).post =
        ⟨1, 1, 2, 0, [97], "a", false⟩ ∧
      (decodeRunes [97]).length ≠ 2 ∧
      spliceError Config.sample ⟨1, 1, 2, 0, [97], "a", false⟩
        (SpliceRequest.unmarshal ⟨⟨2, 0⟩, [120]⟩) = none ∧
      (spliceText Config.sample ⟨1, 1, 2, 0, [97], "a", false⟩ (.ok ⟨⟨2, 0⟩, [120]⟩) none).exit =
        .panic := by
  decide

/-! ## The splice of the filtered body -/

/-- A subscriber reading the full-range splice of `closePost` on the runes of a valid body:
the splice replaces the whole body exactly when its byte count is its rune count, that is
when the body is ASCII; otherwise it reaches past the runes and is refused. -/
theorem applyMessage_filterSplice (rs : List Int) (id : Nat) (body : List Nat) :
    applyMessage rs (.splice ⟨⟨⟨0, (encodeString rs).length⟩, body⟩, id⟩) =
        some (decodeRunes body) ↔ ∀ r ∈ rs, 0 ≤ r ∧ r < 0x80 := by
  have hle := length_le_length_encodeString rs
  rw [← length_encodeString_eq_iff]
  unfold applyMessage
  dsimp only
  split_ifs with h
  · rw [List.take_zero, List.nil_append, List.drop_of_length_le (by omega), List.append_nil]
    exact ⟨fun _ => by omega, fun _ => rfl⟩
  · exact ⟨nofun, fun _ => by omega⟩

/-- **The filter splice counts bytes.** For an open post that satisfies the body invariant
and a rewrite the filters report as a change, the first thing `closePost` does is hand the
feed the splice `{start: 0, len: len(c.post.body), text: newBody}`, `len` the byte count of the
old body; applied as a rune splice to the runes of the old body it gives the rewritten body
exactly when the old body is ASCII. -/
theorem closePost_filter_splice {cfg : Config} {p : OpenPost} (h : BodyInv cfg p)
    {a : CloseAnswers} (hid : p.id ≠ 0) (hlen : p.len ≠ 0) (hreg : a.registerFilter = false)
    (hch : a.applyFilters.2 = true) (imageScore : Nat) :
    (closePost imageScore p a).effects.head? =
        some (.effect (.feedSetOpenBody p.id a.applyFilters.1
          (.splice ⟨⟨⟨0, p.body.length⟩, a.applyFilters.1⟩, p.id⟩))) ∧
      (applyMessage (decodeRunes p.body) (.splice ⟨⟨⟨0, p.body.length⟩, a.applyFilters.1⟩, p.id⟩) =
          some (decodeRunes a.applyFilters.1) ↔
        ∀ r ∈ decodeRunes p.body, 0 ≤ r ∧ r < 0x80) := by
  obtain ⟨rs, hb, hrs, -, -⟩ := h.runes
  have hv : ∀ r ∈ rs, ValidRune r := fun r hr => (hrs r hr).1
  refine ⟨?_, ?_⟩
  · obtain ⟨rest, he⟩ := (closePost_after_filter (s := imageScore) (a := a) hid hlen).1
    rw [he]; simp [applyFilter, hreg, hch]
  · rw [hb, decodeRunes_encodeString hv]
    exact applyMessage_filterSplice rs p.id _

/-- The post `"é"`, rewritten by the filters to `"x"`: the splice says `len` 2 of a one-rune
replica, and the subscriber cannot apply it. -/
theorem closePost_filter_splice_sample :
    BodyInv Config.sample ⟨1, 1, 1, 0, [0xC3, 0xA9], "a", false⟩ ∧ (1 : Nat) ≠ 0 ∧
      (1 : Int) ≠ 0 ∧
      (⟨false, ([120], true), .ok ([], []), .ok none, none⟩ : CloseAnswers).registerFilter =
        false ∧
      (⟨false, ([120], true), .ok ([], []), .ok none, none⟩ : CloseAnswers).applyFilters.2 =
        true ∧
      ((closePost 0 ⟨1, 1, 1, 0, [0xC3, 0xA9], "a", false⟩
          ⟨false, ([120], true), .ok ([], []), .ok none, none⟩).effects.head? =
          some (.effect (.feedSetOpenBody 1 [120] (.splice ⟨⟨⟨0, 2⟩, [120]⟩, 1⟩))) ∧
        (applyMessage (decodeRunes [0xC3, 0xA9]) (.splice ⟨⟨⟨0, 2⟩, [120]⟩, 1⟩) =
            some (decodeRunes [120]) ↔
          ∀ r ∈ decodeRunes [0xC3, 0xA9], 0 ≤ r ∧ r < 0x80)) :=
  have h : BodyInv Config.sample ⟨1, 1, 1, 0, [0xC3, 0xA9], "a", false⟩ :=
    BodyInv.of_runes (show [0xC3, 0xA9] = encodeString [0xE9] from rfl) (by decide) rfl
      (by decide)
  ⟨h, by decide, by decide, rfl, rfl,
    closePost_filter_splice (a := ⟨false, ([120], true), .ok ([], []), .ok none, none⟩) h
      (by decide) (by decide) rfl rfl 0⟩

example : applyMessage (decodeRunes [0xC3, 0xA9]) (.splice ⟨⟨⟨0, 2⟩, [120]⟩, 1⟩) = none := by
  decide

end Shamichan

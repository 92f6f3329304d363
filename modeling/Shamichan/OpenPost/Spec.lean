import Shamichan.OpenPost

/-!
# Shamichan — what each open-post handler can do

One lemma per handler says every way a call can end, so that the invariants and the
refinement are proved without unfolding a handler again:

* `appendRune_cases`, `backspace_cases`, `spliceText_cases`: a call either leaves body and
  length alone, hands nothing on, does not panic and returns `nil` only when no post is open,
  or it passed every check and is the edit itself;
* `backspace_eq`: on a body that ends in `string(r)`, the edit removes exactly those bytes;
* `spliceEdit_eq`: on the encoding of runes `rs`, the byte-level edit of `spliceText` keeps
  `rs[:start]` and writes the tail `spliceTail`, trimmed at `MaxLenBody`, with the message
  `spliceResult`;
* `insertImage_post`, `spoilerImage_post`: the image handlers change at most the spoiler flag.
-/

namespace Shamichan

open Utf8

/-! ## Slices in range -/

theorem sliceTo_of_le {α : Type} {s : List α} {i : Int} (h0 : 0 ≤ i) (h : i ≤ s.length) :
    sliceTo s i = some (s.take i.toNat) := by
  unfold sliceTo; rw [if_pos ⟨h0, h⟩]

theorem sliceFrom_of_le {α : Type} {s : List α} {i : Int} (h0 : 0 ≤ i) (h : i ≤ s.length) :
    sliceFrom s i = some (s.drop i.toNat) := by
  unfold sliceFrom; rw [if_pos ⟨h0, h⟩]

theorem sliceTo_append_length {α : Type} (a b : List α) : sliceTo (a ++ b) a.length = some a := by
  rw [sliceTo_of_le (by omega) (by simp only [List.length_append]; omega), Int.toNat_ofNat,
    List.take_left]

/-- `byteStartPos` of scalar values is the byte length of their encoding. -/
theorem byteStartPos_eq {rs : List Int} (h : ∀ r ∈ rs, ValidRune r) :
    byteStartPos rs = (encodeString rs).length := by
  induction rs with
  | nil => rfl
  | cons r rs ih =>
    simp only [List.forall_mem_cons] at h
    simp only [byteStartPos, List.map_cons, List.sum_cons] at ih ⊢
    rw [ih h.2, runeLen_eq_length_encodeRune h.1, encodeString_cons, List.length_append]
    omega

@[simp] theorem updateBody_post (cfg : Config) (p : OpenPost) (msg : Message) (n : Nat)
    (store : Option Error) : (updateBody cfg p msg n store).post = p := rfl

@[simp] theorem updateBody_exit (cfg : Config) (p : OpenPost) (msg : Message) (n : Nat)
    (store : Option Error) : (updateBody cfg p msg n store).exit = .ret store := rfl

section Handlers

variable (cfg : Config)

/-! ## `appendRune` -/

/-- Every way `appendRune` can end: nothing happens, and a call that returns `nil` so found no
post open; or a newline was counted and then refused, leaving the raised count behind; or the
rune passed every check and its encoding is appended. -/
theorem appendRune_cases (p : OpenPost) (data : Except Error Int) (store : Option Error) :
    ((appendRune cfg p data store).post = p ∧ (appendRune cfg p data store).effects = [] ∧
      (appendRune cfg p data store).exit ≠ .panic ∧
      ((appendRune cfg p data store).exit = .ret none → cfg.hasPost p = .ok false)) ∨
    (data = .ok 10 ∧ (appendRune cfg p data store).post = { p with lines := p.lines + 1 } ∧
      (appendRune cfg p data store).effects = [] ∧
      ∃ e, (appendRune cfg p data store).exit = .ret (some e)) ∨
    ∃ char, data = .ok char ∧ cfg.hasPost p = .ok true ∧ p.len + 1 ≤ cfg.maxLenBody ∧
      char ≠ 0 ∧ (char = 10 → p.lines + 1 ≤ cfg.maxLinesBody) ∧
      cfg.isPrintable char true = none ∧
      appendRune cfg p data store =
        updateBody cfg
          { p with
            body := p.body ++ encodeRune char
            len := p.len + 1
            lines := if char = 10 then p.lines + 1 else p.lines }
          (.append p.id (toUint64 char)) 1 store := by
  unfold appendRune
  split
  · exact .inl ⟨rfl, rfl, nofun, nofun⟩
  · exact .inl ⟨rfl, rfl, nofun, fun _ => ‹_›⟩
  next hp =>
  split
  · exact .inl ⟨rfl, rfl, nofun, nofun⟩
  split
  · exact .inl ⟨rfl, rfl, nofun, nofun⟩
  next char =>
  by_cases h0 : char = 0
  · rw [if_pos h0]; exact .inl ⟨rfl, rfl, nofun, nofun⟩
  rw [if_neg h0]
  by_cases hnl : char = 10
  · subst hnl
    simp only [if_true, true_and]
    split
    · exact .inr (.inl ⟨rfl, rfl, _, rfl⟩)
    split
    · exact .inr (.inl ⟨rfl, rfl, _, rfl⟩)
    next hpr => exact .inr (.inr ⟨10, rfl, hp, by omega, h0, by omega, hpr, rfl⟩)
  · simp only [hnl, if_false, false_and]
    split
    · exact .inl ⟨rfl, rfl, nofun, nofun⟩
    next hpr =>
      exact .inr (.inr ⟨char, rfl, hp, by omega, h0, by omega, hpr, by rw [if_neg hnl]⟩)

/-! ## `backspace` -/

/-- Every way `backspace` can end: nothing happens, and a call that returns `nil` so found no
post open; or the client has a post open with a nonempty body and the edit goes ahead. -/
theorem backspace_cases (p : OpenPost) (store : Option Error) :
    ((backspace cfg p store).post = p ∧ (backspace cfg p store).effects = [] ∧
      (backspace cfg p store).exit ≠ .panic ∧
      ((backspace cfg p store).exit = .ret none → cfg.hasPost p = .ok false)) ∨
    (cfg.hasPost p = .ok true ∧ p.len ≠ 0) := by
  unfold backspace
  split
  · exact .inl ⟨rfl, rfl, nofun, nofun⟩
  · exact .inl ⟨rfl, rfl, nofun, fun _ => ‹_›⟩
  next hp =>
  by_cases hl : p.len = 0
  · rw [if_pos hl]; exact .inl ⟨rfl, rfl, nofun, nofun⟩
  · exact .inr ⟨hp, hl⟩

/-- **`backspace` on a body ending in `string(r)`** cuts exactly those bytes, and lowers the
line count when `r` is a newline. -/
theorem backspace_eq {p : OpenPost} {rs : List Int} {r : Int} (hp : cfg.hasPost p = .ok true)
    (hl : p.len ≠ 0) (hb : p.body = encodeString (rs ++ [r])) (hr : ValidRune r)
    (store : Option Error) :
    backspace cfg p store =
      updateBody cfg
        { p with
          body := encodeString rs
          lines := if r = 10 then p.lines - 1 else p.lines
          len := p.len - 1 }
        (.backspace p.id) 1 store := by
  have hb' : p.body = encodeString rs ++ encodeRune r := by simpa using hb
  have hlast : decodeLastRune p.body = (r, (encodeRune r).length) := by
    rw [hb']; exact decodeLastRune_append_encodeRune _ hr
  have hslice : sliceTo p.body (p.body.length - (decodeLastRune p.body).2) =
      some (encodeString rs) := by
    rw [hlast, hb', show ((encodeString rs ++ encodeRune r).length : Int) -
      ((r, (encodeRune r).length).2 : Nat) = (encodeString rs).length by simp]
    exact sliceTo_append_length _ _
  unfold backspace
  rw [hp]
  simp only [if_neg hl]
  rw [hslice]
  simp only [hlast]

/-! ## `spliceText` -/

/-- Every way `spliceText` can end: nothing happens, and a call that returns `nil` so found no
post open; or the decoded request passed every check and `spliceEdit` runs. -/
theorem spliceText_cases (p : OpenPost) (data : Except Error SpliceRequestString)
    (store : Option Error) :
    ((spliceText cfg p data store).post = p ∧ (spliceText cfg p data store).effects = [] ∧
      (spliceText cfg p data store).exit ≠ .panic ∧
      ((spliceText cfg p data store).exit = .ret none → cfg.hasPost p = .ok false)) ∨
    ∃ wire, data = .ok wire ∧ cfg.hasPost p = .ok true ∧
      cfg.isPrintableRunes (SpliceRequest.unmarshal wire).text true = none ∧
      spliceError cfg p (SpliceRequest.unmarshal wire) = none ∧
      spliceText cfg p data store = spliceEdit cfg p (SpliceRequest.unmarshal wire) store := by
  unfold spliceText
  split
  · exact .inl ⟨rfl, rfl, nofun, nofun⟩
  · exact .inl ⟨rfl, rfl, nofun, fun _ => ‹_›⟩
  next hp =>
  split
  · exact .inl ⟨rfl, rfl, nofun, nofun⟩
  next wire =>
  dsimp only
  split
  · exact .inl ⟨rfl, rfl, nofun, nofun⟩
  next hpr =>
  split
  · exact .inl ⟨rfl, rfl, nofun, nofun⟩
  next herr => exact .inr ⟨wire, rfl, hp, hpr, herr, rfl⟩

/-- What `spliceError` lets through. -/
theorem spliceError_eq_none {p : OpenPost} {req : SpliceRequest}
    (h : spliceError cfg p req = none) :
    req.start + req.len ≤ p.len ∧ ¬(req.len = 0 ∧ req.text = []) ∧
      req.text.length ≤ cfg.maxLenBody ∧ 0 ∉ req.text := by
  unfold spliceError at h
  split_ifs at h with h1 h2 h3 h4
  exact ⟨by omega, by simpa using h2, by omega, h4⟩

/-! ## The rune-level splice

`spliceEdit` works on bytes: it decodes the body, builds the runes from `start` on, and glues
their encoding to the first `byteStartPos` bytes. On the encoding of scalar values this is the
rune-level replacement `rs[:start] ++ text ++ rs[start+len:]` cut at `MaxLenBody`. -/

/-- The runes a valid splice leaves from `start` on: the new text, then the runes after the
replaced ones, cut so that the body holds at most `MaxLenBody` runes. -/
def spliceTail (rs : List Int) (req : SpliceRequest) : List Int :=
  (req.text ++ rs.drop (req.start + req.len)).take (cfg.maxLenBody - req.start)

/-- The message a valid splice broadcasts: the request, or, when the result would exceed
`MaxLenBody`, the replacement of everything from `start` on by the kept tail. -/
def spliceResult (id : Nat) (rs : List Int) (req : SpliceRequest) : SpliceMessage :=
  if cfg.maxLenBody < rs.length - req.len + req.text.length then
    ⟨⟨⟨req.start, rs.length - req.start⟩, encodeString (spliceTail cfg rs req)⟩, id⟩
  else ⟨⟨req.toSpliceCoords, encodeString req.text⟩, id⟩

theorem trimEnd_of_le {old end_ : List Int} {len : Int} {start : Nat} {res : SpliceMessage}
    (h : len ≤ cfg.maxLenBody) : trimEnd cfg old end_ len start res = some (end_, len, res) := by
  unfold trimEnd; rw [if_neg (by omega)]; rfl

theorem trimEnd_of_gt {old end_ : List Int} {len : Int} {start : Nat} {res : SpliceMessage}
    (h : (cfg.maxLenBody : Int) < len) (h1 : len - cfg.maxLenBody ≤ end_.length)
    (h2 : start ≤ old.length) :
    trimEnd cfg old end_ len start res =
      some (end_.take (end_.length - (len - cfg.maxLenBody)).toNat, (cfg.maxLenBody : Int),
        { res with
          len := old.length - start
          text := encodeString (end_.take (end_.length - (len - cfg.maxLenBody)).toNat) }) := by
  unfold trimEnd
  rw [if_pos (by omega), sliceTo_of_le (by omega) (by omega)]
  simp only [Option.bind_eq_bind, Option.some_bind]
  rw [sliceFrom_of_le (by omega) (by omega)]
  simp [Int.toNat_ofNat]

theorem encodeString_take_append_drop (rs : List Int) (n : Nat) :
    encodeString rs = encodeString (rs.take n) ++ encodeString (rs.drop n) := by
  rw [← encodeString_append, List.take_append_drop]

/-- **The byte-level edit of `spliceText` is the rune-level splice.** On a body that encodes
scalar values `rs`, with `start + len` within them, the new body encodes
`rs[:start] ++ spliceTail`, its length is counted in runes, its lines are recounted, and the
message is `spliceResult`. -/
theorem spliceEdit_eq {p : OpenPost} {rs : List Int} {req : SpliceRequest}
    (hb : p.body = encodeString rs) (hrs : ∀ r ∈ rs, ValidRune r) (hl : p.len = rs.length)
    (hs : req.start + req.len ≤ rs.length) (hmax : rs.length ≤ cfg.maxLenBody)
    (store : Option Error) :
    spliceEdit cfg p req store =
      let body := encodeString (rs.take req.start ++ spliceTail cfg rs req)
      let q := { p with
        body
        len := req.start + (spliceTail cfg rs req).length
        lines := (body.count 10 : Nat) }
      if q.lines > (cfg.maxLinesBody : Int) then .fail q .tooManyLines
      else updateBody cfg q (.splice (spliceResult cfg p.id rs req))
        ((spliceResult cfg p.id rs req).text.length + 1) store := by
  have hold : decodeRunes p.body = rs := by rw [hb]; exact decodeRunes_encodeString hrs
  have hpre : byteStartPos (rs.take req.start) = (encodeString (rs.take req.start)).length :=
    byteStartPos_eq (fun r hr => hrs r (List.mem_of_mem_take hr))
  have hhead : sliceTo p.body (encodeString (rs.take req.start)).length =
      some (encodeString (rs.take req.start)) := by
    rw [hb, encodeString_take_append_drop rs req.start]; exact sliceTo_append_length _ _
  have hend : (req.text ++ rs.drop (req.start + req.len)).length =
      req.text.length + (rs.length - (req.start + req.len)) := by simp
  have htrim : trimEnd cfg rs (req.text ++ rs.drop (req.start + req.len))
      (p.len - req.len + req.text.length) req.start
      ⟨⟨req.toSpliceCoords, encodeString req.text⟩, p.id⟩ =
      some (spliceTail cfg rs req, (req.start : Int) + (spliceTail cfg rs req).length,
        spliceResult cfg p.id rs req) := by
    by_cases hover : cfg.maxLenBody < rs.length - req.len + req.text.length
    · have hkeep : (((req.text.length + (rs.length - (req.start + req.len)) : Nat) : Int) -
          (p.len - req.len + req.text.length - cfg.maxLenBody)).toNat =
          cfg.maxLenBody - req.start := by omega
      rw [trimEnd_of_gt cfg (by omega) (by omega) (by omega), hend, hkeep]
      simp only [spliceResult, if_pos hover, spliceTail, List.length_take, hend,
        Option.some.injEq, Prod.mk.injEq, true_and, and_true]
      omega
    · rw [trimEnd_of_le cfg (by omega)]
      simp only [spliceResult, if_neg hover, spliceTail, List.length_take, hend]
      rw [List.take_of_length_le (by omega)]
      simp only [Option.some.injEq, Prod.mk.injEq, true_and, and_true]
      omega
  unfold spliceEdit
  simp only [hold]
  rw [sliceFrom_of_le (by omega) (by omega),
    show ((req.start : Int) + req.len).toNat = req.start + req.len by omega]
  simp only
  rw [htrim]
  simp only
  rw [sliceTo_of_le (by omega) (by omega), Int.toNat_ofNat]
  simp only
  rw [hpre, hhead]
  simp only [encodeString_append]

/-! ## The image handlers -/

theorem hasImage_post (p : OpenPost) (answer : Except Error Bool) :
    (hasImage p answer).1 = { p with isSpoilered := (hasImage p answer).1.isSpoilered } := by
  unfold hasImage; split <;> rfl

/-- `insertImage` changes at most the spoiler flag of the post, and never panics. -/
theorem insertImage_post (p : OpenPost) (image : Except Error Bool)
    (data : Except Error ImageRequest) (tx : Except Error (List Nat)) :
    (insertImage cfg p image data tx).post =
        { p with isSpoilered := (insertImage cfg p image data tx).post.isSpoilered } ∧
      (insertImage cfg p image data tx).exit ≠ .panic := by
  unfold insertImage
  have hq := hasImage_post p image
  generalize hasImage p image = r at hq ⊢
  obtain ⟨q, a | _ | _⟩ := r
  all_goals dsimp only at hq ⊢
  all_goals repeat' split
  all_goals simp [Outcome.after, Outcome.fail, Outcome.done]
  all_goals first | exact hq | (rw [hq]; simp)

/-- `spoilerImage` changes at most the spoiler flag of the post, and never panics. -/
theorem spoilerImage_post (p : OpenPost) (image : Except Error Bool) (store : Option Error) :
    (spoilerImage cfg p image store).post =
        { p with isSpoilered := (spoilerImage cfg p image store).post.isSpoilered } ∧
      (spoilerImage cfg p image store).exit ≠ .panic := by
  unfold spoilerImage
  have hq := hasImage_post p image
  generalize hasImage p image = r at hq ⊢
  obtain ⟨q, a | _ | _⟩ := r
  all_goals dsimp only at hq ⊢
  all_goals repeat' split
  all_goals simp [Outcome.after, Outcome.fail, Outcome.done]
  all_goals exact hq

end Handlers

/-! ## A configuration to evaluate the handlers on -/

/-- Bodies of at most 8 runes and 2 lines, a post open whenever its id is set, and the scalar
values other than NUL printable. -/
def Config.sample : Config where
  maxLenBody := 8
  maxLinesBody := 2
  charScore := 1
  hasPost p := if p.id = 0 then .error .noPostOpen else .ok true
  isPrintable r _ := if ValidRune r ∧ r ≠ 0 then none else some (.external "non-printable")
  isPrintableRunes rs _ :=
    if ∀ r ∈ rs, ValidRune r ∧ r ≠ 0 then none else some (.external "non-printable")
  textOnly _ := false
  formatImageName name := name

end Shamichan

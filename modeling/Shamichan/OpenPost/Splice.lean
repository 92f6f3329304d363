import Shamichan.OpenPost.Body

/-!
# Shamichan — `spliceText` on runes and its spam charge

The spec states a splice on runes: `splice(body, s, l, t)` is `body[0:s] + t + body[s+l:]`,
cut to `MaxLenBody` runes (`spliceRunes`). `spliceText` edits bytes: it decodes the body, sums
`utf8.RuneLen` over `old[:start]` for a byte offset, and writes the encoding of the new tail
there. On every body that satisfies the body invariant the two agree:

* `spliceText_runes`: a splice that returns `nil` found no post open, or left a body that
  decodes to `spliceRunes`, with `len` its length (`min(MaxLenBody, oldLen - len + |text|)`),
  `lines` its newline count, and the byte offset the width of `old[:start]`;
* `spliceText_spam_bytes`: the spam charge is `len(res.Text) + 1` characters with `res.Text` a
  Go string, so it counts the bytes of the broadcast text; that is its number of runes exactly
  when the text is ASCII.
-/

namespace Shamichan

open Utf8

/-- The splice as the spec states it, on runes: `old[0:start] ++ text ++ old[start+len:]`,
cut to `MaxLenBody` runes. -/
def spliceRunes (maxLen : Nat) (old : List Int) (req : SpliceRequest) : List Int :=
  (old.take req.start ++ req.text ++ old.drop (req.start + req.len)).take maxLen

/-- The spam score of an effect: what `incrementSpamScore` adds. -/
def Effect.score : Effect → Nat
  | .spam n => n
  | _ => 0

/-- The spam score a call adds in all. -/
def Outcome.spamScore (o : Outcome) : Nat := (o.effects.map Effect.score).sum

variable (cfg : Config)

/-- The runes `spliceEdit` keeps are the spec's splice: the untouched prefix, then the tail
cut at `MaxLenBody - start`. -/
theorem take_append_spliceTail {rs : List Int} {req : SpliceRequest}
    (hs : req.start ≤ rs.length) (hmax : req.start ≤ cfg.maxLenBody) :
    rs.take req.start ++ spliceTail cfg rs req = spliceRunes cfg.maxLenBody rs req := by
  have hlen : (rs.take req.start).length = req.start := List.length_take_of_le hs
  rw [spliceRunes, List.append_assoc, List.take_append_eq_append_take, hlen, List.take_take,
    Nat.min_eq_right hmax, spliceTail]

/-- The runes a splice keeps from `start` on are scalar values when the body's and the text's
are. -/
theorem validRune_of_mem_spliceTail {rs : List Int} {req : SpliceRequest}
    (hrs : ∀ r ∈ rs, ValidRune r) (ht : ∀ r ∈ req.text, ValidRune r) {r : Int}
    (hr : r ∈ spliceTail cfg rs req) : ValidRune r := by
  rcases List.mem_append.1 (List.mem_of_mem_take hr) with h | h
  exacts [ht r h, hrs r (List.mem_of_mem_drop h)]

/-- The text a valid splice broadcasts is the encoding of scalar values. -/
theorem spliceResult_text {rs : List Int} {req : SpliceRequest} (id : Nat)
    (hrs : ∀ r ∈ rs, ValidRune r) (ht : ∀ r ∈ req.text, ValidRune r) :
    ∃ t, (∀ r ∈ t, ValidRune r) ∧ (spliceResult cfg id rs req).text = encodeString t := by
  unfold spliceResult
  split_ifs
  · exact ⟨_, fun _ => validRune_of_mem_spliceTail cfg hrs ht, rfl⟩
  · exact ⟨_, ht, rfl⟩

variable {cfg}

/-- A splice that passed its checks and returns `nil`: the post is the one `spliceEdit_eq`
builds, and the call is `updateBody` of it with the message `spliceResult`. -/
theorem spliceEdit_ok {p : OpenPost} {rs : List Int} {req : SpliceRequest} {store : Option Error}
    (hb : p.body = encodeString rs) (hrs : ∀ r ∈ rs, ValidRune r) (hl : p.len = rs.length)
    (hs : req.start + req.len ≤ rs.length) (hmax : rs.length ≤ cfg.maxLenBody)
    (hok : (spliceEdit cfg p req store).exit = .ret none) :
    spliceEdit cfg p req store =
      updateBody cfg
        { p with
          body := encodeString (rs.take req.start ++ spliceTail cfg rs req)
          len := req.start + (spliceTail cfg rs req).length
          lines := ((encodeString (rs.take req.start ++ spliceTail cfg rs req)).count 10 : Nat) }
        (.splice (spliceResult cfg p.id rs req)) ((spliceResult cfg p.id rs req).text.length + 1)
        store := by
  rw [spliceEdit_eq cfg hb hrs hl hs hmax] at hok ⊢
  dsimp only at hok ⊢
  split_ifs at hok ⊢
  · cases hok
  · rfl

/-- **`spliceText` is the rune-level splice.** On a post that satisfies the body invariant, a
splice that returns `nil` either found no post open and changed nothing, or left a body that
decodes to `old[0:start] ++ text ++ old[start+len:]` cut to `MaxLenBody` runes, with `len` the
length of that sequence, `min(MaxLenBody, oldLen - len + |text|)`, and `lines` its newline
count; the byte offset summed from `RuneLen` is the width of `old[:start]`. -/
theorem spliceText_runes {p : OpenPost} (h : BodyInv cfg p) {wire : SpliceRequestString}
    {store : Option Error} (hs : (spliceText cfg p (.ok wire) store).exit = .ret none) :
    (cfg.hasPost p = .ok false ∧ (spliceText cfg p (.ok wire) store).post = p) ∨
      decodeRunes (spliceText cfg p (.ok wire) store).post.body =
          spliceRunes cfg.maxLenBody (decodeRunes p.body) (.unmarshal wire) ∧
        (spliceText cfg p (.ok wire) store).post.len =
          (spliceRunes cfg.maxLenBody (decodeRunes p.body) (.unmarshal wire)).length ∧
        (spliceText cfg p (.ok wire) store).post.len =
          min (cfg.maxLenBody : Int)
            (p.len - (SpliceRequest.unmarshal wire).len + (SpliceRequest.unmarshal wire).text.length) ∧
        (spliceText cfg p (.ok wire) store).post.lines =
          (spliceRunes cfg.maxLenBody (decodeRunes p.body) (.unmarshal wire)).count 10 ∧
        byteStartPos ((decodeRunes p.body).take (SpliceRequest.unmarshal wire).start) =
          (encodeString ((decodeRunes p.body).take (SpliceRequest.unmarshal wire).start)).length := by
  rcases spliceText_cases cfg p (.ok wire) store with ⟨hpost, -, -, hd⟩ | ⟨_, ⟨⟩, -, -, herr, he⟩
  · exact .inl ⟨hd hs, hpost⟩
  obtain ⟨hst, -, htl, -⟩ := spliceError_eq_none cfg herr
  obtain ⟨rs, hb, hrs, hl, hmax⟩ := h.runes
  have hv : ∀ r ∈ rs, ValidRune r := fun r hr => (hrs r hr).1
  have ht : ∀ r ∈ (SpliceRequest.unmarshal wire).text, ValidRune r :=
    fun r hr => validRune_of_mem_decodeRunes hr
  have hold : decodeRunes p.body = rs := by rw [hb]; exact decodeRunes_encodeString hv
  -- the new runes are scalar values: the kept prefix, the text and the kept rest
  have hnew : ∀ r ∈ rs.take (SpliceRequest.unmarshal wire).start ++
      spliceTail cfg rs (SpliceRequest.unmarshal wire), ValidRune r := fun r hr =>
    (List.mem_append.1 hr).elim (fun h => hv r (List.mem_of_mem_take h))
      (validRune_of_mem_spliceTail cfg hv ht)
  rw [he] at hs ⊢
  rw [spliceEdit_ok hb hv hl (by omega) hmax hs, updateBody_post, hold,
    ← take_append_spliceTail cfg (by omega) (by omega)]
  refine .inr ⟨decodeRunes_encodeString hnew, ?_, ?_, congrArg _ (count_newline_encodeString _),
    byteStartPos_eq fun r hr => hv r (List.mem_of_mem_take hr)⟩
  · simp only [List.length_append, List.length_take]; omega
  · simp only [spliceTail, List.length_take, List.length_append, List.length_drop]; omega

/-- A splice of `"€"` in place of the `é` of `"aéb"`: the body stays valid and the call
returns `nil`. -/
theorem spliceText_runes_sample :
    BodyInv Config.sample ⟨1, 1, 3, 0, [97, 0xC3, 0xA9, 98], "a", false⟩ ∧
      (spliceText Config.sample ⟨1, 1, 3, 0, [97, 0xC3, 0xA9, 98], "a", false⟩
        (.ok ⟨⟨1, 1⟩, [0xE2, 0x82, 0xAC]⟩) none).exit = .ret none ∧
      ((Config.sample.hasPost ⟨1, 1, 3, 0, [97, 0xC3, 0xA9, 98], "a", false⟩ = .ok false ∧
          (spliceText Config.sample ⟨1, 1, 3, 0, [97, 0xC3, 0xA9, 98], "a", false⟩
            (.ok ⟨⟨1, 1⟩, [0xE2, 0x82, 0xAC]⟩) none).post =
            ⟨1, 1, 3, 0, [97, 0xC3, 0xA9, 98], "a", false⟩) ∨
        decodeRunes (spliceText Config.sample ⟨1, 1, 3, 0, [97, 0xC3, 0xA9, 98], "a", false⟩
            (.ok ⟨⟨1, 1⟩, [0xE2, 0x82, 0xAC]⟩) none).post.body =
          spliceRunes Config.sample.maxLenBody (decodeRunes [97, 0xC3, 0xA9, 98])
            (.unmarshal ⟨⟨1, 1⟩, [0xE2, 0x82, 0xAC]⟩) ∧
        (spliceText Config.sample ⟨1, 1, 3, 0, [97, 0xC3, 0xA9, 98], "a", false⟩
            (.ok ⟨⟨1, 1⟩, [0xE2, 0x82, 0xAC]⟩) none).post.len =
          (spliceRunes Config.sample.maxLenBody (decodeRunes [97, 0xC3, 0xA9, 98])
            (.unmarshal ⟨⟨1, 1⟩, [0xE2, 0x82, 0xAC]⟩)).length ∧
        (spliceText Config.sample ⟨1, 1, 3, 0, [97, 0xC3, 0xA9, 98], "a", false⟩
            (.ok ⟨⟨1, 1⟩, [0xE2, 0x82, 0xAC]⟩) none).post.len =
          min (Config.sample.maxLenBody : Int)
            (3 - (SpliceRequest.unmarshal ⟨⟨1, 1⟩, [0xE2, 0x82, 0xAC]⟩).len +
              (SpliceRequest.unmarshal ⟨⟨1, 1⟩, [0xE2, 0x82, 0xAC]⟩).text.length) ∧
        (spliceText Config.sample ⟨1, 1, 3, 0, [97, 0xC3, 0xA9, 98], "a", false⟩
            (.ok ⟨⟨1, 1⟩, [0xE2, 0x82, 0xAC]⟩) none).post.lines =
          (spliceRunes Config.sample.maxLenBody (decodeRunes [97, 0xC3, 0xA9, 98])
            (.unmarshal ⟨⟨1, 1⟩, [0xE2, 0x82, 0xAC]⟩)).count 10 ∧
        byteStartPos ((decodeRunes [97, 0xC3, 0xA9, 98]).take
            (SpliceRequest.unmarshal ⟨⟨1, 1⟩, [0xE2, 0x82, 0xAC]⟩).start) =
          (encodeString ((decodeRunes [97, 0xC3, 0xA9, 98]).take
            (SpliceRequest.unmarshal ⟨⟨1, 1⟩, [0xE2, 0x82, 0xAC]⟩).start)).length) :=
  have h : BodyInv Config.sample ⟨1, 1, 3, 0, [97, 0xC3, 0xA9, 98], "a", false⟩ :=
    BodyInv.of_runes (show [97, 0xC3, 0xA9, 98] = encodeString [97, 0xE9, 98] from rfl)
      (by decide) rfl (by decide)
  have hs : (spliceText Config.sample ⟨1, 1, 3, 0, [97, 0xC3, 0xA9, 98], "a", false⟩
      (.ok ⟨⟨1, 1⟩, [0xE2, 0x82, 0xAC]⟩) none).exit = .ret none := by decide
  ⟨h, hs, spliceText_runes h hs⟩

/-! ## The spam charge -/

/-- **A splice is charged by the bytes of its text.** A splice that runs the edit and returns
`nil` broadcasts a message and adds `(len(res.Text) + 1) × CharScore`, `res.Text` the UTF-8
bytes of the broadcast runes; those bytes number the runes exactly when every rune is ASCII. -/
theorem spliceText_spam_bytes {p : OpenPost} (h : BodyInv cfg p) {wire : SpliceRequestString}
    {store : Option Error} (hs : (spliceText cfg p (.ok wire) store).exit = .ret none)
    (hp : cfg.hasPost p = .ok true) :
    ∃ msg : SpliceMessage,
      Effect.feedSetOpenBody p.id (spliceText cfg p (.ok wire) store).post.body (.splice msg) ∈
          (spliceText cfg p (.ok wire) store).effects ∧
        (spliceText cfg p (.ok wire) store).spamScore = (msg.text.length + 1) * cfg.charScore ∧
        (msg.text.length = (decodeRunes msg.text).length ↔
          ∀ r ∈ decodeRunes msg.text, 0 ≤ r ∧ r < 0x80) := by
  rcases spliceText_cases cfg p (.ok wire) store with ⟨-, -, -, hd⟩ | ⟨_, ⟨⟩, -, -, herr, he⟩
  · rw [hp] at hd; cases hd hs
  obtain ⟨hst, -, -, -⟩ := spliceError_eq_none cfg herr
  obtain ⟨rs, hb, hrs, hl, hmax⟩ := h.runes
  have hv : ∀ r ∈ rs, ValidRune r := fun r hr => (hrs r hr).1
  obtain ⟨t, ht, htext⟩ := spliceResult_text cfg p.id hv
    fun r (hr : r ∈ (SpliceRequest.unmarshal wire).text) => validRune_of_mem_decodeRunes hr
  rw [he] at hs ⊢
  rw [spliceEdit_ok hb hv hl (by omega) hmax hs]
  refine ⟨_, List.mem_cons_self _ _, ?_, ?_⟩
  · simp [Outcome.spamScore, updateBody, Effect.score]
  · rw [htext, decodeRunes_encodeString ht]
    exact length_encodeString_eq_iff t

/-- Splicing `"é"` into an empty post returns `nil` and charges three characters, where the
rune count of the broadcast text, plus one, is two. -/
theorem spliceText_spam_bytes_sample :
    BodyInv Config.sample ⟨1, 1, 0, 0, [], "a", false⟩ ∧
      (spliceText Config.sample ⟨1, 1, 0, 0, [], "a", false⟩
        (.ok ⟨⟨0, 0⟩, [0xC3, 0xA9]⟩) none).exit = .ret none ∧
      Config.sample.hasPost ⟨1, 1, 0, 0, [], "a", false⟩ = .ok true ∧
      ∃ msg : SpliceMessage,
        Effect.feedSetOpenBody 1 (spliceText Config.sample ⟨1, 1, 0, 0, [], "a", false⟩
            (.ok ⟨⟨0, 0⟩, [0xC3, 0xA9]⟩) none).post.body (.splice msg) ∈
            (spliceText Config.sample ⟨1, 1, 0, 0, [], "a", false⟩
              (.ok ⟨⟨0, 0⟩, [0xC3, 0xA9]⟩) none).effects ∧
          (spliceText Config.sample ⟨1, 1, 0, 0, [], "a", false⟩
              (.ok ⟨⟨0, 0⟩, [0xC3, 0xA9]⟩) none).spamScore =
            (msg.text.length + 1) * Config.sample.charScore ∧
          (msg.text.length = (decodeRunes msg.text).length ↔
            ∀ r ∈ decodeRunes msg.text, 0 ≤ r ∧ r < 0x80) :=
  have h : BodyInv Config.sample ⟨1, 1, 0, 0, [], "a", false⟩ :=
    BodyInv.of_runes (show [] = encodeString [] from rfl) nofun rfl (by decide)
  have hs : (spliceText Config.sample ⟨1, 1, 0, 0, [], "a", false⟩
      (.ok ⟨⟨0, 0⟩, [0xC3, 0xA9]⟩) none).exit = .ret none := by decide
  ⟨h, hs, rfl, spliceText_spam_bytes h hs rfl⟩

example : (spliceText Config.sample ⟨1, 1, 0, 0, [], "a", false⟩
    (.ok ⟨⟨0, 0⟩, [0xC3, 0xA9]⟩) none).spamScore = 3 := by decide

end Shamichan

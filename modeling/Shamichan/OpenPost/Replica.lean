import Shamichan.OpenPost.Body

/-!
# Shamichan — what a subscriber rebuilds from the feed

A subscriber of the thread feed starts from the runes of an open post's body and applies the
body messages that `updateBody` hands to `Feed.SetOpenBody`, in order: `MessageAppend`
appends a rune, `MessageBackspace` drops the last one, `MessageSplice` replaces the runes
`[start, start+len)` by those of its text (`applyMessage`, `replay`). This is the abstract
model of the body; the handlers refine it.

* `appendRune_replicates`, `backspace_replicates`, `spliceText_replicates`: a successful call's
  messages take the subscriber from the old body's runes to the new body's, and every
  `SetOpenBody` carries the new body. For a splice past `MaxLenBody` this rests on the
  rewritten message (`applySplice_spliceResult`).
* `run_replica`: so along any run of successful calls the subscriber holds the server's body.
-/

namespace Shamichan

open Utf8

/-! ## The subscriber -/

/-- A subscriber's reading of one feed message: the runes it holds afterwards, or `none`
where a splice reaches past them. Image messages leave the body alone. -/
def applyMessage (rs : List Int) : Message → Option (List Int)
  | .append _ c => some (rs ++ [(c : Int)])
  | .backspace _ => some rs.dropLast
  | .splice m =>
    if m.start + m.len ≤ rs.length then
      some (rs.take m.start ++ decodeRunes m.text ++ rs.drop (m.start + m.len))
    else none
  | .insertImage _ | .spoiler _ => some rs

/-- The messages applied in order, from the runes `rs`. -/
def replay (rs : List Int) : List Message → Option (List Int)
  | [] => some rs
  | m :: ms => (applyMessage rs m).bind (replay · ms)

theorem replay_append (rs : List Int) (ms ms' : List Message) :
    replay rs (ms ++ ms') = (replay rs ms).bind (replay · ms') := by
  induction ms generalizing rs with
  | nil => rfl
  | cons m ms ih =>
    simp only [List.cons_append, replay]
    cases applyMessage rs m <;> simp [ih]

/-- The message of a feed body update, the only effect the subscriber reads here. -/
def Effect.bodyMessage : Effect → Option Message
  | .feedSetOpenBody _ _ m => some m
  | _ => none

/-- The body messages of a call, in the order it sends them. -/
def bodyMessages (o : Outcome) : List Message := o.effects.filterMap Effect.bodyMessage

variable (cfg : Config)

/-- The body messages of a run of calls. -/
def runMessages (p : OpenPost) : List Call → List Message
  | [] => []
  | c :: cs => bodyMessages (step cfg p c) ++ runMessages (step cfg p c).post cs

/-- One call as the subscriber sees it: its messages take the runes `rs` of the old body to
those of the new one, and every `SetOpenBody` carries the new body. -/
def Replicates (rs : List Int) (o : Outcome) : Prop :=
  replay rs (bodyMessages o) = some (decodeRunes o.post.body) ∧
    ∀ id b m, Effect.feedSetOpenBody id b m ∈ o.effects → b = o.post.body

variable {cfg}

/-! ## The shapes of a call -/

/-- A call that changes neither the body nor sends a body message. -/
theorem replicates_of_silent {p : OpenPost} {o : Outcome} (hb : o.post.body = p.body)
    (he : ∀ e ∈ o.effects, e.bodyMessage = none) : Replicates (decodeRunes p.body) o := by
  have hm : bodyMessages o = [] := List.filterMap_eq_nil_iff.2 he
  refine ⟨by rw [hm, hb]; rfl, fun id b m h => ?_⟩
  cases he _ h

theorem replicates_updateBody {rs : List Int} {q : OpenPost} {msg : Message} {n : Nat}
    {store : Option Error} (h : applyMessage rs msg = some (decodeRunes q.body)) :
    Replicates rs (updateBody cfg q msg n store) := by
  refine ⟨by simp [bodyMessages, updateBody, Effect.bodyMessage, replay, h], fun id b m hm => ?_⟩
  simp only [updateBody, List.mem_cons, Effect.feedSetOpenBody.injEq] at hm
  simp_all

theorem insertImage_silent (p : OpenPost) (image : Except Error Bool)
    (data : Except Error ImageRequest) (tx : Except Error (List Nat)) :
    ∀ e ∈ (insertImage cfg p image data tx).effects, e.bodyMessage = none := by
  unfold insertImage
  generalize hasImage p image = r
  obtain ⟨q, a | _ | _⟩ := r
  all_goals dsimp only
  all_goals repeat' split
  all_goals simp [Outcome.after, Outcome.fail, Outcome.done, Effect.bodyMessage]

theorem spoilerImage_silent (p : OpenPost) (image : Except Error Bool) (store : Option Error) :
    ∀ e ∈ (spoilerImage cfg p image store).effects, e.bodyMessage = none := by
  unfold spoilerImage
  generalize hasImage p image = r
  obtain ⟨q, a | _ | _⟩ := r
  all_goals dsimp only
  all_goals repeat' split
  all_goals simp [Outcome.after, Outcome.fail, Outcome.done, Effect.bodyMessage]

/-! ## Each handler refines the subscriber -/

section Refinement

variable (hpr : ∀ r nl, cfg.isPrintable r nl = none → ValidRune r)
include hpr

theorem appendRune_replicates {p : OpenPost} (h : BodyInv cfg p) {data : Except Error Int}
    {store : Option Error} (hs : (appendRune cfg p data store).exit = .ret none) :
    Replicates (decodeRunes p.body) (appendRune cfg p data store) := by
  rcases appendRune_cases cfg p data store with
    ⟨hp, he, -⟩ | ⟨-, -, -, e, hx⟩ | ⟨c, -, -, -, -, -, hc, he⟩
  · exact replicates_of_silent (by rw [hp]) (by simp [he])
  · rw [hs] at hx; cases hx
  rw [he]
  apply replicates_updateBody
  obtain ⟨rs, hb, hrs, -, -⟩ := h.runes
  have hv := hpr c true hc
  -- a scalar value survives the wire as `uint64(char)`
  have hw : ((toUint64 c : Nat) : Int) = c := by unfold toUint64 ValidRune at *; omega
  have hall : ∀ r ∈ rs ++ [c], ValidRune r := fun r hr => by
    rcases List.mem_append.1 hr with h | h
    exacts [(hrs r h).1, List.mem_singleton.1 h ▸ hv]
  simp only [applyMessage, hw, hb]
  rw [show encodeString rs ++ encodeRune c = encodeString (rs ++ [c]) by simp,
    decodeRunes_encodeString hall, decodeRunes_encodeString fun r hr => (hrs r hr).1]

omit hpr in
theorem backspace_replicates {p : OpenPost} (h : BodyInv cfg p) (store : Option Error) :
    Replicates (decodeRunes p.body) (backspace cfg p store) := by
  rcases backspace_cases cfg p store with ⟨hp, he, -⟩ | ⟨hp, hl0⟩
  · exact replicates_of_silent (by rw [hp]) (by simp [he])
  obtain ⟨rs, hbody, hrs, hlen, -⟩ := h.runes
  obtain ⟨rs, r, rfl⟩ : ∃ rs' r, rs = rs' ++ [r] := by
    rcases List.eq_nil_or_concat rs with rfl | ⟨rs', r, rfl⟩
    · simp at hlen; omega
    · exact ⟨rs', r, List.concat_eq_append ..⟩
  have hall : ∀ r' ∈ rs ++ [r], ValidRune r' := fun r' hr => (hrs r' hr).1
  rw [backspace_eq cfg hp hl0 hbody (hall r (by simp))]
  apply replicates_updateBody
  rw [hbody, decodeRunes_encodeString hall,
    decodeRunes_encodeString fun r' hr => hall r' (List.mem_append_left _ hr)]
  simp [applyMessage]

omit hpr in
/-- The message a valid splice broadcasts takes the subscriber to the runes the server keeps,
also when the overflow rewrote it to replace the whole tail. -/
theorem applySplice_spliceResult {rs : List Int} {req : SpliceRequest} (id : Nat)
    (hrs : ∀ r ∈ rs, ValidRune r) (ht : ∀ r ∈ req.text, ValidRune r)
    (hs : req.start + req.len ≤ rs.length) :
    applyMessage rs (.splice (spliceResult cfg id rs req)) =
      some (rs.take req.start ++ spliceTail cfg rs req) := by
  have htail : ∀ r ∈ spliceTail cfg rs req, ValidRune r := fun r hr => by
    rcases List.mem_append.1 (List.mem_of_mem_take hr) with h | h
    exacts [ht r h, hrs r (List.mem_of_mem_drop h)]
  unfold spliceResult
  split_ifs with hover
  · rw [applyMessage, if_pos (by dsimp only; omega)]
    dsimp only
    rw [decodeRunes_encodeString htail, List.drop_of_length_le (by omega), List.append_nil]
  · rw [applyMessage, if_pos hs]
    dsimp only
    -- nothing is cut: the text and the rest fit within `MaxLenBody`
    have hfit : (req.text ++ rs.drop (req.start + req.len)).length ≤
        cfg.maxLenBody - req.start := by simp; omega
    rw [decodeRunes_encodeString ht, spliceTail, List.take_of_length_le hfit, List.append_assoc]

omit hpr in
theorem spliceText_replicates {p : OpenPost} (h : BodyInv cfg p)
    {data : Except Error SpliceRequestString} {store : Option Error}
    (hs : (spliceText cfg p data store).exit = .ret none) :
    Replicates (decodeRunes p.body) (spliceText cfg p data store) := by
  rcases spliceText_cases cfg p data store with ⟨hp, he, -⟩ | ⟨wire, -, -, -, herr, he⟩
  · exact replicates_of_silent (by rw [hp]) (by simp [he])
  rw [he] at hs ⊢
  obtain ⟨hst, -, -, -⟩ := spliceError_eq_none cfg herr
  obtain ⟨rs, hbody, hrs, hlen, hmax⟩ := h.runes
  have hv : ∀ r ∈ rs, ValidRune r := fun r hr => (hrs r hr).1
  have ht : ∀ r ∈ (SpliceRequest.unmarshal wire).text, ValidRune r :=
    fun r hr => validRune_of_mem_decodeRunes hr
  rw [spliceEdit_eq cfg hbody hv hlen (by omega) hmax] at hs ⊢
  dsimp only at hs ⊢
  split_ifs at hs ⊢
  · cases hs
  apply replicates_updateBody
  have hnew : ∀ r ∈ rs.take (SpliceRequest.unmarshal wire).start ++
      spliceTail cfg rs (SpliceRequest.unmarshal wire), ValidRune r := fun r hr => by
    rcases List.mem_append.1 hr with h | h
    · exact hv r (List.mem_of_mem_take h)
    rcases List.mem_append.1 (List.mem_of_mem_take h) with h | h
    exacts [ht r h, hv r (List.mem_of_mem_drop h)]
  rw [hbody, decodeRunes_encodeString hv, decodeRunes_encodeString hnew]
  exact applySplice_spliceResult p.id hv ht (by omega)

/-- **Each successful call refines the subscriber**: applying its body messages to the runes of
the old body gives the runes of the new body, which is the body it hands to the feed. -/
theorem step_replicates {p : OpenPost} (h : BodyInv cfg p) (c : Call)
    (hs : (step cfg p c).exit = .ret none) : Replicates (decodeRunes p.body) (step cfg p c) := by
  cases c with
  | appendRune data store => exact appendRune_replicates hpr h hs
  | backspace store => exact backspace_replicates h store
  | spliceText data store => exact spliceText_replicates h hs
  | insertImage image data tx =>
    refine replicates_of_silent ?_ (insertImage_silent p image data tx)
    rw [step, (insertImage_post cfg p image data tx).1]
  | spoilerImage image store =>
    refine replicates_of_silent ?_ (spoilerImage_silent p image store)
    rw [step, (spoilerImage_post cfg p image store).1]

/-- A subscriber that starts from the runes of a valid body and applies every body message of
a run of successful calls finds each splice in range and ends with the runes of the server's
body; from there, each further successful call hands the feed the body the subscriber then
holds. -/
theorem run_replica {p : OpenPost} (h : BodyInv cfg p) (cs : List Call)
    (hs : Succeeds cfg p cs) :
    replay (decodeRunes p.body) (runMessages cfg p cs) = some (decodeRunes (run cfg p cs).body) ∧
      ∀ c, (step cfg (run cfg p cs) c).exit = .ret none →
        Replicates (decodeRunes (run cfg p cs).body) (step cfg (run cfg p cs) c) := by
  induction cs generalizing p with
  | nil => exact ⟨rfl, step_replicates hpr h⟩
  | cons c cs ih =>
    obtain ⟨hr, -⟩ := step_replicates hpr h c hs.1
    refine ⟨?_, (ih (step_bodyInv h c).1 hs.2).2⟩
    rw [runMessages, replay_append, hr, Option.some_bind]
    exact (ih (step_bodyInv h c).1 hs.2).1

end Refinement

/-- The sample run of `é`, a backspace and a splice of `"ab"` at 0, from the empty post of
thread 1, under a `IsPrintable` that admits only nonzero scalar values. -/
theorem run_replica_sample :
    (∀ r nl, Config.sample.isPrintable r nl = none → ValidRune r) ∧
      BodyInv Config.sample ⟨1, 1, 0, 0, [], "a", false⟩ ∧
      Succeeds Config.sample ⟨1, 1, 0, 0, [], "a", false⟩
        [.appendRune (.ok 0xE9) none, .backspace none, .spliceText (.ok ⟨⟨0, 0⟩, [97, 98]⟩) none] ∧
      (replay (decodeRunes []) (runMessages Config.sample ⟨1, 1, 0, 0, [], "a", false⟩
          [.appendRune (.ok 0xE9) none, .backspace none,
            .spliceText (.ok ⟨⟨0, 0⟩, [97, 98]⟩) none]) =
          some (decodeRunes (run Config.sample ⟨1, 1, 0, 0, [], "a", false⟩
            [.appendRune (.ok 0xE9) none, .backspace none,
              .spliceText (.ok ⟨⟨0, 0⟩, [97, 98]⟩) none]).body) ∧
        ∀ c, (step Config.sample (run Config.sample ⟨1, 1, 0, 0, [], "a", false⟩
            [.appendRune (.ok 0xE9) none, .backspace none,
              .spliceText (.ok ⟨⟨0, 0⟩, [97, 98]⟩) none]) c).exit = .ret none →
          Replicates (decodeRunes (run Config.sample ⟨1, 1, 0, 0, [], "a", false⟩
            [.appendRune (.ok 0xE9) none, .backspace none,
              .spliceText (.ok ⟨⟨0, 0⟩, [97, 98]⟩) none]).body)
            (step Config.sample (run Config.sample ⟨1, 1, 0, 0, [], "a", false⟩
              [.appendRune (.ok 0xE9) none, .backspace none,
                .spliceText (.ok ⟨⟨0, 0⟩, [97, 98]⟩) none]) c)) :=
  have hpr : ∀ r nl, Config.sample.isPrintable r nl = none → ValidRune r := fun r nl h => by
    simp only [Config.sample] at h
    split_ifs at h with hv
    exact hv.1
  have h : BodyInv Config.sample ⟨1, 1, 0, 0, [], "a", false⟩ :=
    BodyInv.of_runes (show [] = encodeString [] from rfl) nofun rfl (by decide)
  have hs : Succeeds Config.sample ⟨1, 1, 0, 0, [], "a", false⟩
      [.appendRune (.ok 0xE9) none, .backspace none, .spliceText (.ok ⟨⟨0, 0⟩, [97, 98]⟩) none] := by
    simp only [Succeeds]; decide
  ⟨hpr, h, hs, run_replica hpr h _ hs⟩

end Shamichan

import Shamichan.Utf8

/-!
# Shamichan — the open-post handlers of `websockets/post_updates.go`

A client edits the post it has open through five handlers: `appendRune`, `backspace`,
`spliceText`, `insertImage` and `spoilerImage`. Each reads the client's `openPost`, may
change it, hands messages to the thread's feed, writes to the database, and returns an error
or `nil`. This module writes each handler as the function it computes:

* the post is an `OpenPost` record, its body a byte buffer (`List Nat`) and its `len`/`lines`
  Go `int`s;
* a call's inputs are the client's decoded payload and what the database answers
  (`db.SetOpenBody`, `db.HasImage`, the image transaction), bundled as a `Call`;
* a call's `Outcome` is the new post, the feed/database/spam `Effect`s in order, and its
  `Exit`: a returned error, `nil`, or a panic where a slice expression would be out of range
  (`sliceTo`, `sliceFrom`);
* what the handlers take from outside `post_updates.go` (the `common` limits, the score from
  `config`, `hasPost`, the `parser` checks, the board's text-only flag) is a `Config`.

`common.EncodeMessage` marshals these payloads (unsigned integers and strings), on which
`json.Marshal` cannot fail, so its error branches are never taken and a `Message` is the
value it encodes.
-/

namespace Shamichan

open Utf8

/-- The errors the handlers return. The constructors name the Go error values; external
errors (decoding a payload, the parser, the database) carry a description. -/
inductive Error where
  /-- `errNoPostOpen`, "no post open" -/
  | noPostOpen
  /-- `errEmptyPost`, "post body empty" -/
  | emptyPost
  /-- `errTooManyLines`, "too many lines in post body" -/
  | tooManyLines
  /-- `errSpliceTooLong`, "splice text too long" -/
  | spliceTooLong
  /-- `errSpliceNOOP`, "splice NOOP" -/
  | spliceNOOP
  /-- `errTextOnly`, "text only board" -/
  | textOnly
  /-- `errInvalidSpliceCoords{body, req}`, "invalid splice coordinates: …" -/
  | invalidSpliceCoords (body : List Nat) (start len : Nat) (text : List Nat)
  /-- `common.ErrBodyTooLong` -/
  | bodyTooLong
  /-- `common.ErrContainsNull` -/
  | containsNull
  /-- `errors.New("post does not have an image")` in `spoilerImage` -/
  | noImage
  /-- An error from outside this file. -/
  | external (what : String)
  deriving DecidableEq, Repr

/-- `openPost`, the client's post being edited. -/
structure OpenPost where
  id : Nat
  op : Nat
  len : Int
  lines : Int
  body : List Nat
  board : String
  isSpoilered : Bool
  deriving DecidableEq, Repr

/-- `spliceCoords`: where a splice starts and how many runes it replaces (Go `uint`s). -/
structure SpliceCoords where
  start : Nat
  len : Nat
  deriving DecidableEq, Repr

/-- `spliceRequestString`: a splice with its text as a Go string, the wire form. -/
structure SpliceRequestString extends SpliceCoords where
  text : List Nat
  deriving DecidableEq, Repr

/-- `spliceRequest`: a splice with its text as runes, the form `spliceText` works on. -/
structure SpliceRequest extends SpliceCoords where
  text : List Int
  deriving DecidableEq, Repr

/-- `spliceMessage`: the splice as broadcast to the thread. -/
structure SpliceMessage extends SpliceRequestString where
  id : Nat
  deriving DecidableEq, Repr

/-- `spliceRequest.UnmarshalJSON` once `json.Unmarshal` has produced the string form: the
text becomes `[]rune(tmp.Text)`. -/
def SpliceRequest.unmarshal (s : SpliceRequestString) : SpliceRequest :=
  { s.toSpliceCoords with text := decodeRunes s.text }

/-- `spliceRequest.MarshalJSON` up to `json.Marshal`: the text becomes `string(s.Text)`. -/
def SpliceRequest.marshal (s : SpliceRequest) : SpliceRequestString :=
  { s.toSpliceCoords with text := encodeString s.text }

/-- `ImageRequest`, the payload of an image insertion. -/
structure ImageRequest where
  spoiler : Bool
  token : String
  name : String
  deriving DecidableEq, Repr

/-- The messages handed to the feed, as the value `common.EncodeMessage` encodes after the
message type. -/
inductive Message where
  /-- `MessageAppend` with `[2]uint64{id, uint64(char)}` -/
  | append (id char : Nat)
  /-- `MessageBackspace` with the post id -/
  | backspace (id : Nat)
  /-- `MessageSplice` with a `spliceMessage` -/
  | splice (msg : SpliceMessage)
  /-- `MessageInsertImage` prepended to the payload `db.InsertImage` returned -/
  | insertImage (payload : List Nat)
  /-- `MessageSpoiler` with the post id -/
  | spoiler (id : Nat)
  deriving DecidableEq, Repr

/-- What a handler does besides changing the post, in the order it does it. -/
inductive Effect where
  /-- `c.feed.SetOpenBody(id, string(body), msg)` -/
  | feedSetOpenBody (id : Nat) (body : List Nat) (msg : Message)
  /-- `c.feed.InsertImage(id, spoiler, msg)` -/
  | feedInsertImage (id : Nat) (spoiler : Bool) (msg : Message)
  /-- `c.feed.SpoilerImage(id, msg)` -/
  | feedSpoilerImage (id : Nat) (msg : Message)
  /-- `c.incrementSpamScore(score)` -/
  | spam (score : Nat)
  /-- `db.SetOpenBody(id, body)` -/
  | dbSetOpenBody (id : Nat) (body : List Nat)
  /-- `db.InsertImage(tx, id, token, name, spoiler)`, committed -/
  | dbInsertImage (id : Nat) (token name : String) (spoiler : Bool)
  /-- `db.SpoilerImage(id, op)` -/
  | dbSpoilerImage (id op : Nat)
  deriving DecidableEq, Repr

/-- How a handler call ends. -/
inductive Exit where
  /-- The handler returned this error, or `nil`. -/
  | ret (err : Option Error)
  /-- A slice expression was out of range. -/
  | panic
  deriving DecidableEq, Repr

/-- The post after a call, the effects of the call, and how it ended. -/
structure Outcome where
  post : OpenPost
  effects : List Effect
  exit : Exit
  deriving DecidableEq, Repr

/-- Returning `err` with the post as it stands and no further effects. -/
def Outcome.fail (p : OpenPost) (err : Error) : Outcome := ⟨p, [], .ret (some err)⟩

/-- Returning `nil` with the post as it stands and no further effects. -/
def Outcome.done (p : OpenPost) : Outcome := ⟨p, [], .ret none⟩

/-- A panic: the post at the time, no further effects. -/
def Outcome.panic (p : OpenPost) : Outcome := ⟨p, [], .panic⟩

/-- An effect performed before the rest of the call. -/
def Outcome.after (e : Effect) (o : Outcome) : Outcome := { o with effects := e :: o.effects }

/-- Go's `s[:i]`, `none` where it panics. -/
def sliceTo {α : Type} (s : List α) (i : Int) : Option (List α) :=
  if 0 ≤ i ∧ i ≤ s.length then some (s.take i.toNat) else none

/-- Go's `s[i:]`, `none` where it panics. -/
def sliceFrom {α : Type} (s : List α) (i : Int) : Option (List α) :=
  if 0 ≤ i ∧ i ≤ s.length then some (s.drop i.toNat) else none

/-- `uint64(r)` for a rune: two's complement below 2^64. -/
def toUint64 (r : Int) : Nat := (r % 2 ^ 64).toNat

/-- What the handlers take from outside `post_updates.go`. -/
structure Config where
  /-- `common.MaxLenBody` -/
  maxLenBody : Nat
  /-- `common.MaxLinesBody` -/
  maxLinesBody : Nat
  /-- `config.Get().CharScore` -/
  charScore : Nat
  /-- `c.hasPost()`: whether the client has a post open, or why that could not be told -/
  hasPost : OpenPost → Except Error Bool
  /-- `parser.IsPrintable(r, allowNewline)` -/
  isPrintable : Int → Bool → Option Error
  /-- `parser.IsPrintableRunes(rs, allowNewline)` -/
  isPrintableRunes : List Int → Bool → Option Error
  /-- `config.GetBoardConfigs(board).TextOnly` -/
  textOnly : String → Bool
  /-- `formatImageName(&name)` -/
  formatImageName : String → String

section Handlers

variable (cfg : Config)

/-- `Client.updateBody`: hand the body to the feed, add `n` characters' worth of spam score,
then write the body to the database, returning what the database answered. -/
def updateBody (p : OpenPost) (msg : Message) (n : Nat) (store : Option Error) : Outcome :=
  ⟨p, [.feedSetOpenBody p.id p.body msg, .spam (n * cfg.charScore), .dbSetOpenBody p.id p.body],
    .ret store⟩

/-- `Client.appendRune`. The newline count is raised before the line limit is checked. -/
def appendRune (p : OpenPost) (data : Except Error Int) (store : Option Error) : Outcome :=
  match cfg.hasPost p with
  | .error e => .fail p e
  | .ok false => .done p
  | .ok true =>
    if p.len + 1 > cfg.maxLenBody then .fail p .bodyTooLong else
    match data with
    | .error e => .fail p e
    | .ok char =>
      if char = 0 then .fail p .containsNull else
      let p := if char = 10 then { p with lines := p.lines + 1 } else p
      if char = 10 ∧ p.lines > cfg.maxLinesBody then .fail p .tooManyLines else
      match cfg.isPrintable char true with
      | some e => .fail p e
      | none =>
        updateBody cfg { p with body := p.body ++ encodeRune char, len := p.len + 1 }
          (.append p.id (toUint64 char)) 1 store

/-- `Client.backspace`: drop the last rune, as `utf8.DecodeLastRune` finds it. -/
def backspace (p : OpenPost) (store : Option Error) : Outcome :=
  match cfg.hasPost p with
  | .error e => .fail p e
  | .ok false => .done p
  | .ok true =>
    if p.len = 0 then .fail p .emptyPost else
    match sliceTo p.body (p.body.length - (decodeLastRune p.body).2) with
    | none => .panic p
    | some body =>
      updateBody cfg
        { p with
          body
          lines := if (decodeLastRune p.body).1 = 10 then p.lines - 1 else p.lines
          len := p.len - 1 }
        (.backspace p.id) 1 store

/-- The `switch` of `spliceText` and the NUL scan after it: the first check the request
fails, if any. -/
def spliceError (p : OpenPost) (req : SpliceRequest) : Option Error :=
  if req.start > cfg.maxLenBody ∨ req.len > cfg.maxLenBody ∨ (req.start + req.len : Int) > p.len
  then some (.invalidSpliceCoords p.body req.start req.len (encodeString req.text))
  else if req.len = 0 ∧ req.text.length = 0 then some .spliceNOOP
  else if req.text.length > cfg.maxLenBody then some .spliceTooLong
  else if 0 ∈ req.text then some .containsNull
  else none

/-- The overflow branch of `spliceText`: when the new length exceeds `MaxLenBody`, cut the
excess off the end of `end`, make the message replace everything from `start` on, and pin the
length at `MaxLenBody`. Returns the new `end`, length and message, or `none` on a panic. -/
def trimEnd (old end_ : List Int) (len : Int) (start : Nat) (res : SpliceMessage) :
    Option (List Int × Int × SpliceMessage) :=
  let exceeding := len - cfg.maxLenBody
  if exceeding > 0 then do
    let end_ ← sliceTo end_ (end_.length - exceeding)
    let tail ← sliceFrom old start
    pure (end_, cfg.maxLenBody, { res with len := tail.length, text := encodeString end_ })
  else pure (end_, len, res)

/-- The byte offset of rune `start`: `for _, r := range old[:start] { byteStartPos += utf8.RuneLen(r) }`. -/
def byteStartPos (prefix_ : List Int) : Int := (prefix_.map runeLen).sum

/-- `spliceText` once the request passed its checks: rebuild the buffer. The length is
updated before the overflow trim, and the body, length and line count are all replaced
before the line limit is checked. -/
def spliceEdit (p : OpenPost) (req : SpliceRequest) (store : Option Error) : Outcome :=
  let old := decodeRunes p.body
  match sliceFrom old (req.start + req.len) with
  | none => .panic p
  | some rest =>
  let p := { p with len := p.len - req.len + req.text.length }
  let res : SpliceMessage := ⟨⟨req.toSpliceCoords, encodeString req.text⟩, p.id⟩
  match trimEnd cfg old (req.text ++ rest) p.len req.start res with
  | none => .panic p
  | some (end_, len, res) =>
  let p := { p with len }
  match sliceTo old req.start with
  | none => .panic p
  | some prefix_ =>
  match sliceTo p.body (byteStartPos prefix_) with
  | none => .panic p
  | some head =>
  -- `countLines` recounts the newlines of the new body
  let p := { p with
    body := head ++ encodeString end_
    lines := ((head ++ encodeString end_).count 10 : Nat) }
  if p.lines > (cfg.maxLinesBody : Int) then .fail p .tooManyLines else
  updateBody cfg p (.splice res) (res.text.length + 1) store

/-- `Client.spliceText`: decode the request (`[]rune` of its text), check it, then edit. -/
def spliceText (p : OpenPost) (data : Except Error SpliceRequestString) (store : Option Error) :
    Outcome :=
  match cfg.hasPost p with
  | .error e => .fail p e
  | .ok false => .done p
  | .ok true =>
  match data with
  | .error e => .fail p e
  | .ok wire =>
  let req := SpliceRequest.unmarshal wire
  match cfg.isPrintableRunes req.text true with
  | some e => .fail p e
  | none =>
  match spliceError cfg p req with
  | some e => .fail p e
  | none => spliceEdit cfg p req store

/-- `Client.hasImage`: ask the database; a post without an image may be spoilered again. -/
def hasImage (p : OpenPost) (answer : Except Error Bool) : OpenPost × Except Error Bool :=
  match answer with
  | .ok false => ({ p with isSpoilered := false }, .ok false)
  | a => (p, a)

/-- `Client.insertImage`, with `image` what `db.HasImage` answers and `tx` the outcome of the
transaction around `db.InsertImage`. -/
def insertImage (p : OpenPost) (image : Except Error Bool) (data : Except Error ImageRequest)
    (tx : Except Error (List Nat)) : Outcome :=
  .after (.spam cfg.charScore) <|
  match cfg.hasPost p with
  | .error e => .fail p e
  | .ok false => .fail p .noPostOpen
  | .ok true =>
  match hasImage p image with
  | (p, .error e) => .fail p e
  | (p, .ok true) => .done p
  | (p, .ok false) =>
  match data with
  | .error e => .fail p e
  | .ok req =>
  if cfg.textOnly p.board then .fail p .textOnly else
  match tx with
  | .error e => .fail p e
  | .ok payload =>
    ⟨{ p with isSpoilered := req.spoiler },
      [.dbInsertImage p.id req.token (cfg.formatImageName req.name) req.spoiler,
        .feedInsertImage p.id req.spoiler (.insertImage payload)], .ret none⟩

/-- `Client.spoilerImage`, with `image` what `db.HasImage` answers and `store` what
`db.SpoilerImage` answers. It never sets `isSpoilered` itself. -/
def spoilerImage (p : OpenPost) (image : Except Error Bool) (store : Option Error) : Outcome :=
  .after (.spam cfg.charScore) <|
  match cfg.hasPost p with
  | .error e => .fail p e
  | .ok false => .fail p .noPostOpen
  | .ok true =>
  match hasImage p image with
  | (p, .error e) => .fail p e
  | (p, .ok false) => .fail p .noImage
  | (p, .ok true) =>
  if p.isSpoilered then .done p else
  match store with
  | some e => .fail p e
  | none => ⟨p, [.dbSpoilerImage p.id p.op, .feedSpoilerImage p.id (.spoiler p.id)], .ret none⟩

end Handlers

/-- One inbound message of the client together with what the database answers to it. -/
inductive Call where
  | appendRune (data : Except Error Int) (store : Option Error)
  | backspace (store : Option Error)
  | spliceText (data : Except Error SpliceRequestString) (store : Option Error)
  | insertImage (image : Except Error Bool) (data : Except Error ImageRequest)
      (tx : Except Error (List Nat))
  | spoilerImage (image : Except Error Bool) (store : Option Error)

section Runs

variable (cfg : Config)

/-- The handler a call reaches. -/
def step (p : OpenPost) : Call → Outcome
  | .appendRune data store => appendRune cfg p data store
  | .backspace store => backspace cfg p store
  | .spliceText data store => spliceText cfg p data store
  | .insertImage image data tx => insertImage cfg p image data tx
  | .spoilerImage image store => spoilerImage cfg p image store

/-- The post after a sequence of calls, each taking the post the previous one left. -/
def run (p : OpenPost) : List Call → OpenPost
  | [] => p
  | c :: cs => run (step cfg p c).post cs

/-- Every call of `cs`, made from `p` on, returns `nil`. -/
def Succeeds (p : OpenPost) : List Call → Prop
  | [] => True
  | c :: cs => (step cfg p c).exit = .ret none ∧ Succeeds (step cfg p c).post cs

end Runs

end Shamichan

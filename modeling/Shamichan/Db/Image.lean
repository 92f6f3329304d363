import Shamichan.Db.Blocks

/-!
# Shamichan — the image a reader rebuilds

`insert_post` and `add_image` store an image in its post's hash as the six fields of
`image_attrs`, all in one `HMSET`, and the readers (`get_thread`, `_get_each_reply`) rebuild it
with `extract_image`: when the hash has `src`, it copies every attribute, splits `dims` at
commas (a `TypeError` if `dims` is missing) and reads `size` with `parseInt`. No other command
of `db.js` writes or deletes one of these fields, so in every store the calls reach, a post's
hash holds either no `src` or one whole image, and the reader rebuilds that image.

* `ImageInv`: every post hash with `src` holds the fields of one image;
* `Command.Sent.imageInv`: every command the blocks send keeps it;
* `extractImage_of_hasImage`: reading a whole image back gives its fields, `size` as the
  number stored and `dims` as the texts of its numbers;
* `extractImage_runSteps`: after any interleaving of the calls' steps, `extract_image` on any
  post finds no image or a whole one, never `undefined` fields, a `NaN` size or a `TypeError`.
-/

namespace Shamichan.Db

open Js

/-- `pix.image_attrs`: the fields of a stored image. -/
def imageAttrs : List Str := ["src", "thumb", "dims", "size", "MD5", "imgnm"].map String.toList

/-- An image as `extract_image` rebuilds it from a post's hash: each attribute as read (`none`
for `undefined`), `dims` split at commas and `size` through `parseInt` (`none` for `NaN`). -/
structure ReadImage where
  src : Option Str
  thumb : Option Str
  dims : List Str
  size : Option Int
  md5 : Option Str
  imgnm : Option Str
  deriving DecidableEq, Repr

/-- `extract_image(post)` on a post `HGETALL` returned: no image without `src`, and a
`TypeError` when `dims` is missing (`image.dims.split` of `undefined`). -/
def extractImage (pre : Str → Option Str) : Except Str (Option ReadImage) :=
  match pre "src".toList with
  | none => .ok none
  | some src =>
    match pre "dims".toList with
    | none => .error "TypeError".toList
    | some dims => .ok (some ⟨some src, pre "thumb".toList, dims.splitOn ',',
        (pre "size".toList).bind parseInt, pre "MD5".toList, pre "imgnm".toList⟩)

/-- The image a reader should get back for a stored image. -/
def Image.read (img : Image) : ReadImage :=
  ⟨some img.src, some img.thumb, (joinInts img.dims).splitOn ',', some img.size, some img.md5,
    some img.imgnm⟩

/-- `dims` comes back as the texts of its numbers (for a non-empty list: `''.split(',')` is
`['']`). -/
theorem Image.read_dims {img : Image} (h : img.dims ≠ []) :
    img.read.dims = img.dims.map showInt := by
  refine List.splitOn_intercalate _ ',' (fun l hl hc => ?_) (by simpa using h)
  obtain ⟨n, -, rfl⟩ := List.mem_map.1 hl
  rcases showInt_digits n ',' hc with hd | hd <;> simp_all

/-- The hash of the post at `key` holds every field of `img`. -/
def Store.HasImage (s : Store) (key : PostKey) (img : Image) : Prop :=
  ∀ fv ∈ img.fields, s.hashes (.post key) fv.1 = some fv.2

/-- Every post hash with `src` holds one whole image. -/
def ImageInv (s : Store) : Prop :=
  ∀ key, (s.hashes (.post key) "src".toList).isSome → ∃ img, s.HasImage key img

theorem imageInv_empty : ImageInv Store.empty := fun _ h => by cases h

theorem Image.fields_fst (img : Image) : img.fields.map Prod.fst = imageAttrs := rfl

/-- Reading a whole image back. -/
theorem extractImage_of_hasImage {s : Store} {key : PostKey} {img : Image}
    (h : s.HasImage key img) : extractImage (s.hashes (.post key)) = .ok (some img.read) := by
  have hv : ∀ fv ∈ img.fields, s.hashes (.post key) fv.1 = some fv.2 := h
  simp only [Image.fields, List.mem_cons, List.mem_singleton, List.not_mem_nil, or_false,
    forall_eq_or_imp, forall_eq] at hv
  obtain ⟨hsrc, hthumb, hdims, hsize, hmd5, himgnm⟩ := hv
  simp only [extractImage, hsrc, hthumb, hdims, hsize, hmd5, himgnm, Option.some_bind,
    parseInt_showInt, Image.read]

/-! ## Every command keeps the invariant -/

section Keep

variable {s s' : Store}

/-- Only the image fields of the post hashes matter to `ImageInv`. -/
theorem ImageInv.of_agree (hs : ImageInv s)
    (h : ∀ key, ∀ f ∈ imageAttrs, s'.hashes (.post key) f = s.hashes (.post key) f) :
    ImageInv s' := by
  intro key hsrc
  rw [h key _ (by decide)] at hsrc
  obtain ⟨img, himg⟩ := hs key hsrc
  refine ⟨img, fun fv hfv => ?_⟩
  rw [h key fv.1 (img.fields_fst ▸ List.mem_map_of_mem _ hfv)]
  exact himg fv hfv

/-- Writing one field of a post that is not an image field. -/
theorem ImageInv.update_field (hs : ImageInv s) {f : Str} (hf : f ∉ imageAttrs) (k : PostKey)
    (v : Option Str) :
    ImageInv { s with hashes := (Function.update s.hashes (.post k)
      (Function.update (s.hashes (.post k)) f v)) } := by
  refine hs.of_agree fun key g hg => ?_
  simp only [Function.update_apply]
  split_ifs with hk
  · cases hk
    exact Function.update_noteq (fun e : g = f => hf (e ▸ hg)) _ _
  · rfl

/-- `HMSET` on a post: fields that are no image field, then possibly one whole image. -/
theorem ImageInv.hmset (hs : ImageInv s) (k : PostKey) {ys : List (Str × Str)}
    (hys : ∀ f ∈ imageAttrs, f ∉ ys.map Prod.fst) (img : Option Image) :
    ImageInv { s with hashes := (Function.update s.hashes (.post k)
      ((ys ++ (img.map Image.fields).getD []).foldl
        (fun (h : Str → Option Str) fv => Function.update h fv.1 (some fv.2))
        (s.hashes (.post k)))) } := by
  cases img with
  | none =>
    refine hs.of_agree fun key f hf => ?_
    simp only [Function.update_apply]
    split_ifs with hk
    · cases hk
      exact foldl_update_of_not_mem (by simpa using hys f hf) _
    · rfl
  | some img =>
    intro key hsrc
    by_cases hk : key = k
    · subst hk
      refine ⟨img, fun fv hfv => ?_⟩
      simp only [Function.update_same, Option.map_some', Option.getD_some, List.foldl_append]
      revert fv
      simp [Image.fields, Function.update_apply]
    · simp only [Function.update_noteq (show HashKey.post key ≠ .post k by simpa using hk)]
        at hsrc ⊢
      obtain ⟨img', himg'⟩ := hs key hsrc
      exact ⟨img', fun fv hfv => by
        simpa [Function.update_noteq (show HashKey.post key ≠ .post k by simpa using hk)]
          using himg' fv hfv⟩

/-- `insert_post`'s view: fields that are no image field, then the image's, if it has one. -/
theorem PostMsg.view_split (msg : PostMsg) (ip : Str) :
    ∃ ys, (∀ f ∈ imageAttrs, f ∉ ys.map Prod.fst) ∧
      msg.view ip = ys ++ (msg.image.map Image.fields).getD [] := by
  unfold PostMsg.view
  cases msg.image <;>
    [refine ⟨_, ?_, (List.append_nil _).symm⟩;
      refine ⟨_, ?_, (List.append_assoc _ _ _).symm⟩]
  -- `time`, `ip`, `state`, `name`, `trip`, `email`, `op`, and `imgctr` with an image
  all_goals
    intro f hf
    simp only [imageAttrs, List.map_cons, List.map_nil, List.mem_cons, List.mem_singleton,
      List.not_mem_nil, or_false] at hf
    rcases hf with rfl | rfl | rfl | rfl | rfl | rfl <;>
      simp [optField, apply_ite (List.map Prod.fst), List.mem_ite_nil_left,
        List.mem_ite_nil_right]

/-- **No command of `db.js` breaks an image.** -/
theorem Command.Sent.imageInv {c : Command} (h : c.Sent) (hs : ImageInv s) :
    ImageInv (s.exec1 c).1 := by
  cases h with
  | view key msg ip =>
    obtain ⟨ys, hys, he⟩ := msg.view_split ip
    simp only [Store.exec1, he]
    exact hs.hmset key hys msg.image
  | image num img =>
    exact @ImageInv.hmset s hs (.post num) [] (fun _ _ => List.not_mem_nil _) (some img)
  | logCount op | imgctr op =>
    simp only [Store.exec1]
    split
    · exact hs.update_field (by decide) _ _
    · exact hs
  | state key v | finishBody key v | hide key | delState key =>
    exact hs.update_field (by decide) _ _
  | md5 m v | links key l => exact hs.of_agree fun key f _ => by simp [Store.exec1]
  | bumpctr tag => simp only [Store.exec1]; split <;> exact hs
  | _ => exact hs

end Keep

/-- Every step keeps `ImageInv`. -/
theorem ImageInv.runSteps (c : Common) {s : Store} (hs : ImageInv s) :
    ∀ steps, ImageInv (runSteps c s steps) :=
  runSteps_keeps (fun _ hc _ => hc.imageInv) c hs

/-- **The reader always finds a whole image.** After any interleaving of the steps of the calls
of `db.js`, with any arguments, `extract_image` on any post's hash finds no image, or one whole
image some call stored: every attribute set, `size` the number stored (never `NaN`), and no
`TypeError` from a missing `dims`. -/
theorem extractImage_runSteps (c : Common) (steps : List HistoryStep) (key : PostKey) :
    extractImage ((runSteps c Store.empty steps).hashes (.post key)) = .ok none ∨
      ∃ img : Image,
        extractImage ((runSteps c Store.empty steps).hashes (.post key)) = .ok (some img.read) := by
  cases hsrc : (runSteps c Store.empty steps).hashes (.post key) "src".toList with
  | none => exact .inl (by simp only [extractImage, hsrc])
  | some src =>
    obtain ⟨img, himg⟩ := imageInv_empty.runSteps c steps key (by rw [hsrc]; rfl)
    exact .inr ⟨img, extractImage_of_hasImage himg⟩

end Shamichan.Db

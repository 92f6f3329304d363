import Shamichan.Pix.Uploading

/-!
# Shamichan — burying the files of a removed post

`process` names the files of an upload `time + image.ext` and `time + '.jpg'`, from the upload's
millisecond timestamp and the extension `parse_form` accepted. When a post is removed,
`remove_post` reads `src` and `thumb` back (`dump_pix`) and hands them to `bury_image`, which
moves them from `MEDIA_DIR` to `DEAD_DIR` only when both match `/^\d+\.\w+$/`.

* `buryImage_upload_names`: the names `process` gives always match, so the files of every
  upload `parse_form` accepted can be buried;
* `buryImage_plain_names`: a name that `bury_image` moves is one path component, never `.` or
  `..`, so `path.join` keeps both ends of every move inside their directory.
-/

namespace Shamichan.Pix

open Js

/-- `\w`: an ASCII letter, a digit or `_`. -/
def isWordChar (c : Char) : Bool := c.isAlphanum || c == '_'

/-- `/^\d+\.\w+$/` on a name: digits, a dot, word characters. A digit cannot stand for the dot,
so the digits are the longest run at the start. -/
def buryPattern (nm : Str) : Bool :=
  match nm.dropWhile Char.isDigit with
  | '.' :: w => !(nm.takeWhile Char.isDigit).isEmpty && !w.isEmpty && w.all isWordChar
  | _ => false

/-- `bury_image(src, thumb, callback)`: `'Invalid images.'` unless both names match, else the
two moves of `mv_file`, by directory (`src` and `thumb`) and name. -/
def buryImage (src thumb : Str) : Except Str (List (Str × Str)) :=
  if buryPattern src && buryPattern thumb then .ok [("src".toList, src), ("thumb".toList, thumb)]
  else .error "Invalid images.".toList

/-- The names `process` gives the files of an upload: `time + image.ext`, `time + '.jpg'`. -/
def uploadNames (time : Nat) (ext : Str) : Str × Str :=
  (showInt time ++ ext, showInt time ++ ".jpg".toList)

/-- A timestamp followed by a dot and word characters matches. -/
theorem buryPattern_showInt (time : Nat) {w : Str} (hw : w ≠ [])
    (hc : ∀ c ∈ w, isWordChar c) :
    buryPattern (showInt time ++ '.' :: w) = true := by
  obtain ⟨hne, hd, -⟩ := toDigits_spec time
  obtain ⟨ht, hdrop⟩ := takeWhile_isDigit_append hd
    (show ∀ c ∈ ('.' :: w).head?, ¬c.isDigit by simp)
  rw [showInt_ofNat, buryPattern, hdrop, ht]
  simp [hne, hw, List.all_eq_true.2 hc]

/-- **Every upload's files can be buried.** For any timestamp and any file name whose
extension `parse_form` accepts (`.png`, `.jpg`, `.gif`, after lower-casing and `.jpeg` to
`.jpg`), the two names `process` gives the files match `bury_image`'s pattern, so removing the
post moves both. -/
theorem buryImage_upload_names (time : Nat) {name : Str}
    (hext : imageExt name ∈ [".png".toList, ".jpg".toList, ".gif".toList]) :
    buryImage (uploadNames time (imageExt name)).1 (uploadNames time (imageExt name)).2 =
      .ok [("src".toList, (uploadNames time (imageExt name)).1),
        ("thumb".toList, (uploadNames time (imageExt name)).2)] := by
  have hjpg := buryPattern_showInt time (w := "jpg".toList) (by simp) (by decide)
  have hsrc : buryPattern (showInt time ++ imageExt name) = true := by
    simp only [List.mem_cons, List.mem_singleton, List.not_mem_nil, or_false] at hext
    rcases hext with h | h | h <;> rw [h] <;>
      exact buryPattern_showInt time (by simp) (by decide)
  simp only [buryImage, uploadNames, hsrc]
  exact if_pos hjpg

theorem buryImage_upload_names_sample :
    imageExt "cat.JPEG".toList ∈ [".png".toList, ".jpg".toList, ".gif".toList] ∧
      buryImage (uploadNames 1341 (imageExt "cat.JPEG".toList)).1
          (uploadNames 1341 (imageExt "cat.JPEG".toList)).2 =
        .ok [("src".toList, (uploadNames 1341 (imageExt "cat.JPEG".toList)).1),
          ("thumb".toList, (uploadNames 1341 (imageExt "cat.JPEG".toList)).2)] ∧
      uploadNames 1341 (imageExt "cat.JPEG".toList) = ("1341.jpg".toList, "1341.jpg".toList) :=
  ⟨by decide, buryImage_upload_names 1341 (by decide), by decide⟩

/-- A name that matches is one path component and no dot name: no `/`, and neither `.` nor
`..`. -/
theorem buryPattern_plain {nm : Str} (h : buryPattern nm = true) :
    '/' ∉ nm ∧ nm ≠ ".".toList ∧ nm ≠ "..".toList := by
  unfold buryPattern at h
  split at h
  · next w hw =>
    simp only [Bool.and_eq_true, Bool.not_eq_true', List.isEmpty_eq_false, List.all_eq_true]
      at h
    obtain ⟨⟨hds, hw0⟩, hwc⟩ := h
    have hsplit : nm = nm.takeWhile Char.isDigit ++ '.' :: w := by
      rw [← hw, List.takeWhile_append_dropWhile]
    have hdig : ∀ c ∈ nm.takeWhile Char.isDigit, c.isDigit := fun c hc =>
      List.mem_takeWhile_imp hc
    refine ⟨fun hs => ?_, fun he => hds (by rw [he]; rfl), fun he => hds (by rw [he]; rfl)⟩
    rw [hsplit] at hs
    rcases List.mem_append.1 hs with hs | hs
    · exact absurd (hdig _ hs) (by decide)
    · rcases List.mem_cons.1 hs with hs | hs
      · exact absurd hs (by decide)
      · exact absurd (hwc _ hs) (by decide)
  · cases h

/-- **`bury_image` moves plain names only.** Whatever `src` and `thumb` hold, every move it
makes names one path component that is neither `.` nor `..`. -/
theorem buryImage_plain_names {src thumb : Str} {moves : List (Str × Str)}
    (h : buryImage src thumb = .ok moves) :
    ∀ mv ∈ moves, '/' ∉ mv.2 ∧ mv.2 ≠ ".".toList ∧ mv.2 ≠ "..".toList := by
  unfold buryImage at h
  split_ifs at h with hb
  cases h
  simp only [Bool.and_eq_true] at hb
  simp only [List.mem_cons, List.mem_singleton, List.not_mem_nil, or_false]
  rintro mv (rfl | rfl)
  exacts [buryPattern_plain hb.1, buryPattern_plain hb.2]

theorem buryImage_plain_names_sample :
    buryImage "1341.png".toList "1341.jpg".toList =
        .ok [("src".toList, "1341.png".toList), ("thumb".toList, "1341.jpg".toList)] ∧
      ∀ mv ∈ [("src".toList, "1341.png".toList), ("thumb".toList, "1341.jpg".toList)],
        '/' ∉ mv.2 ∧ mv.2 ≠ ".".toList ∧ mv.2 ≠ "..".toList :=
  ⟨rfl, @buryImage_plain_names "1341.png".toList "1341.jpg".toList _ rfl⟩

end Shamichan.Pix

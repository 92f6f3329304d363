import Mathlib

/-!
# Shamichan — the UTF-8 codec under the open-post buffer

The websocket handlers of `post_updates.go` keep an open post's body as a byte buffer and
count it in runes, so every edit crosses Go's `unicode/utf8`: `string(r)` and `string(rs)`
encode (`utf8.EncodeRune`), `[]rune(string(b))` decodes (`utf8.DecodeRune` in a loop),
`backspace` takes the last rune off with `utf8.DecodeLastRune`, and `spliceText` sums
`utf8.RuneLen` to find a byte offset. This module writes those functions over bytes as
naturals and runes as integers (Go's `rune` is `int32`, so a client may send any of them),
and proves the facts the handlers rest on:

* `decodeRunes_encodeString`: decoding the encoding of scalar values gives them back;
* `decodeLastRune_append_encodeRune`: the last rune of a buffer ending in `string(r)` is `r`,
  `len(string(r))` bytes wide, whatever precedes it;
* `validRune_of_mem_decodeRunes`: whatever the bytes, `[]rune` yields scalar values only;
* `runeLen_eq_length_encodeRune`: `RuneLen` of a scalar value is the width of its encoding;
* `encodeRune_ascii_cases`: `string(r)` is one byte for an ASCII rune, else two or more bytes
  of at least `0x80`; so a string's byte length is its rune count exactly when it is ASCII
  (`length_encodeString_eq_iff`), and `[]rune(string(rs))` maps every rune that is not a
  scalar value to `RuneError` (`decodeRunes_encodeString_map`).
-/

namespace Shamichan

namespace Utf8

/-- `utf8.RuneError`, the replacement character U+FFFD. -/
def runeError : Int := 0xFFFD

/-- `utf8.ValidRune`: a Unicode scalar value, in range and not a surrogate. -/
def ValidRune (r : Int) : Prop := (0 ≤ r ∧ r < 0xD800) ∨ (0xDFFF < r ∧ r ≤ 0x10FFFF)

instance : DecidablePred ValidRune := fun _ => inferInstanceAs (Decidable (_ ∨ _))

/-- `utf8.RuneLen`: how many bytes encode `r`, or `-1` when `r` is not a valid rune. -/
def runeLen (r : Int) : Int :=
  if r < 0 then -1
  else if r ≤ 0x7F then 1
  else if r ≤ 0x7FF then 2
  else if 0xD800 ≤ r ∧ r ≤ 0xDFFF then -1
  else if r ≤ 0xFFFF then 3
  else if r ≤ 0x10FFFF then 4
  else -1

/-- The bytes `utf8.EncodeRune` writes for the code point `n` of a valid rune, one case per
width (`t2 | byte(r>>6)`, `tx | byte(r)&maskx`, … with the shifts and masks as `/` and `%`). -/
def encodeScalar (n : Nat) : List Nat :=
  if n ≤ 0x7F then [n]
  else if n ≤ 0x7FF then [0xC0 + n / 64, 0x80 + n % 64]
  else if n ≤ 0xFFFF then [0xE0 + n / 4096, 0x80 + n / 64 % 64, 0x80 + n % 64]
  else [0xF0 + n / 262144, 0x80 + n / 4096 % 64, 0x80 + n / 64 % 64, 0x80 + n % 64]

/-- `utf8.EncodeRune`, hence `string(r)`: a rune that is not valid is written as
`RuneError`. -/
def encodeRune (r : Int) : List Nat :=
  if ValidRune r then encodeScalar r.toNat else encodeScalar 0xFFFD

/-- `string(rs)` for a rune slice `rs`. -/
def encodeString (rs : List Int) : List Nat := rs.flatMap encodeRune

/-- What the `first` table of `utf8` says about a leading byte. -/
inductive Lead where
  | ascii
  | invalid
  /-- A sequence of `size` bytes whose second byte lies in `[lo, hi]`. -/
  | seq (size lo hi : Nat)

/-- The `first` table of `utf8` read together with `acceptRanges`: ASCII, a byte that starts
no sequence, or the length of the sequence a lead byte starts and the bounds of its second byte
(narrowed after `E0`, `ED`, `F0` and `F4` so that overlong forms, surrogates and code points
past `MaxRune` are refused). -/
def first (b : Nat) : Lead :=
  if b < 0x80 then .ascii
  else if b < 0xC2 ∨ 0xF4 < b then .invalid
  else if b ≤ 0xDF then .seq 2 0x80 0xBF
  else if b ≤ 0xEF then
    .seq 3 (if b = 0xE0 then 0xA0 else 0x80) (if b = 0xED then 0x9F else 0xBF)
  else .seq 4 (if b = 0xF0 then 0x90 else 0x80) (if b = 0xF4 then 0x8F else 0xBF)

/-- The multi-byte arm of `utf8.DecodeRune` after the lead byte `p0` of a `sz`-byte sequence
whose second byte must lie in `[lo, hi]`: the rune and its width, or `none` where a byte is out
of range (`DecodeRune` then answers `(RuneError, 1)`). -/
def decodeSeq (p0 sz lo hi : Nat) : List Nat → Option (Int × Nat)
  | [] => none
  | b1 :: p =>
    if b1 < lo ∨ hi < b1 then none
    else if sz ≤ 2 then some (↑(p0 % 32 * 64 + b1 % 64), 2)
    else match p with
      | [] => none
      | b2 :: p =>
        if b2 < 0x80 ∨ 0xBF < b2 then none
        else if sz ≤ 3 then some (↑(p0 % 16 * 4096 + b1 % 64 * 64 + b2 % 64), 3)
        else match p with
          | [] => none
          | b3 :: _ =>
            if b3 < 0x80 ∨ 0xBF < b3 then none
            else some (↑(p0 % 8 * 262144 + b1 % 64 * 4096 + b2 % 64 * 64 + b3 % 64), 4)

/-- `utf8.DecodeRune`: the first rune of `p` and its width, `(RuneError, 1)` on a byte that
starts no well-formed sequence and `(RuneError, 0)` on empty input. -/
def decodeRune : List Nat → Int × Nat
  | [] => (runeError, 0)
  | p0 :: p =>
    match first p0 with
    | .ascii => (p0, 1)
    | .invalid => (runeError, 1)
    | .seq sz lo hi =>
      if p.length + 1 < sz then (runeError, 1)
      else (decodeSeq p0 sz lo hi p).getD (runeError, 1)

theorem decodeSeq_size {p0 sz lo hi : Nat} {p : List Nat} {r : Int} {k : Nat}
    (h : decodeSeq p0 sz lo hi p = some (r, k)) : 2 ≤ k := by
  unfold decodeSeq at h
  split at h
  · cases h
  · repeat' split at h
    all_goals cases h <;> omega

theorem decodeRune_size_pos {p : List Nat} (h : p ≠ []) : 0 < (decodeRune p).2 := by
  obtain ⟨p0, p, rfl⟩ := List.exists_cons_of_ne_nil h
  simp only [decodeRune]
  split
  · simp
  · simp
  · split
    · simp
    · cases hs : decodeSeq p0 _ _ _ p with
      | none => simp
      | some rk => have := decodeSeq_size (p := p) (r := rk.1) (k := rk.2) hs; simp; omega

/-- The loop of `[]rune(s)` with at most `n` rounds: `DecodeRune` from the front until the
bytes run out, each byte that starts no well-formed sequence giving one `RuneError`. -/
def decodeRunesAux : Nat → List Nat → List Int
  | 0, _ => []
  | _ + 1, [] => []
  | n + 1, b :: p => (decodeRune (b :: p)).1 :: decodeRunesAux n ((b :: p).drop (decodeRune (b :: p)).2)

/-- `[]rune(s)`. Every round reads at least one byte, so one round per byte is enough
(`decodeRunes_eq`). -/
def decodeRunes (p : List Nat) : List Int := decodeRunesAux p.length p

theorem decodeRunesAux_congr : ∀ (n m : Nat) (p : List Nat), p.length ≤ n → p.length ≤ m →
    decodeRunesAux n p = decodeRunesAux m p
  | 0, m, p, hn, _ => by
    obtain rfl : p = [] := List.eq_nil_of_length_eq_zero (by omega)
    cases m <;> rfl
  | _ + 1, _, [], _, _ => by cases ‹Nat› <;> rfl
  | n + 1, m, b :: p, hn, hm => by
    obtain ⟨m, rfl⟩ : ∃ m', m = m' + 1 := ⟨m - 1, by simp at hm; omega⟩
    have := decodeRune_size_pos (p := b :: p) nofun
    simp only [decodeRunesAux]
    rw [decodeRunesAux_congr n m _ (by simp at hn ⊢; omega) (by simp at hm ⊢; omega)]

/-- The unfolding of `[]rune(s)`: the first rune, then the runes of the rest. -/
theorem decodeRunes_eq (p : List Nat) :
    decodeRunes p = if p = [] then [] else (decodeRune p).1 :: decodeRunes (p.drop (decodeRune p).2) := by
  match p with
  | [] => rfl
  | b :: p =>
    have := decodeRune_size_pos (p := b :: p) nofun
    rw [if_neg nofun, decodeRunes, List.length_cons, decodeRunesAux, decodeRunes,
      decodeRunesAux_congr _ _ _ (by simp; omega) (Nat.le_refl _)]

/-- `utf8.RuneStart`: `b&0xC0 != 0x80`, the byte is not a continuation byte. -/
def RuneStart (b : Nat) : Prop := b / 64 % 4 ≠ 2

instance : DecidablePred RuneStart := fun _ => inferInstanceAs (Decidable (_ ≠ _))

theorem not_runeStart_cont (x : Nat) : ¬RuneStart (0x80 + x % 64) := by
  unfold RuneStart; omega

theorem runeStart_lead {b : Nat} (h : 0xC0 ≤ b) (h2 : b < 0x100) : RuneStart b := by
  unfold RuneStart; omega

/-- The loop `for start--; start >= lim; start-- { if RuneStart(p[start]) { break } }` of
`utf8.DecodeLastRune`, entered with `start` already decremented once, with at most `k`
rounds; `decodeLastRune` gives it the `start - lim + 1` rounds the loop can take. -/
def scanBack (p : List Nat) (lim : Int) : Nat → Int → Int
  | 0, start => start
  | k + 1, start =>
    if start < lim then start
    else if RuneStart (p.getD start.toNat 0) then start
    else scanBack p lim k (start - 1)

/-- `utf8.DecodeLastRune`: the last rune of `p` and its width. The scan back stops at a
non-continuation byte at most `UTFMax` bytes from the end; the rune decoded there must end
exactly at the end of `p`, or the answer is `(RuneError, 1)`. -/
def decodeLastRune (p : List Nat) : Int × Nat :=
  let stop : Int := p.length
  if stop = 0 then (runeError, 0)
  else if p.getD (stop - 1).toNat 0 < 0x80 then (p.getD (stop - 1).toNat 0, 1)
  else
    let lim := max (stop - 4) 0
    let start := max (scanBack p lim (stop - 2 - lim + 1).toNat (stop - 2)) 0
    let (r, size) := decodeRune (p.drop start.toNat)
    if start + size ≠ stop then (runeError, 1) else (r, size)

/-! ## Encoding, then decoding

An encoded scalar value starts with a lead byte that `first` classifies as a sequence of the
encoding's width, and its continuation bytes fall in the ranges that sequence accepts; so
`DecodeRune` reads it back whatever follows, and `[]rune` reads back a whole encoding. -/

theorem encodeScalar_ne_nil (n : Nat) : encodeScalar n ≠ [] := by
  unfold encodeScalar; split_ifs <;> simp

/-- A three-byte lead byte: whichever of `E0`, `E1`–`EC`, `ED`, `EE`–`EF` it is, the second
byte of the encoding lies in the range it accepts. -/
theorem first_three {n : Nat} (h1 : 0x7FF < n) (h2 : n ≤ 0xFFFF) (hs : n < 0xD800 ∨ 0xDFFF < n) :
    ∃ lo hi, first (0xE0 + n / 4096) = .seq 3 lo hi ∧
      lo ≤ 0x80 + n / 64 % 64 ∧ 0x80 + n / 64 % 64 ≤ hi := by
  rw [first, if_neg (by omega), if_neg (by omega), if_neg (by omega), if_pos (by omega)]
  refine ⟨_, _, rfl, ?_, ?_⟩
  · by_cases hE0 : 0xE0 + n / 4096 = 0xE0
    · rw [if_pos hE0]; omega
    · rw [if_neg hE0]; omega
  · by_cases hED : 0xE0 + n / 4096 = 0xED
    · rw [if_pos hED]; omega
    · rw [if_neg hED]; omega

/-- A four-byte lead byte: `F0`, `F1`–`F3` or `F4`, and the second byte in its range. -/
theorem first_four {n : Nat} (h1 : 0xFFFF < n) (h2 : n ≤ 0x10FFFF) :
    ∃ lo hi, first (0xF0 + n / 262144) = .seq 4 lo hi ∧
      lo ≤ 0x80 + n / 4096 % 64 ∧ 0x80 + n / 4096 % 64 ≤ hi := by
  rw [first, if_neg (by omega), if_neg (by omega), if_neg (by omega), if_neg (by omega)]
  refine ⟨_, _, rfl, ?_, ?_⟩
  · by_cases hF0 : 0xF0 + n / 262144 = 0xF0
    · rw [if_pos hF0]; omega
    · rw [if_neg hF0]; omega
  · by_cases hF4 : 0xF0 + n / 262144 = 0xF4
    · rw [if_pos hF4]; omega
    · rw [if_neg hF4]; omega

/-- A continuation byte `0x80 + x % 64` carries the six bits `x % 64`. -/
theorem cont_mod (x : Nat) : (0x80 + x % 64) % 64 = x % 64 := by omega

theorem decodeRune_encodeScalar_append {n : Nat} (hn : n < 0xD800 ∨ 0xDFFF < n ∧ n ≤ 0x10FFFF)
    (p : List Nat) : decodeRune (encodeScalar n ++ p) = ((n : Int), (encodeScalar n).length) := by
  unfold encodeScalar
  split_ifs with h1 h2 h3
  · have : first n = .ascii := by rw [first, if_pos (by omega)]
    simp [decodeRune, this]
  · have : first (0xC0 + n / 64) = .seq 2 0x80 0xBF := by
      rw [first, if_neg (by omega), if_neg (by omega), if_pos (by omega)]
    simp only [List.cons_append, decodeRune, this, decodeSeq, List.length_cons]
    rw [if_neg (by omega), if_neg (by omega), if_pos (by omega)]
    simp only [Option.getD_some, List.length_nil]
    congr 2; omega
  · obtain ⟨lo, hi, hf, hlo, hhi⟩ := first_three (by omega) h3 (by omega)
    simp only [List.cons_append, decodeRune, hf, decodeSeq, List.length_cons]
    rw [if_neg (by omega), if_neg (by omega), if_neg (by omega), if_neg (by omega),
      if_pos (by omega)]
    simp only [Option.getD_some, List.length_nil]
    congr 2; simp only [cont_mod]; omega
  · obtain ⟨lo, hi, hf, hlo, hhi⟩ := first_four (show 0xFFFF < n by omega) (by omega)
    simp only [List.cons_append, decodeRune, hf, decodeSeq, List.length_cons]
    rw [if_neg (by omega), if_neg (by omega), if_neg (by omega), if_neg (by omega),
      if_neg (by omega), if_neg (by omega)]
    simp only [Option.getD_some, List.length_nil]
    congr 2; simp only [cont_mod]; omega

theorem decodeRune_encodeRune_append {r : Int} (hr : ValidRune r) (p : List Nat) :
    decodeRune (encodeRune r ++ p) = (r, (encodeRune r).length) := by
  rw [encodeRune, if_pos hr, decodeRune_encodeScalar_append (by unfold ValidRune at hr; omega)]
  congr 1; unfold ValidRune at hr; omega

@[simp] theorem decodeRunes_nil : decodeRunes [] = [] := rfl

theorem decodeRunes_encodeRune_append {r : Int} (hr : ValidRune r) (p : List Nat) :
    decodeRunes (encodeRune r ++ p) = r :: decodeRunes p := by
  have hne : encodeRune r ++ p ≠ [] := by simp [encodeRune, hr, encodeScalar_ne_nil]
  rw [decodeRunes_eq, if_neg hne, decodeRune_encodeRune_append hr, List.drop_left]

theorem decodeRunes_encodeString_append {rs : List Int} (h : ∀ r ∈ rs, ValidRune r)
    (p : List Nat) : decodeRunes (encodeString rs ++ p) = rs ++ decodeRunes p := by
  induction rs with
  | nil => rfl
  | cons r rs ih =>
    simp only [List.forall_mem_cons] at h
    simp only [encodeString, List.flatMap_cons, List.append_assoc] at ih ⊢
    rw [decodeRunes_encodeRune_append h.1, ih h.2, List.cons_append]

/-- **`[]rune(string(rs)) = rs`** for scalar values. -/
theorem decodeRunes_encodeString {rs : List Int} (h : ∀ r ∈ rs, ValidRune r) :
    decodeRunes (encodeString rs) = rs := by
  simpa using decodeRunes_encodeString_append h []

/-! ## What `[]rune` yields

`DecodeRune` answers either `RuneError` or a rune assembled from a well-formed sequence, and
the accept ranges of `first` rule out surrogates and code points past `MaxRune`; so every rune
of `[]rune(s)` is a scalar value, whatever the bytes of `s` (`UnmarshalJSON` of a splice
request relies on this). -/

theorem validRune_runeError : ValidRune runeError := by
  unfold ValidRune runeError; omega

theorem first_eq_ascii {b : Nat} (h : first b = .ascii) : b < 0x80 := by
  unfold first at h
  repeat' split at h
  all_goals first | assumption | cases h

/-- Inversion of the lead-byte table: the accepted second bytes are continuation bytes, a
three-byte lead is `E0`–`EF` and a four-byte lead `F0`–`F4`, with `ED`, `F0` and `F4` bounded
so as to exclude surrogates and code points past `MaxRune`. -/
theorem first_eq_seq {b sz lo hi : Nat} (h : first b = .seq sz lo hi) :
    0x80 ≤ lo ∧ hi ≤ 0xBF ∧
      (sz = 2 ∨ sz = 3 ∧ 0xE0 ≤ b ∧ b ≤ 0xEF ∧ (b = 0xED → hi = 0x9F) ∨
        sz = 4 ∧ 0xF0 ≤ b ∧ b ≤ 0xF4 ∧ (b = 0xF0 → lo = 0x90) ∧ (b = 0xF4 → hi = 0x8F)) := by
  unfold first at h
  repeat' split at h
  all_goals cases h <;> omega

theorem validRune_decodeSeq {p0 sz lo hi : Nat} {p : List Nat} {r : Int} {k : Nat}
    (hf : first p0 = .seq sz lo hi) (h : decodeSeq p0 sz lo hi p = some (r, k)) :
    ValidRune r := by
  have := first_eq_seq hf
  unfold ValidRune
  unfold decodeSeq at h
  repeat' split at h
  all_goals cases h <;> omega

theorem validRune_decodeRune (p : List Nat) : ValidRune (decodeRune p).1 := by
  match p with
  | [] => exact validRune_runeError
  | p0 :: p =>
    simp only [decodeRune]
    split
    next hf => have := first_eq_ascii hf; unfold ValidRune; omega
    next => exact validRune_runeError
    next hf =>
      split
      · exact validRune_runeError
      · cases hs : decodeSeq p0 _ _ _ p with
        | none => exact validRune_runeError
        | some rk => exact validRune_decodeSeq hf hs

theorem validRune_of_mem_decodeRunesAux :
    ∀ (n : Nat) (p : List Nat) {r : Int}, r ∈ decodeRunesAux n p → ValidRune r
  | 0, _, _, h => by simp [decodeRunesAux] at h
  | _ + 1, [], _, h => by simp [decodeRunesAux] at h
  | n + 1, b :: p, _, h => by
    rw [decodeRunesAux, List.mem_cons] at h
    rcases h with rfl | h
    · exact validRune_decodeRune _
    · exact validRune_of_mem_decodeRunesAux n _ h

/-- **`[]rune(s)` yields scalar values only**, for any bytes `s`. -/
theorem validRune_of_mem_decodeRunes {p : List Nat} {r : Int} (h : r ∈ decodeRunes p) :
    ValidRune r :=
  validRune_of_mem_decodeRunesAux _ _ h

/-! ## The last rune of a buffer

`DecodeLastRune` scans back over continuation bytes to the lead byte of the last sequence and
decodes from there; on a buffer that ends in `string(r)` the lead byte is found within the
last `len(string(r))` bytes, so the bytes before them are never read. -/

theorem scanBack_of_runeStart {p : List Nat} {lim i : Int} {k : Nat} (hi : lim ≤ i)
    (h : RuneStart (p.getD i.toNat 0)) : scanBack p lim (k + 1) i = i := by
  rw [scanBack, if_neg (by omega), if_pos h]

theorem scanBack_of_not_runeStart {p : List Nat} {lim i : Int} {k : Nat} (hi : lim ≤ i)
    (h : ¬RuneStart (p.getD i.toNat 0)) : scanBack p lim (k + 1) i = scanBack p lim k (i - 1) := by
  rw [scanBack, if_neg (by omega), if_neg h]

theorem getD_append_length_add (q c : List Nat) (j : Nat) :
    (q ++ c).getD (q.length + j) 0 = c.getD j 0 := by
  rw [List.getD_append_right _ _ _ _ (by omega), Nat.add_sub_cancel_left]

/-- From the end of a trailing sequence `c` back to its lead byte: the scan steps over the
continuation bytes of `c` and stops at its first byte, never reading `q`. -/
theorem scanBack_append (q : List Nat) {c : List Nat} (lim : Int) (hlim : lim ≤ q.length)
    (hlead : RuneStart (c.getD 0 0))
    (hcont : ∀ j, 0 < j → j < c.length → ¬RuneStart (c.getD j 0)) :
    ∀ j k, j < c.length → j < k → scanBack (q ++ c) lim k (q.length + j) = q.length
  | _, 0, _, hk => absurd hk (Nat.not_lt_zero _)
  | 0, _ + 1, _, _ => scanBack_of_runeStart (by omega) (by
      rw [show ((q.length : Int) + ((0 : Nat) : Int)).toNat = q.length + 0 by omega,
        getD_append_length_add]; exact hlead)
  | j + 1, k + 1, hj, hk => by
    rw [scanBack_of_not_runeStart (by omega) (by
        rw [show ((q.length : Int) + ((j + 1 : Nat) : Int)).toNat = q.length + (j + 1) by omega,
          getD_append_length_add]; exact hcont (j + 1) (by omega) hj),
      show (q.length : Int) + ((j + 1 : Nat) : Int) - 1 = q.length + (j : Int) by omega]
    exact scanBack_append q lim hlim hlead hcont j k (by omega) (by omega)

/-- `DecodeLastRune` of a buffer ending in a multi-byte sequence `c` that `DecodeRune` reads
whole: the answer is that rune and width. -/
theorem decodeLastRune_append_seq (q : List Nat) {c : List Nat} {r : Int}
    (hlen : 2 ≤ c.length) (hlen4 : c.length ≤ 4) (hlast : 0x80 ≤ c.getD (c.length - 1) 0)
    (hlead : RuneStart (c.getD 0 0))
    (hcont : ∀ j, 0 < j → j < c.length → ¬RuneStart (c.getD j 0))
    (hdec : decodeRune c = (r, c.length)) : decodeLastRune (q ++ c) = (r, c.length) := by
  have hscan := scanBack_append q (max (((q ++ c).length : Int) - 4) 0)
    (by simp only [List.length_append]; omega) hlead hcont (c.length - 2)
    (((q.length : Int) + ((c.length - 2 : Nat) : Int) - max (((q ++ c).length : Int) - 4) 0 +
      1).toNat) (by omega) (by simp only [List.length_append]; omega)
  have hstart : ((q ++ c).length : Int) - 2 = q.length + ((c.length - 2 : Nat) : Int) := by
    simp only [List.length_append]; omega
  have hlastb : (q ++ c).getD (((q ++ c).length : Int) - 1).toNat 0 = c.getD (c.length - 1) 0 := by
    rw [show (((q ++ c).length : Int) - 1).toNat = q.length + (c.length - 1) by
      simp only [List.length_append]; omega, getD_append_length_add]
  simp only [decodeLastRune, hlastb]
  rw [if_neg (by simp only [List.length_append]; omega), if_neg (by omega), hstart, hscan,
    show max (q.length : Int) 0 = q.length by omega, show ((q.length : Int)).toNat = q.length by omega, List.drop_left,
    hdec, if_neg (by simp only [List.length_append]; omega)]

theorem decodeLastRune_append_encodeScalar (q : List Nat) {n : Nat}
    (hn : n < 0xD800 ∨ 0xDFFF < n ∧ n ≤ 0x10FFFF) :
    decodeLastRune (q ++ encodeScalar n) = ((n : Int), (encodeScalar n).length) := by
  have hdec := decodeRune_encodeScalar_append hn []
  rw [List.append_nil] at hdec
  unfold encodeScalar at hdec ⊢
  split_ifs at hdec ⊢ with h1 h2 h3
  · have hl : (q ++ [n]).getD (((q ++ [n]).length : Int) - 1).toNat 0 = n := by
      rw [show (((q ++ [n]).length : Int) - 1).toNat = q.length + 0 by simp,
        getD_append_length_add]; rfl
    simp only [decodeLastRune, hl, List.length_singleton]
    rw [if_neg (by simp only [List.length_append, List.length_singleton]; omega),
      if_pos (by omega)]
  · refine decodeLastRune_append_seq q (by simp) (by simp) (by simp)
      (runeStart_lead (b := 0xC0 + n / 64) (by omega) (by omega)) (fun j hj hj2 => ?_) hdec
    obtain rfl : j = 1 := by simp at hj2; omega
    exact not_runeStart_cont _
  · refine decodeLastRune_append_seq q (by simp) (by simp) (by simp)
      (runeStart_lead (b := 0xE0 + n / 4096) (by omega) (by omega)) (fun j hj hj2 => ?_) hdec
    obtain rfl | rfl : j = 1 ∨ j = 2 := by simp at hj2; omega
    all_goals exact not_runeStart_cont _
  · refine decodeLastRune_append_seq q (by simp) (by simp) (by simp)
      (runeStart_lead (b := 0xF0 + n / 262144) (by omega) (by omega)) (fun j hj hj2 => ?_) hdec
    obtain rfl | rfl | rfl : j = 1 ∨ j = 2 ∨ j = 3 := by simp at hj2; omega
    all_goals exact not_runeStart_cont _

/-- **The last rune of `q ++ string(r)` is `r`**, `len(string(r))` bytes wide, for a scalar
value `r` and any bytes `q`. -/
theorem decodeLastRune_append_encodeRune (q : List Nat) {r : Int} (hr : ValidRune r) :
    decodeLastRune (q ++ encodeRune r) = (r, (encodeRune r).length) := by
  rw [encodeRune, if_pos hr,
    decodeLastRune_append_encodeScalar q (by unfold ValidRune at hr; omega)]
  congr 1; unfold ValidRune at hr; omega

/-! ## Widths, NUL and newlines of an encoding -/

@[simp] theorem encodeString_nil : encodeString [] = [] := rfl

@[simp] theorem encodeString_append (rs rs' : List Int) :
    encodeString (rs ++ rs') = encodeString rs ++ encodeString rs' := List.flatMap_append ..

@[simp] theorem encodeString_cons (r : Int) (rs : List Int) :
    encodeString (r :: rs) = encodeRune r ++ encodeString rs := rfl

/-- `RuneLen` of a scalar value is the number of bytes `string(r)` takes. -/
theorem runeLen_eq_length_encodeRune {r : Int} (hr : ValidRune r) :
    runeLen r = (encodeRune r).length := by
  unfold ValidRune at hr
  rw [encodeRune, if_pos (by unfold ValidRune; omega), encodeScalar, runeLen,
    if_neg (show ¬r < 0 by omega)]
  -- state `encodeScalar`'s bounds on `r.toNat` as `runeLen`'s on `r`, so the cases line up
  simp only [Int.toNat_le, Nat.cast_ofNat]
  split_ifs <;> first | rfl | omega

/-- Every byte of a multi-byte encoding is at least `0x80`, and there are two or more. -/
theorem encodeScalar_multi {n : Nat} (hn : 0x7F < n) :
    2 ≤ (encodeScalar n).length ∧ ∀ b ∈ encodeScalar n, 0x80 ≤ b := by
  unfold encodeScalar
  split_ifs <;> simp <;> omega

/-- `string(r)` is the one byte `r` for an ASCII rune; otherwise it has two bytes or more, all
of them at least `0x80`. -/
theorem encodeRune_ascii_cases (r : Int) :
    (0 ≤ r ∧ r < 0x80 ∧ encodeRune r = [r.toNat]) ∨
      (¬(0 ≤ r ∧ r < 0x80) ∧ 2 ≤ (encodeRune r).length ∧ ∀ b ∈ encodeRune r, 0x80 ≤ b) := by
  by_cases ha : 0 ≤ r ∧ r < 0x80
  · refine .inl ⟨ha.1, ha.2, ?_⟩
    rw [encodeRune, if_pos (.inl ⟨ha.1, by omega⟩), encodeScalar, if_pos (by omega)]
  · refine .inr ⟨ha, ?_⟩
    unfold encodeRune; split_ifs with hv
    · exact encodeScalar_multi (by unfold ValidRune at hv; omega)
    · exact encodeScalar_multi (by decide)

/-- `string(r)` has a NUL byte only for `r = 0`. -/
theorem zero_not_mem_encodeRune {r : Int} (h : r ≠ 0) : 0 ∉ encodeRune r := by
  rcases encodeRune_ascii_cases r with ⟨h0, -, he⟩ | ⟨-, -, hb⟩
  · rw [he, List.mem_singleton]; omega
  · exact fun hm => absurd (hb 0 hm) (by decide)

/-- A newline byte in `string(r)` is the rune `'\n'` itself: the bytes of a multi-byte
encoding are all at least `0x80`. -/
theorem count_newline_encodeRune (r : Int) :
    (encodeRune r).count 10 = if r = 10 then 1 else 0 := by
  rcases encodeRune_ascii_cases r with ⟨h0, -, he⟩ | ⟨ha, -, hb⟩
  · simp only [he, List.count_singleton, beq_iff_eq]; split_ifs <;> omega
  · rw [List.count_eq_zero.2 fun hm => absurd (hb 10 hm) (by decide), if_neg (by omega)]

theorem count_newline_encodeString (rs : List Int) :
    (encodeString rs).count 10 = rs.count 10 := by
  induction rs with
  | nil => rfl
  | cons r rs ih =>
    rw [encodeString_cons, List.count_append, ih, count_newline_encodeRune, List.count_cons]
    simp only [beq_iff_eq]; split_ifs <;> omega

/-- `string(r)` of a rune that is not a scalar value is `string(RuneError)`. -/
theorem encodeRune_of_not_validRune {r : Int} (h : ¬ValidRune r) :
    encodeRune r = encodeRune runeError := by
  rw [encodeRune, if_neg h, encodeRune, if_pos validRune_runeError]; rfl

/-- `[]rune(string(rs))`: every scalar value comes back, every other rune as `RuneError`. -/
theorem decodeRunes_encodeString_map (rs : List Int) :
    decodeRunes (encodeString rs) = rs.map fun r => if ValidRune r then r else runeError := by
  have henc : encodeString rs = encodeString (rs.map fun r => if ValidRune r then r else runeError) := by
    induction rs with
    | nil => rfl
    | cons r rs ih =>
      rw [List.map_cons, encodeString_cons, encodeString_cons, ← ih]
      split_ifs with hr
      · rfl
      · rw [encodeRune_of_not_validRune hr]
  rw [henc, decodeRunes_encodeString]
  intro r hr
  obtain ⟨x, -, rfl⟩ := List.mem_map.1 hr
  split_ifs with hx
  exacts [hx, validRune_runeError]

theorem length_encodeRune_pos (r : Int) : 0 < (encodeRune r).length := by
  unfold encodeRune; split_ifs <;> exact List.length_pos.2 (encodeScalar_ne_nil _)

/-- `string(r)` takes one byte exactly for an ASCII rune. -/
theorem length_encodeRune_eq_one {r : Int} : (encodeRune r).length = 1 ↔ 0 ≤ r ∧ r < 0x80 := by
  rcases encodeRune_ascii_cases r with ⟨h0, h1, he⟩ | ⟨ha, hl, -⟩
  · simp [he, h0, h1]
  · exact iff_of_false (by omega) ha

theorem length_le_length_encodeString (rs : List Int) : rs.length ≤ (encodeString rs).length := by
  induction rs with
  | nil => rfl
  | cons r rs ih =>
    have := length_encodeRune_pos r
    simp only [encodeString_cons, List.length_append, List.length_cons]; omega

/-- `string(rs)` has as many bytes as `rs` has runes exactly when every rune is ASCII. -/
theorem length_encodeString_eq_iff (rs : List Int) :
    (encodeString rs).length = rs.length ↔ ∀ r ∈ rs, 0 ≤ r ∧ r < 0x80 := by
  induction rs with
  | nil => simp
  | cons r rs ih =>
    have h1 := length_encodeRune_pos r
    have h2 := length_le_length_encodeString rs
    rw [encodeString_cons, List.length_append, List.length_cons, List.forall_mem_cons, ← ih,
      ← length_encodeRune_eq_one]
    omega

end Utf8

end Shamichan

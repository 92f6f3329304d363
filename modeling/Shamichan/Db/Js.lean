import Mathlib

/-!
# Shamichan — the JavaScript text functions of the database layer

`db.js` moves thread updates through Redis as text: `Y._log` writes a message with
`JSON.stringify`, and its two readers take it apart with `String.prototype.match`,
`String.prototype.split` and `parseInt`. This module models those functions on strings taken
as lists of characters.

* `showInt`, `parseInt`: an integer's decimal text, and the global `parseInt` with its white
  space, sign, `0x` prefix and `NaN` (`none`); `parseInt_showInt_append` reads back a number
  followed by anything that is not a digit.
* `Json.stringify`: values with integer numbers, strings escaped as `JSON.stringify` does.
* `matchKindNum`, `matchThread`: the captures of `/^(\d+),(\d+)/` and `/^thread:(\d+)$/`.
* `split`: `s.split(sep, limit)`.
* `isProtoKey`, `shadowsHasOwnProperty`: the keys every object inherits from `Object.prototype`,
  and the objects on which `obj.hasOwnProperty(k)` throws.
-/

namespace Shamichan.Js

/-- A JS string, as its characters. -/
abbrev Str := List Char

/-! ## Numbers as text -/

/-- `String(n)` for an integer: its decimal digits, after `-` when it is negative. JS writes
numbers from `1e21` on in exponent notation, far beyond any post number. -/
def showInt : Int → Str
  | .ofNat k => Nat.toDigits 10 k
  | .negSucc k => '-' :: Nat.toDigits 10 (k + 1)

/-- The value of `c` as a digit of radix `r`: `0-9`, then `a-z` or `A-Z` from 10 on. -/
def digitVal (r : Nat) (c : Char) : Option Nat :=
  (if '0' ≤ c ∧ c ≤ '9' then some (c.toNat - '0'.toNat)
    else if 'a' ≤ c ∧ c ≤ 'z' then some (c.toNat - 'a'.toNat + 10)
    else if 'A' ≤ c ∧ c ≤ 'Z' then some (c.toNat - 'A'.toNat + 10)
    else none).filter (· < r)

/-- `StrWhiteSpaceChar`: the white space and line terminators `parseInt` skips. -/
def isJsSpace (c : Char) : Bool :=
  [0x09, 0x0A, 0x0B, 0x0C, 0x0D, 0x20, 0xA0, 0x1680, 0x2028, 0x2029, 0x202F, 0x205F, 0x3000,
    0xFEFF].contains c.toNat || (0x2000 ≤ c.toNat && c.toNat ≤ 0x200A)

/-- The value of the longest prefix of radix-`r` digits of `s`, `none` when it is empty. -/
def digitsValue (r : Nat) (s : Str) : Option Nat :=
  match (s.takeWhile fun c => (digitVal r c).isSome).filterMap (digitVal r) with
  | [] => none
  | ds => some (ds.foldl (fun a d => a * r + d) 0)

/-- The sign `parseInt` reads, and the text after it. -/
def parseSign : Str → Bool × Str
  | '-' :: t => (true, t)
  | '+' :: t => (false, t)
  | s => (false, s)

/-- The radix `parseInt` reads: 16 after a `0x` or `0X` prefix, which it drops, else 10. -/
def parseRadix : Str → Nat × Str
  | '0' :: x :: t => if x = 'x' ∨ x = 'X' then (16, t) else (10, '0' :: x :: t)
  | s => (10, s)

/-- The global `parseInt(s)` with no radix; `none` is `NaN`. -/
def parseInt (s : Str) : Option Int :=
  let (neg, s) := parseSign (s.dropWhile isJsSpace)
  let (r, s) := parseRadix s
  (digitsValue r s).map fun v => if neg then -(v : Int) else v

/-! ## Reading a number back -/

/-- The value of a run of decimal digits. -/
def decValue (ds : Str) : Nat := ds.foldl (fun a c => a * 10 + (c.toNat - 48)) 0

/-- Where a number's text may end: at the end of the string, or before a character that is
no digit and not the `x` of a `0x` prefix. -/
def EndsNumber (rest : Str) : Prop := ∀ c ∈ rest.head?, ¬c.isDigit ∧ c ≠ 'x' ∧ c ≠ 'X'

theorem isDigit_iff (c : Char) : c.isDigit ↔ '0' ≤ c ∧ c ≤ '9' := by
  simp only [Char.isDigit, Bool.and_eq_true, decide_eq_true_eq]; exact Iff.rfl

theorem digitVal_ten_of_isDigit {c : Char} (h : c.isDigit) :
    digitVal 10 c = some (c.toNat - 48) := by
  rw [isDigit_iff] at h
  have : c.toNat ≤ 57 := h.2
  simp only [digitVal, if_pos h, Option.filter]
  rw [if_pos (by simp; omega)]; rfl

theorem digitVal_ten_of_not_isDigit {c : Char} (h : ¬c.isDigit) : digitVal 10 c = none := by
  rw [isDigit_iff] at h
  simp only [digitVal, if_neg h, Option.filter]
  split_ifs <;> simp only [Char.le_def] at * <;> simp

theorem isJsSpace_of_isDigit {c : Char} (h : c.isDigit) : isJsSpace c = false := by
  rw [isDigit_iff] at h
  have h1 : 48 ≤ c.toNat := h.1
  have h2 : c.toNat ≤ 57 := h.2
  simp [isJsSpace]
  omega

theorem digitChar_spec : ∀ d < 10, (Nat.digitChar d).isDigit ∧ (Nat.digitChar d).toNat - 48 = d := by
  decide

/-- The digits `toDigitsCore` puts before `acc`, given fuel enough: a nonempty run of decimal
digits whose value is `n`. -/
theorem toDigitsCore_spec {f n : Nat} (acc : Str) (hf : n < f) :
    ∃ ds, Nat.toDigitsCore 10 f n acc = ds ++ acc ∧ ds ≠ [] ∧ (∀ c ∈ ds, c.isDigit) ∧
      decValue ds = n := by
  induction f generalizing n acc with
  | zero => omega
  | succ f ih =>
    obtain ⟨hc, hv⟩ := digitChar_spec (n % 10) (Nat.mod_lt _ (by omega))
    simp only [Nat.toDigitsCore]
    split_ifs with h0
    · exact ⟨[Nat.digitChar (n % 10)], rfl, by simp, by simpa using hc, by simp [decValue, hv]; omega⟩
    · obtain ⟨ds, he, -, hdig, hval⟩ := ih (Nat.digitChar (n % 10) :: acc) (show n / 10 < f by omega)
      refine ⟨ds ++ [Nat.digitChar (n % 10)], by simp [he], by simp, ?_, ?_⟩
      · simpa [or_imp, forall_and] using ⟨hdig, hc⟩
      · rw [decValue, List.foldl_append, ← decValue, hval]; simp only [List.foldl, hv]; omega

theorem toDigits_spec (n : Nat) :
    Nat.toDigits 10 n ≠ [] ∧ (∀ c ∈ Nat.toDigits 10 n, c.isDigit) ∧
      decValue (Nat.toDigits 10 n) = n := by
  obtain ⟨ds, he, hne, hdig, hval⟩ := toDigitsCore_spec [] (Nat.lt_succ_self n)
  rw [List.append_nil] at he
  rw [Nat.toDigits, he]
  exact ⟨hne, hdig, hval⟩

theorem digitsValue_digits_append {ds rest : Str} (hne : ds ≠ []) (hd : ∀ c ∈ ds, c.isDigit)
    (hr : EndsNumber rest) : digitsValue 10 (ds ++ rest) = some (decValue ds) := by
  have htake : (ds ++ rest).takeWhile (fun c => (digitVal 10 c).isSome) = ds := by
    rw [List.takeWhile_append_of_pos (fun c hc => by simp [digitVal_ten_of_isDigit (hd c hc)])]
    cases rest with
    | nil => simp
    | cons c t => simp [digitVal_ten_of_not_isDigit (hr c rfl).1]
  have hmap : ds.filterMap (digitVal 10) = ds.map (·.toNat - 48) :=
    List.filterMap_eq_map_iff_forall_eq_some.2 fun c hc => digitVal_ten_of_isDigit (hd c hc)
  rw [digitsValue, htake, hmap]
  split
  · simp_all
  · simp [decValue, List.foldl_map]

theorem parseSign_of_isDigit {d : Char} (h : d.isDigit) (t : Str) :
    parseSign (d :: t) = (false, d :: t) := by
  unfold parseSign
  split
  · next heq => cases heq; contradiction
  · next heq => cases heq; contradiction
  · rfl

theorem parseRadix_digits_append {ds rest : Str} (hne : ds ≠ []) (hd : ∀ c ∈ ds, c.isDigit)
    (hr : EndsNumber rest) : parseRadix (ds ++ rest) = (10, ds ++ rest) := by
  unfold parseRadix
  split
  · next x t heq =>
    -- the character after a leading `0` is a further digit or ends the number
    have hx : x ≠ 'x' ∧ x ≠ 'X' := by
      match ds, hne with
      | [_], _ => exact (hr x (by simp_all)).2
      | _ :: e :: _, _ =>
        simp only [List.cons_append, List.cons.injEq] at heq
        have he : e.isDigit := hd e (by simp)
        rw [heq.2.1] at he
        constructor <;> rintro rfl <;> revert he <;> decide
    rw [if_neg (by tauto), heq]
  · rfl

/-- `parseInt` reads back the text of an integer, whatever follows it that ends a number. -/
theorem parseInt_showInt_append (n : Int) {rest : Str} (hr : EndsNumber rest) :
    parseInt (showInt n ++ rest) = some n := by
  cases n with
  | ofNat k =>
    obtain ⟨hne, hd, hv⟩ := toDigits_spec k
    obtain ⟨d, ds, hds⟩ := List.exists_cons_of_ne_nil hne
    have hd0 : d.isDigit := hd d (by simp [hds])
    have hsp : (Nat.toDigits 10 k ++ rest).dropWhile isJsSpace = Nat.toDigits 10 k ++ rest := by
      rw [hds, List.cons_append, List.dropWhile_cons, isJsSpace_of_isDigit hd0]; rfl
    have hsign : parseSign (Nat.toDigits 10 k ++ rest) = (false, Nat.toDigits 10 k ++ rest) := by
      rw [hds, List.cons_append]; exact parseSign_of_isDigit hd0 _
    simp only [parseInt, showInt, hsp, hsign, parseRadix_digits_append hne hd hr,
      digitsValue_digits_append hne hd hr, hv]
    rfl
  | negSucc k =>
    obtain ⟨hne, hd, hv⟩ := toDigits_spec (k + 1)
    have hsp : ('-' :: (Nat.toDigits 10 (k + 1) ++ rest)).dropWhile isJsSpace =
        '-' :: (Nat.toDigits 10 (k + 1) ++ rest) := by
      rw [List.dropWhile_cons, show isJsSpace '-' = false by decide]; rfl
    simp only [parseInt, showInt, hsp, List.cons_append, parseSign,
      parseRadix_digits_append hne hd hr, digitsValue_digits_append hne hd hr, hv]
    rfl

/-! ## `JSON.stringify` -/

/-- A JSON value as these messages carry it: numbers are integers, objects keep the order in
which their keys were added. -/
inductive Json where
  | null
  | bool (b : Bool)
  | num (n : Int)
  | str (s : Str)
  | arr (xs : List Json)
  | obj (kvs : List (Str × Json))

/-- The quotation mark and the backslash, the two characters a string literal escapes besides
the control characters. -/
def quoteMark : Char := Char.ofNat 34

@[inherit_doc quoteMark]
def backslash : Char := Char.ofNat 92

/-- One character of a string literal as `JSON.stringify` writes it. -/
def escapeChar (c : Char) : Str :=
  if c = quoteMark ∨ c = backslash then [backslash, c]
  else if c = '\x08' then [backslash, 'b']
  else if c = '\x0c' then [backslash, 'f']
  else if c = '\n' then [backslash, 'n']
  else if c = '\r' then [backslash, 'r']
  else if c = '\t' then [backslash, 't']
  else if c.toNat < 0x20 then
    [backslash, 'u', '0', '0', Nat.digitChar (c.toNat / 16), Nat.digitChar (c.toNat % 16)]
  else [c]

/-- `JSON.stringify` of a string. -/
def quote (s : Str) : Str := quoteMark :: s.flatMap escapeChar ++ [quoteMark]

mutual

/-- `JSON.stringify` of a value. -/
def Json.stringify : Json → Str
  | .null => "null".toList
  | .bool b => (if b then "true" else "false").toList
  | .num n => showInt n
  | .str s => quote s
  | .arr xs => '[' :: stringifyList xs ++ [']']
  | .obj kvs => '{' :: stringifyFields kvs ++ ['}']

/-- The elements of an array, separated by commas. -/
def stringifyList : List Json → Str
  | [] => []
  | [x] => x.stringify
  | x :: xs => x.stringify ++ ',' :: stringifyList xs

/-- The members of an object, `"key":value`, separated by commas. -/
def stringifyFields : List (Str × Json) → Str
  | [] => []
  | [(k, v)] => quote k ++ ':' :: v.stringify
  | (k, v) :: kvs => quote k ++ ':' :: v.stringify ++ ',' :: stringifyFields kvs

end

/-! ## Matching and splitting -/

/-- The captures of `/^(\d+),(\d+)/`: the leading run of digits and the run after the comma
that follows it, `none` where `match` gives `null`. A greedy run of digits is the only one a
comma can follow, so no backtracking changes the match. -/
def matchKindNum (s : Str) : Option (Str × Str) :=
  let d1 := s.takeWhile Char.isDigit
  match s.dropWhile Char.isDigit with
  | ',' :: t =>
    let d2 := t.takeWhile Char.isDigit
    if d1 = [] ∨ d2 = [] then none else some (d1, d2)
  | _ => none

/-- The capture of `/^thread:(\d+)$/` when `whole`, else of `/^thread:(\d+)/`. -/
def matchThread (whole : Bool) (s : Str) : Option Str :=
  if "thread:".toList.isPrefixOf s then
    let t := s.drop 7
    let d := t.takeWhile Char.isDigit
    if d = [] ∨ (whole ∧ t.dropWhile Char.isDigit ≠ []) then none else some d
  else none

/-- `s.split(sep, limit)`. -/
def split (s : Str) (sep : Char) (limit : Nat) : List Str := (s.splitOn sep).take limit

/-! ## Where colons are -/

theorem showInt_digits (n : Int) :
    ∀ c ∈ showInt n, c.isDigit ∨ c = '-' := by
  cases n with
  | ofNat k => exact fun c hc => .inl ((toDigits_spec k).2.1 c hc)
  | negSucc k =>
    intro c hc
    rcases List.mem_cons.1 hc with rfl | hc
    · exact .inr rfl
    · exact .inl ((toDigits_spec (k + 1)).2.1 c hc)

theorem colon_not_mem_showInt (n : Int) : ':' ∉ showInt n := fun h => by
  rcases showInt_digits n ':' h with h | h <;> revert h <;> decide

theorem colon_not_mem_escapeChar {c : Char} (hc : c ≠ ':') : ':' ∉ escapeChar c := by
  have hd : ∀ d < 16, ':' ≠ Nat.digitChar d := by decide
  -- one goal per branch of the table, with its condition or the negation as a hypothesis
  simp only [escapeChar, apply_ite (fun l : Str => ':' ∉ l), ite_prop_iff_and]
  repeat' (apply And.intro <;> intro _)
  all_goals simp [backslash, Ne.symm hc]
  exact ⟨hd _ (by omega), hd _ (Nat.mod_lt _ (by omega))⟩

theorem colon_not_mem_quote {s : Str} (h : ':' ∉ s) : ':' ∉ quote s := by
  have hq : ':' ≠ quoteMark := by decide
  simp only [quote, List.mem_cons, List.mem_append, List.mem_flatMap, List.mem_singleton, hq,
    List.not_mem_nil, false_or, or_false, not_exists, not_and]
  exact fun c hc => colon_not_mem_escapeChar fun e => h (e ▸ hc)

/-- The first piece of a split is the text before the first separator. -/
theorem splitOn_eq_takeWhile_cons (s : Str) (c : Char) :
    ∃ rest, s.splitOn c = s.takeWhile (· != c) :: rest := by
  induction s with
  | nil => exact ⟨[], rfl⟩
  | cons x xs ih =>
    obtain ⟨rest, hr⟩ := ih
    simp only [List.splitOn] at hr ⊢
    rw [List.splitOnP_cons]
    by_cases hx : x = c
    · simp [hx]
    · simp [hx, hr]

/-! ## Reading runs of digits -/

theorem takeWhile_isDigit_append {ds rest : Str} (hd : ∀ c ∈ ds, c.isDigit)
    (hr : ∀ c ∈ rest.head?, ¬c.isDigit) :
    (ds ++ rest).takeWhile Char.isDigit = ds ∧ (ds ++ rest).dropWhile Char.isDigit = rest := by
  rw [List.takeWhile_append_of_pos hd, List.dropWhile_append_of_pos hd]
  cases rest with
  | nil => simp
  | cons c t => simp [hr c rfl]

theorem showInt_ofNat (k : Nat) : showInt k = Nat.toDigits 10 k := rfl

/-- `/^(\d+),(\d+)/` captures the two numbers at the head of `kind,num,...`. -/
theorem matchKindNum_showInt (k n : Nat) {rest : Str} (hr : ∀ c ∈ rest.head?, ¬c.isDigit) :
    matchKindNum (showInt k ++ ',' :: (showInt n ++ rest)) = some (showInt k, showInt n) := by
  obtain ⟨hk, hkd, -⟩ := toDigits_spec k
  obtain ⟨hn, hnd, -⟩ := toDigits_spec n
  obtain ⟨h1, h2⟩ := takeWhile_isDigit_append hkd
    (show ∀ c ∈ (',' :: (showInt n ++ rest)).head?, ¬c.isDigit by simp)
  obtain ⟨h3, -⟩ := takeWhile_isDigit_append hnd hr
  simp only [matchKindNum, showInt_ofNat] at h1 h2 h3 ⊢
  rw [h1, h2]
  simp only [h3, hk, hn, or_self, if_false]

/-- The channel `thread:op` of a thread, as `/^thread:(\d+)$/` reads it. -/
theorem matchThread_channel (whole : Bool) (op : Nat) :
    matchThread whole ("thread:".toList ++ showInt op) = some (showInt op) := by
  obtain ⟨hk, hkd, -⟩ := toDigits_spec op
  obtain ⟨h1, h2⟩ := takeWhile_isDigit_append hkd (show ∀ c ∈ ([] : Str).head?, ¬c.isDigit by simp)
  rw [List.append_nil] at h1 h2
  rw [showInt_ofNat]
  have h7 : ("thread:".toList ++ Nat.toDigits 10 op).drop 7 = Nat.toDigits 10 op :=
    List.drop_left' rfl
  simp only [matchThread, List.isPrefixOf_iff_prefix, List.prefix_append, if_true, h7, h1, h2]
  simp [hk]

/-! ## What every object inherits -/

/-- The properties every object inherits from `Object.prototype`. Read on an object with no own
property of that name, each gives a function, or for `__proto__` the prototype itself: a truthy
value with none of the methods `db.js` calls on what it reads from `SUBS`. -/
def objectProtoKeys : List String :=
  ["constructor", "__defineGetter__", "__defineSetter__", "hasOwnProperty", "__lookupGetter__",
    "__lookupSetter__", "isPrototypeOf", "propertyIsEnumerable", "toString", "valueOf",
    "__proto__", "toLocaleString"]

/-- Whether `k` names a property of `Object.prototype`. -/
def isProtoKey (k : Str) : Bool := (objectProtoKeys.map String.toList).contains k

/-- Whether an object with these keys shadows `hasOwnProperty`: `obj.hasOwnProperty` is then the
value of that key, data and no function, and `obj.hasOwnProperty(k)` throws. -/
def shadowsHasOwnProperty (keys : List Str) : Bool := keys.contains "hasOwnProperty".toList

/-- The `TypeError` of `obj.hasOwnProperty(k)` on such an object. -/
def hasOwnPropertyError : Str := "obj.hasOwnProperty is not a function".toList

/-- An object that shadows `hasOwnProperty` has a key of `Object.prototype`. -/
theorem exists_isProtoKey_of_shadows {keys : List Str} (h : shadowsHasOwnProperty keys = true) :
    ∃ k ∈ keys, isProtoKey k = true :=
  ⟨_, List.elem_iff.1 h, by decide⟩

end Shamichan.Js

import Shamichan.Db.Js

/-!
# Shamichan — thread messages and their two readers

`Y._log` publishes each thread update on the channel `thread:op` as
`JSON.stringify([kind, num, ...]).slice(1, -1)`, the text `kind,num,...` (`logMessage`). Two
subscribers read it back:

* `Subscription.on_message` matches `/^(\d+),(\d+)/` and calls `on_update` on every promised
  Yakusoku (`onMessage`); it reads kind and number back for every payload
  (`onMessage_logMessage`);
* `on_OP_message` keeps the `OPs` cache (`onOPMessage`). It splits the message at `:` and
  reads the number from the first piece and the kind from the second, the layout of an older
  message format: on an `INSERT_POST` message it reads the kind as the number and the view's
  `time` as the kind (`onOPMessage_insertPost`).
-/

namespace Shamichan.Db

open Js

/-- A property key of the `OPs` object: `String(v)` of the number, `NaN` or `undefined` used
as index. Numbers print as distinct decimal strings, none of them `"NaN"` or `"undefined"`. -/
inductive OpKey where
  | num (n : Int)
  | nan
  | undefined
  deriving DecidableEq, Repr

/-- The key a number indexes; `none` is `NaN`. -/
def OpKey.ofNumber : Option Int → OpKey
  | some n => .num n
  | none => .nan

/-- The `OPs` cache: the thread of each post number it knows. -/
abbrev Ops := OpKey → Option Int

/-- The channel, and the hash key, `'thread:' + op`. -/
def threadKey (op : Int) : Str := "thread:".toList ++ showInt op

/-- The message `Y._log` writes: `JSON.stringify([kind, ...msg]).slice(1, -1)`. -/
def logMessage (kind : Int) (msg : List Json) : Str :=
  ((Json.arr (.num kind :: msg)).stringify.drop 1).dropLast

/-- The arguments of `on_update(thread, num, kind, msg)`; `none` is `NaN`. -/
structure Update where
  thread : Option Int
  num : Option Int
  kind : Option Int
  msg : Str
  deriving DecidableEq, Repr

/-- `Subscription.on_message`: the `on_update` calls it makes, one per promised Yakusoku in the
order `for ... in` visits their ids, or `none` where a `match` gives `null` and reading its
capture throws. -/
def onMessage (promises : List Nat) (chan msg : Str) : Option (List (Nat × Update)) := do
  let (k, n) ← matchKindNum msg
  let t ← matchThread true chan
  pure (promises.map fun id => (id, ⟨parseInt t, parseInt n, parseInt k, msg⟩))

/-- `on_OP_message`, with `insertPost` the value of `common.INSERT_POST`: the `OPs` it leaves,
or `none` where the channel's `match` gives `null` and the handler throws. -/
def onOPMessage (insertPost : Int) (ops : Ops) (chan msg : Str) : Option Ops := do
  let t ← matchThread false chan
  let info := split msg ':' 2
  let num := parseInt (info.getD 0 [])
  -- `info[1]` is `undefined` when the message has no colon, and `parseInt` reads "undefined"
  let kind := parseInt (info.getD 1 "undefined".toList)
  pure (if kind = some insertPost then Function.update ops (.ofNumber num) (parseInt t) else ops)

/-! ## The text of a message -/

theorem logMessage_eq (kind : Int) (msg : List Json) :
    logMessage kind msg = stringifyList (.num kind :: msg) := by
  simp [logMessage, Json.stringify]

@[simp]
theorem stringifyList_cons_cons (x y : Json) (ys : List Json) :
    stringifyList (x :: y :: ys) = x.stringify ++ ',' :: stringifyList (y :: ys) := rfl

/-- An array's text is its first element's, then nothing or a comma. -/
theorem stringifyList_cons (x : Json) (xs : List Json) :
    ∃ tail, stringifyList (x :: xs) = x.stringify ++ tail ∧ ∀ c ∈ tail.head?, c = ',' := by
  cases xs with
  | nil => exact ⟨[], by simp [stringifyList], by simp⟩
  | cons y ys => exact ⟨',' :: stringifyList (y :: ys), by simp [stringifyList], by simp⟩

theorem parseInt_showInt (n : Int) : parseInt (showInt n) = some n := by
  simpa using parseInt_showInt_append n (show EndsNumber [] by simp [EndsNumber])

/-! ## `on_message` reads every message back -/

/-- **`on_message` decodes what `_log` encodes**: for every thread, kind, post number and
payload, each promised Yakusoku gets `on_update(op, num, kind, msg)`. -/
theorem onMessage_logMessage (promises : List Nat) (op kind num : Nat) (rest : List Json) :
    onMessage promises (threadKey op) (logMessage kind (.num num :: rest)) =
      some (promises.map fun id =>
        (id, ⟨some op, some num, some kind, logMessage kind (.num num :: rest)⟩)) := by
  obtain ⟨tail, ht, hc⟩ := stringifyList_cons (.num num) rest
  have hmsg : logMessage kind (.num num :: rest) =
      showInt kind ++ ',' :: (showInt num ++ tail) := by
    rw [logMessage_eq, stringifyList_cons_cons, ht]; rfl
  have hr : ∀ c ∈ tail.head?, ¬c.isDigit := fun c h => by rw [hc c h]; decide
  simp only [onMessage, hmsg, matchKindNum_showInt kind num hr, threadKey,
    matchThread_channel, Option.bind_eq_bind, Option.some_bind, parseInt_showInt]
  rfl

/-! ## `on_OP_message` reads the wrong fields -/

/-- On the `INSERT_POST` message of a view whose first field is `time` (as `insert_post`
builds it), `on_OP_message` reads the kind as the post number and the time as the kind: it
records `OPs[INSERT_POST] = op` when the time equals `INSERT_POST`, and otherwise nothing. -/
theorem onOPMessage_insertPost (K : Int) (ops : Ops) (op : Nat) (num T : Int)
    (fields : List (Str × Json)) :
    onOPMessage K ops (threadKey op)
        (logMessage K [.num num, .obj (("time".toList, .num T) :: fields)]) =
      some (if T = K then Function.update ops (.num K) (some op) else ops) := by
  -- the message is `K,num,{"time":T` and then a comma or the closing brace
  obtain ⟨tail, htail, hc⟩ : ∃ tail, stringifyFields (("time".toList, .num T) :: fields) =
      quote "time".toList ++ ':' :: (showInt T ++ tail) ∧ ∀ c ∈ tail.head?, c = ',' := by
    cases fields with
    | nil => exact ⟨[], by simp [stringifyFields, Json.stringify], by simp⟩
    | cons f fs =>
      exact ⟨',' :: stringifyFields (f :: fs), by simp [stringifyFields, Json.stringify], by simp⟩
  let head := showInt K ++ ',' :: (showInt num ++ ',' :: '{' :: quote "time".toList)
  have hmsg : logMessage K [.num num, .obj (("time".toList, .num T) :: fields)] =
      head ++ ':' :: (showInt T ++ (tail ++ ['}'])) := by
    rw [logMessage_eq, stringifyList_cons_cons, stringifyList_cons_cons]
    show _ ++ ',' :: (_ ++ ',' :: ('{' :: stringifyFields _ ++ ['}'])) = _
    rw [htail]
    simp only [head, Json.stringify, List.append_assoc, List.cons_append]
  have hhead : ∀ c ∈ head, ¬(c == ':') = true := by
    have := colon_not_mem_quote (s := "time".toList) (by decide)
    simp only [head, beq_iff_eq]
    intro c hc' hcol
    subst hcol
    simp [colon_not_mem_showInt] at hc'
    exact this hc'
  obtain ⟨rest, hrest⟩ := splitOn_eq_takeWhile_cons (showInt T ++ (tail ++ ['}'])) ':'
  have hinfo : split (head ++ ':' :: (showInt T ++ (tail ++ ['}']))) ':' 2 =
      [head, (showInt T ++ (tail ++ ['}'])).takeWhile (· != ':')] := by
    simp only [split, List.splitOn]
    rw [List.splitOnP_first _ _ hhead ':' (by simp)]
    simp only [List.splitOn] at hrest
    rw [hrest]; rfl
  have hnum : parseInt head = some K :=
    parseInt_showInt_append K (show EndsNumber (',' :: _) by simp [EndsNumber])
  -- the second piece is the time, cut at the next colon after a comma or a brace
  have hkind : parseInt ((showInt T ++ (tail ++ ['}'])).takeWhile (· != ':')) = some T := by
    rw [List.takeWhile_append_of_pos (fun c h => by
      simpa using fun (e : c = ':') => colon_not_mem_showInt T (e ▸ h))]
    apply parseInt_showInt_append
    cases tail with
    | nil => simp [EndsNumber]
    | cons c t => rw [hc c rfl]; simp [EndsNumber]
  simp only [onOPMessage, threadKey, matchThread_channel, hmsg, hinfo, List.getD_cons_zero,
    List.getD_cons_succ, hnum, hkind, OpKey.ofNumber, Option.bind_eq_bind, Option.some_bind,
    parseInt_showInt, Option.some.injEq, Option.pure_def]

/-- Reply 5 to thread 1, inserted at time 1000 from 127.0.0.1: whatever the value of
`INSERT_POST`, `on_OP_message` on an empty cache leaves post 5 without a thread. -/
theorem onOPMessage_loses_reply : ∀ K : Int, ∃ ops,
    onOPMessage K (fun _ => none) (threadKey 1)
        (logMessage K [.num 5, .obj [("time".toList, .num 1000),
          ("ip".toList, .str "127.0.0.1".toList), ("state".toList, .str "0,0".toList),
          ("op".toList, .num 1), ("body".toList, .str "hi".toList)]]) = some ops ∧
      ops (.num 5) = none := by
  intro K
  refine ⟨_, onOPMessage_insertPost K _ 1 5 1000 _, ?_⟩
  split_ifs with h
  · subst h; simp [Function.update]
  · rfl

end Shamichan.Db

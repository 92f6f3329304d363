import Shamichan.Db.Feed

/-!
# Shamichan — the Redis store behind `db.js`

The keys `db.js` builds by concatenation fall into a few families, and each family is used
with one Redis type only, so the store is one map per type over structured keys
(`StrKey`, `HashKey`, `ListKey`, `ZKey`): a command on a key of the wrong type cannot be
written. Values are strings; `INCR` and `HINCRBY` read them as Redis reads an integer
(`redisInt?`: exactly the canonical decimal text) and write the new value back as text.

`Store.exec1` runs one command and returns its reply; `Store.exec` runs a `MULTI` block, the
whole block at once, as `EXEC` does. Messages sent with `PUBLISH` are kept in order in
`published`. `EXPIRE` with a time to live of 0 seconds deletes the key, as Redis does; a
positive one changes no data until the key's time runs out, which is an event of its own
(`CallStep.expire` in `Db/Numbering.lean`): time is not modelled, so the key may expire at any
moment after.
-/

namespace Shamichan.Db

open Js

/-- `'thread:' + n` or `'post:' + n`: a post's hash, and the prefix of its other keys. -/
inductive PostKey where
  | thread (n : Int)
  | post (n : Int)
  deriving DecidableEq, Repr

/-- Keys that hold strings. -/
inductive StrKey where
  /-- `postctr` -/
  | postctr
  /-- `'tag:' + tag + ':bumpctr'` -/
  | bumpctr (tag : Str)
  /-- `key + ':body'` -/
  | body (k : PostKey)
  /-- `'ip:' + ip` -/
  | ip (addr : Str)
  deriving DecidableEq, Repr

/-- Keys that hold hashes. -/
inductive HashKey where
  /-- `'thread:' + n` or `'post:' + n` -/
  | post (k : PostKey)
  /-- `key + ':links'` -/
  | links (k : PostKey)
  /-- `MD5s` -/
  | md5s
  deriving DecidableEq, Repr

/-- Keys that hold lists. -/
inductive ListKey where
  /-- `'thread:' + op + ':posts'` -/
  | posts (op : Int)
  /-- `'thread:' + op + ':history'` -/
  | history (op : Int)
  deriving DecidableEq, Repr

/-- Keys that hold sorted sets: `'tag:' + tag + ':threads'`. -/
inductive ZKey where
  | threads (tag : Str)
  deriving DecidableEq, Repr

/-- The data of the Redis server, and the messages published so far, oldest first. -/
structure Store where
  strings : StrKey → Option Str
  hashes : HashKey → Str → Option Str
  lists : ListKey → List Str
  zsets : ZKey → Str → Option Int
  published : List (Str × Str)

/-- The empty server. -/
def Store.empty : Store := ⟨fun _ => none, fun _ _ => none, fun _ => [], fun _ _ => none, []⟩

/-- A command that writes. Reads are taken from the store where a step makes them. -/
inductive Command where
  | incr (k : StrKey)
  | set (k : StrKey) (v : Str)
  | append (k : StrKey) (v : Str)
  | del (k : StrKey)
  | expire (k : StrKey) (seconds : Nat)
  | hset (k : HashKey) (field v : Str)
  | hmset (k : HashKey) (fvs : List (Str × Str))
  | hincrby (k : HashKey) (field : Str) (n : Int)
  | hdel (k : HashKey) (field : Str)
  | rpush (k : ListKey) (v : Str)
  | lrem (k : ListKey) (count : Int) (v : Str)
  | zadd (k : ZKey) (score : Int) (member : Str)
  | publish (chan msg : Str)

/-- A command's reply: status, an integer, or an error. -/
inductive Reply where
  | ok
  | int (n : Int)
  | err
  deriving DecidableEq, Repr

/-- The integer Redis reads from a string: exactly the canonical decimal text of one. -/
def redisInt? (v : Str) : Option Int := (parseInt v).filter fun n => showInt n = v

/-- The integer `INCR` and `HINCRBY` start from: 0 for a missing value. -/
def intValue : Option Str → Option Int
  | none => some 0
  | some v => redisInt? v

/-- `LREM`'s removal: the first `n` copies of `v` (every copy when `n = 0`), and how many. -/
def removeCopies (v : Str) : Nat → Bool → List Str → List Str × Nat
  | _, _, [] => ([], 0)
  | n, all, x :: xs =>
    if x = v ∧ (all ∨ n ≠ 0) then
      let (ys, k) := removeCopies v (n - 1) all xs
      (ys, k + 1)
    else
      let (ys, k) := removeCopies v n all xs
      (x :: ys, k)

/-- `LREM key count v`: from the head when `count > 0`, from the tail when `count < 0`,
every copy when `count = 0`. -/
def lrem (l : List Str) (count : Int) (v : Str) : List Str × Nat :=
  if count < 0 then
    let (ys, k) := removeCopies v count.natAbs false l.reverse
    (ys.reverse, k)
  else removeCopies v count.toNat (count = 0) l

/-- One command on the server, and its reply. -/
def Store.exec1 (s : Store) : Command → Store × Reply
  | .incr k =>
    match intValue (s.strings k) with
    | some n => ({ s with strings := Function.update s.strings k (some (showInt (n + 1))) },
        .int (n + 1))
    | none => (s, .err)
  | .set k v => ({ s with strings := Function.update s.strings k (some v) }, .ok)
  | .append k v =>
    let w := (s.strings k).getD [] ++ v
    ({ s with strings := Function.update s.strings k (some w) }, .int w.length)
  | .del k => ({ s with strings := Function.update s.strings k none }, .ok)
  | .expire k n =>
    ({ s with strings := if n = 0 then Function.update s.strings k none else s.strings },
      .int (if (s.strings k).isSome then 1 else 0))
  | .hset k f v =>
    ({ s with hashes := Function.update s.hashes k (Function.update (s.hashes k) f (some v)) },
      .ok)
  | .hmset k fvs =>
    let h := fvs.foldl (fun (h : Str → Option Str) fv => Function.update h fv.1 (some fv.2))
      (s.hashes k)
    ({ s with hashes := Function.update s.hashes k h }, .ok)
  | .hincrby k f n =>
    match intValue (s.hashes k f) with
    | some m =>
      let h := Function.update (s.hashes k) f (some (showInt (m + n)))
      ({ s with hashes := Function.update s.hashes k h }, .int (m + n))
    | none => (s, .err)
  | .hdel k f =>
    ({ s with hashes := Function.update s.hashes k (Function.update (s.hashes k) f none) }, .ok)
  | .rpush k v =>
    ({ s with lists := Function.update s.lists k (s.lists k ++ [v]) }, .int (s.lists k).length.succ)
  | .lrem k count v =>
    let (l, removed) := lrem (s.lists k) count v
    ({ s with lists := Function.update s.lists k l }, .int removed)
  | .zadd k score m =>
    ({ s with zsets := Function.update s.zsets k (Function.update (s.zsets k) m (some score)) },
      .ok)
  | .publish chan msg => ({ s with published := s.published ++ [(chan, msg)] }, .ok)

/-- `EXEC` of a `MULTI` block: the commands one after another with no other client's command
between them, and their replies in order. A failing command does not stop the others. -/
def Store.exec (s : Store) : List Command → Store × List Reply
  | [] => (s, [])
  | c :: cs =>
    let (s', r) := s.exec1 c
    let (s'', rs) := s'.exec cs
    (s'', r :: rs)

@[simp]
theorem Store.exec_nil (s : Store) : s.exec [] = (s, []) := rfl

@[simp]
theorem Store.exec_cons (s : Store) (c : Command) (cs : List Command) :
    (s.exec (c :: cs)).1 = ((s.exec1 c).1.exec cs).1 := rfl

theorem Store.exec_append (s : Store) (cs cs' : List Command) :
    (s.exec (cs ++ cs')).1 = ((s.exec cs).1.exec cs').1 := by
  induction cs generalizing s with
  | nil => rfl
  | cons c cs ih => exact ih _

/-! ## The writes the history counter depends on -/

@[simp]
theorem Store.exec1_rpush (s : Store) (k : ListKey) (v : Str) :
    (s.exec1 (.rpush k v)).1 = { s with lists := Function.update s.lists k (s.lists k ++ [v]) } :=
  rfl

@[simp]
theorem Store.exec1_publish (s : Store) (chan msg : Str) :
    (s.exec1 (.publish chan msg)).1 = { s with published := s.published ++ [(chan, msg)] } := rfl

theorem Store.exec1_hincrby {s : Store} {k : HashKey} {f : Str} {m : Int}
    (h : intValue (s.hashes k f) = some m) (n : Int) :
    (s.exec1 (.hincrby k f n)).1 =
      { s with hashes := (Function.update s.hashes k
          (Function.update (s.hashes k) f (some (showInt (m + n))))) } := by
  simp only [Store.exec1, h]

/-! ## Integers as Redis reads them -/

theorem redisInt?_showInt (n : Int) : redisInt? (showInt n) = some n := by
  simp [redisInt?, parseInt_showInt, Option.filter]

end Shamichan.Db

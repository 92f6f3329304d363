import Shamichan.Db.Store

/-!
# Shamichan — the post operations of a Yakusoku

The writes of `insert_post`, `add_image`, `append_post`, `finish_post`, `finish_all`,
`remove_post` and `remove_posts`, each as the `MULTI` block it sends (`insertPostBatch`, ...)
or the single command it sends, together with the checks that `insert_post`, `reserve_post`
and `remove_post` make on the `OPs` cache. `Y._log` (`log`) queues the three commands of a
thread update, or throws before anything is sent when the thread number is missing.

`common.js` and `config.js` are not part of the source: the message kinds, the thread
throttle and `common.is_empty` are the parameters in `Common`. A missing number or text
(`undefined`, `0`, `''`) is `0` or the empty text.
-/

namespace Shamichan.Db

open Js

/-- The values `db.js` takes from `common.js` and `config.js`. -/
structure Common where
  insertPost : Int
  insertImage : Int
  updatePost : Int
  finishPost : Int
  deletePosts : Int
  threadThrottle : Nat
  isEmpty : List (Str × Int) → Bool

/-- Values of `common.js` to evaluate the model on: the kinds 2 to 6, a thread throttle of
60 seconds, and a links object empty when it has no entry. -/
def Common.sample : Common := ⟨2, 3, 4, 5, 6, 60, fun l => l.isEmpty⟩

/-- An uploaded image, with the fields of `image_attrs` in their order. -/
structure Image where
  src : Str
  thumb : Str
  dims : List Int
  size : Int
  md5 : Str
  imgnm : Str
  deriving DecidableEq, Repr

/-- `String(a)` of an array of numbers: the numbers joined by commas. -/
def joinInts (xs : List Int) : Str := ','.toString.toList.intercalate (xs.map showInt)

/-- An image as `HMSET` stores it: every field as text. -/
def Image.fields (img : Image) : List (Str × Str) :=
  [("src".toList, img.src), ("thumb".toList, img.thumb), ("dims".toList, joinInts img.dims),
    ("size".toList, showInt img.size), ("MD5".toList, img.md5), ("imgnm".toList, img.imgnm)]

/-- An image in a message. -/
def Image.json (img : Image) : Json :=
  .obj [("src".toList, .str img.src), ("thumb".toList, .str img.thumb),
    ("dims".toList, .arr (img.dims.map .num)), ("size".toList, .num img.size),
    ("MD5".toList, .str img.md5), ("imgnm".toList, .str img.imgnm)]

/-- The fields of `msg` that `insert_post` reads. -/
structure PostMsg where
  num : Int
  op : Int
  time : Int
  state : List Int
  name : Str
  trip : Str
  email : Str
  image : Option Image
  links : Option (List (Str × Int))

/-- A field of a view when its value is set. -/
def optField {α : Type} (name : String) (v : Str) (f : Str → α) : List (Str × α) :=
  if v = [] then [] else [(name.toList, f v)]

/-! ## `Y._log` -/

/-- `Y._log(m, op, kind, msg)`: the commands it queues on `m`, or the error it throws. -/
def log (op kind : Int) (msg : List Json) : Except Str (List Command) :=
  let text := logMessage kind msg
  if op = 0 then .error "No OP.".toList
  else .ok [.rpush (.history op) text, .hincrby (.post (.thread op)) "hctr".toList 1,
    .publish (threadKey op) text]

/-! ## `insert_post` -/

/-- The checks `insert_post` makes before it builds its block: the `OPs` they leave and the
error returned at once, if any. The `var num` assigned below is still `undefined` when the
second check deletes `OPs[num]`. -/
def insertPostCheck (ops : Ops) (msg : PostMsg) : Ops × Option Str :=
  if msg.num = 0 then (ops, some "No post num.".toList)
  else if msg.op ≠ 0 ∧ ops (.num msg.op) ≠ some msg.op then
    (Function.update ops .undefined none, some "Thread does not exist.".toList)
  else (ops, none)

/-- The key of the post: `(op ? 'post:' : 'thread:') + num`. -/
def PostMsg.key (msg : PostMsg) : PostKey := if msg.op ≠ 0 then .post msg.num else .thread msg.num

/-- The thread of the post: `op`, or the post itself for a new thread. -/
def PostMsg.thread (msg : PostMsg) : Int := if msg.op ≠ 0 then msg.op else msg.num

/-- Whether the insert bumps its thread: a new thread, or a reply not marked `sage`. -/
def PostMsg.bump (msg : PostMsg) : Bool := msg.op = 0 ∨ msg.email ≠ "sage".toList

/-- The view `insert_post` stores with `HMSET`, as it stands when the command is queued. -/
def PostMsg.view (msg : PostMsg) (ip : Str) : List (Str × Str) :=
  [("time".toList, showInt msg.time), ("ip".toList, ip), ("state".toList, joinInts msg.state)] ++
    optField "name" msg.name id ++ optField "trip" msg.trip id ++ optField "email" msg.email id ++
    (if msg.op ≠ 0 then [("op".toList, showInt msg.op)] else []) ++
    match msg.image with
    | some img => (if msg.op = 0 then [("imgctr".toList, "1".toList)] else []) ++ img.fields
    | none => []

/-- The view in the `INSERT_POST` message: the stored fields with the body and links added,
and the image fields gathered under `image` by `extract_image`. -/
def PostMsg.logView (msg : PostMsg) (body ip : Str) : List (Str × Json) :=
  [("time".toList, .num msg.time), ("ip".toList, .str ip),
      ("state".toList, .str (joinInts msg.state))] ++
    optField "name" msg.name .str ++ optField "trip" msg.trip .str ++
    optField "email" msg.email .str ++
    (if msg.op ≠ 0 then [("op".toList, .num msg.op)] else []) ++
    (if msg.op = 0 ∧ msg.image.isSome then [("imgctr".toList, .num 1)] else []) ++
    [("body".toList, .str body)] ++
    (match msg.links with
      | some l => [("links".toList, .obj (l.map fun kv => (kv.1, .num kv.2)))]
      | none => []) ++
    match msg.image with
    | some img => [("image".toList, img.json)]
    | none => []

theorem Except.map_eq_ok {α β ε : Type} {f : α → β} {x : Except ε α} {b : β}
    (h : f <$> x = .ok b) : ∃ a, x = .ok a ∧ b = f a := by
  cases x with
  | error e => cases h
  | ok a => exact ⟨a, rfl, by cases h; rfl⟩

/-- The `MULTI` block of `insert_post`, or what `_log` throws while it is built. -/
def insertPostBatch (c : Common) (tag : Str) (msg : PostMsg) (body ip : Str) :
    Except Str (List Command) :=
  let key := msg.key
  let pre :=
    (if msg.bump then [.incr (.bumpctr tag)] else []) ++
    (match msg.image with
      | some img =>
        (if msg.op ≠ 0 then [.hincrby (.post (.thread msg.op)) "imgctr".toList 1] else []) ++
          [.hset .md5s img.md5 (showInt msg.num)]
      | none => []) ++
    [.hmset (.post key) (msg.view ip), .set (.body key) body] ++
    (match msg.links with
      | some l => [.hmset (.links key) (l.map fun kv => (kv.1, showInt kv.2))]
      | none => []) ++
    (if msg.op ≠ 0 then [.rpush (.posts msg.op) (showInt msg.num)]
      else if ip ≠ [] ∧ ip ≠ "127.0.0.1".toList then
        [.set (.ip ip) (showInt msg.num), .expire (.ip ip) c.threadThrottle]
      else [])
  (pre ++ ·) <$> log msg.thread c.insertPost [.num msg.num, .obj (msg.logView body ip)]

/-- What a block of `insert_post` is made of: the commands queued before `_log`, each of one
of these shapes, with `INCR` first when the insert bumps, and then `_log`'s three. -/
theorem insertPostBatch_ok {c : Common} {tag : Str} {msg : PostMsg} {body ip : Str}
    {cmds : List Command} (h : insertPostBatch c tag msg body ip = .ok cmds) :
    ∃ pre lc, cmds = pre ++ lc ∧
      log msg.thread c.insertPost [.num msg.num, .obj (msg.logView body ip)] = .ok lc ∧
      (msg.bump → pre.head? = some (.incr (.bumpctr tag))) ∧
      ∀ cmd ∈ pre, cmd = .incr (.bumpctr tag) ∨
        (∃ op, cmd = .hincrby (.post (.thread op)) "imgctr".toList 1) ∨
        (∃ m v, cmd = .hset .md5s m v) ∨ cmd = .hmset (.post msg.key) (msg.view ip) ∨
        (∃ k v, cmd = .set k v) ∨ (∃ k l, cmd = .hmset (.links k) l) ∨
        (∃ o v, cmd = .rpush (.posts o) v) ∨ (∃ k n, cmd = .expire k n) := by
  unfold insertPostBatch at h
  cases hl : log msg.thread c.insertPost [.num msg.num, .obj (msg.logView body ip)] with
  | error e => rw [hl] at h; cases h
  | ok lc =>
    rw [hl] at h
    cases h
    refine ⟨_, lc, rfl, rfl, fun hb => by simp [hb], fun cmd hc => ?_⟩
    simp only [List.mem_append, List.mem_cons, List.mem_singleton, List.not_mem_nil,
      or_false] at hc
    rcases hc with ((((hc | hc) | hc | hc) | hc) | hc)
    · split_ifs at hc <;> simp at hc; exact .inl hc
    · split at hc
      · split_ifs at hc <;> simp at hc <;> rcases hc with rfl | rfl <;> simp
      · simp at hc
    · exact .inr (.inr (.inr (.inl hc)))
    · simp [hc]
    · split at hc <;> simp at hc; simp [hc]
    · split_ifs at hc <;> simp at hc <;> rcases hc with rfl | rfl <;> simp

/-! ## `add_image`, `append_post`, `finish_post`, `finish_all` -/

/-- The `MULTI` block `add_image` sends once `post:num` exists. -/
def addImageBatch (c : Common) (num op : Int) (img : Image) : Except Str (List Command) :=
  (· ++ [.hmset (.post (.post num)) img.fields, .hincrby (.post (.thread op)) "imgctr".toList 1,
      .hset .md5s img.md5 (showInt num)]) <$>
    log op c.insertImage [.num num, img.json]

/-- `finish_off(m, key, body)`. -/
def finishOff (key : PostKey) (body : Str) : List Command :=
  [.hset (.post key) "body".toList body, .del (.body key), .hdel (.post key) "state".toList]

/-- The key of a post as `append_post` and `finish_post` build it. -/
def postKey (num op : Int) : PostKey := if op ≠ 0 then .post num else .thread num

/-- The `MULTI` block of `append_post(post, tail, old_state, links, new_links)`; `links` is
`none` when falsy. -/
def appendPostBatch (c : Common) (num op : Int) (state oldState : Int × Int) (tail : Str)
    (links : Option Json) (newLinks : List (Str × Int)) : Except Str (List Command) :=
  let key := postKey num op
  let pre :=
    [.append (.body key) tail] ++
    (if oldState.1 ≠ state.1 ∨ oldState.2 ≠ state.2 then
      [.hset (.post key) "state".toList (joinInts [state.1, state.2])] else []) ++
    (if c.isEmpty newLinks then []
      else [.hmset (.links key) (newLinks.map fun kv => (kv.1, showInt kv.2))])
  let msg := [.num num, .str tail] ++
    match links with
    | some l => [.num oldState.1, .num oldState.2, l]
    | none =>
      if oldState.2 ≠ 0 then [.num oldState.1, .num oldState.2]
      else if oldState.1 ≠ 0 then [.num oldState.1] else []
  (pre ++ ·) <$> log op c.updatePost msg

/-- The `MULTI` block of `finish_post(post)`. -/
def finishPostBatch (c : Common) (num op : Int) (body : Str) : Except Str (List Command) :=
  (finishOff (postKey num op) body ++ ·) <$> log op c.finishPost [.num num]

/-- `_log` of a thread that is set: the three commands of its update. -/
theorem log_of_ne_zero {op : Int} (hop : op ≠ 0) (kind : Int) (msg : List Json) :
    log op kind msg = .ok [.rpush (.history op) (logMessage kind msg),
      .hincrby (.post (.thread op)) "hctr".toList 1, .publish (threadKey op) (logMessage kind msg)] :=
  if_neg hop

/-- **`append_post` and `finish_post` throw for the opening post of a thread.** Such a post has
no `op`, so both build the key `thread:num` and pass the unset `post.op` to `_log`, which throws
'No OP.' while the block is built: whatever the other arguments, nothing is sent, so neither
the post's keys nor its thread's history are written. -/
theorem appendPost_finishPost_op_throws (c : Common) (num : Int) (state oldState : Int × Int)
    (tail : Str) (links : Option Json) (newLinks : List (Str × Int)) (body : Str) :
    postKey num 0 = .thread num ∧
      appendPostBatch c num 0 state oldState tail links newLinks = .error "No OP.".toList ∧
      finishPostBatch c num 0 body = .error "No OP.".toList :=
  ⟨rfl, rfl, rfl⟩

/-- The number in a post key, as `key.match(/:(\d+)$/)` reads it. -/
def PostKey.num : PostKey → Int
  | .thread n | .post n => n

/-- The second `MULTI` block `finish_all` sends for one `*:body` key, after reading the body
(`rs[0]`, `null` when gone) and, for a reply, its `op` field (`rs[1]`). -/
def finishAllBatch (c : Common) (key : PostKey) (body opField : Option Str) :
    Except Str (List Command) :=
  let n := key.num
  -- `parseInt(rs[1]) || n`: a missing, unreadable or zero `op` gives the post's own number
  let op := match opField.bind parseInt with
    | some o => if o = 0 then n else o
    | none => n
  (finishOff key (body.getD "null".toList) ++ ·) <$> log op c.finishPost [.num n]

/-! ## `reserve_post`, `remove_post`, `remove_posts` -/

/-- `reserve_post(op)`: `INCR postctr`, and on success `OPs[num] = op || num`. -/
def reservePost (s : Store) (ops : Ops) (op : Int) : Store × Ops × Option Int :=
  match s.exec1 (.incr .postctr) with
  | (s', .int num) => (s', Function.update ops (.num num) (some (if op ≠ 0 then op else num)), num)
  | (s', _) => (s', ops, none)

/-- `insert_post`'s checks never touch the entry of the post itself: where the thread is
unknown, the `delete` meant for it removes `OPs[undefined]`. -/
theorem insertPostCheck_num (ops : Ops) (msg : PostMsg) :
    (insertPostCheck ops msg).1 (.num msg.num) = ops (.num msg.num) := by
  unfold insertPostCheck
  split_ifs <;> simp [Function.update_noteq]

/-- Post 1, reserved for thread 7, which `OPs` does not know: `insert_post` answers
"Thread does not exist." and `OPs[1]` stays 7. -/
theorem insertPost_unknown_thread_keeps_entry :
    (reservePost Store.empty (fun _ => none) 7).2.2 = some 1 ∧
      (reservePost Store.empty (fun _ => none) 7).2.1 (.num 1) = some 7 ∧
      (insertPostCheck (reservePost Store.empty (fun _ => none) 7).2.1
        ⟨1, 7, 1000, [0, 0], [], [], [], none, none⟩).2 = some "Thread does not exist.".toList ∧
      (insertPostCheck (reservePost Store.empty (fun _ => none) 7).2.1
        ⟨1, 7, 1000, [0, 0], [], [], [], none, none⟩).1 (.num 1) = some 7 := by
  decide

/-- The checks `remove_post(num)` makes on `OPs` before it writes: the thread of the post, or
the error returned at once. -/
def removePostCheck (ops : Ops) (num : Int) : Except Str Int :=
  match ops (.num num) with
  | none => .error "No such post.".toList
  | some op =>
    if op = 0 then .error "No such post.".toList
    else if op = num then .error "Thread deletion not supported yet.".toList
    else .ok op

/-- The threads `remove_posts` gathers from the deletions `[op, num]`: each thread once, in
the ascending order in which `for ... in` visits integer keys, with its numbers in order. -/
def groupByThread (dels : List (Int × Int)) : List (Int × List Int) :=
  ((dels.map Prod.fst).dedup.mergeSort (· ≤ ·)).map fun op =>
    (op, (dels.filter (·.1 = op)).map Prod.snd)

/-- `nums.sort()`: numbers ordered as their texts. -/
def jsSort (nums : List Int) : List Int :=
  nums.mergeSort fun a b => decide (showInt a ≤ showInt b)

/-- The `MULTI` block `remove_posts` sends after its deletions: one `DELETE_POSTS` update per
thread, or what `_log` throws. -/
def removePostsBatch (c : Common) (dels : List (Int × Int)) : Except Str (List Command) :=
  List.flatten <$> (groupByThread dels).mapM fun g => log g.1 c.deletePosts ((jsSort g.2).map .num)

end Shamichan.Db

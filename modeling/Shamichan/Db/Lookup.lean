import Shamichan.Db.Thread
import Shamichan.Db.Upload

/-!
# Shamichan — looking up what the calls wrote

Two reads answer from keys the write calls leave behind. `check_duplicate(MD5)` asks `MD5s`,
where `insert_post` and `add_image` record the MD5 of every image they store; `get_post_op(num)`
asks the `op` field of `post:num`, which `insert_post` writes for a reply, and falls back to
whether `thread:num` exists. No block deletes a field of `MD5s` or writes an `op` field anywhere
else, so both answers outlive every later call.

* `checkDuplicate_after_record`: once a step has recorded an image, `check_duplicate` refuses
  its MD5 whatever runs after;
* `getPostOp_after_insert`: once a reply's `insert_post` has run, `get_post_op` names its
  thread, whatever runs after that does not insert another post under the same number.
-/

namespace Shamichan.Db

open Js

/-! ## `check_duplicate` -/

/-- No command of `db.js` clears an entry of `MD5s`: they only `HSET` one. -/
theorem Command.Sent.md5_isSome {c : Command} (h : c.Sent) {s : Store} {m : Str}
    (hs : (s.hashes .md5s m).isSome) : ((s.exec1 c).1.hashes .md5s m).isSome := by
  cases h with
  | md5 m' v =>
    simp only [Store.exec1, Function.update_same]
    by_cases hm : m = m'
    · subst hm
      simp
    · rwa [Function.update_noteq hm]
  | _ => rwa [Store.exec1_md5s (by simp [Command.writesMd5s])]

/-- The MD5 a step records in `MD5s`: an `insert_post` of a post with an image and a number
(so that `_log` does not throw), or an `add_image` in a thread. -/
def HistoryStep.recordedMd5 : HistoryStep → Option Str
  | .insertPost _ msg _ _ => if msg.num ≠ 0 then msg.image.map Image.md5 else none
  | .addImage _ op img => if op ≠ 0 then some img.md5 else none
  | _ => none

/-- A step that records an MD5 sends its `HSET MD5s`. -/
theorem HistoryStep.recordedMd5_hset {c : Common} {st : HistoryStep} {md5 : Str}
    (h : st.recordedMd5 = some md5) :
    ∃ cmds v, st.commands c = .ok cmds ∧ .hset .md5s md5 v ∈ cmds := by
  cases st with
  | insertPost tag msg body ip =>
    simp only [recordedMd5] at h
    split_ifs at h with hnum
    obtain ⟨img, himg, rfl⟩ := Option.map_eq_some'.1 h
    have hthread : msg.thread ≠ 0 := by
      unfold PostMsg.thread; split_ifs <;> assumption
    refine ⟨_, showInt msg.num, by
      simp only [commands, insertPostBatch, log_of_ne_zero hthread]; rfl, ?_⟩
    simp [himg]
  | addImage num op img =>
    simp only [recordedMd5] at h
    split_ifs at h with hop
    cases h
    exact ⟨_, showInt num, by simp only [commands, addImageBatch, log_of_ne_zero hop]; rfl,
      by simp⟩
  | _ => cases h

/-- **A recorded image stays a duplicate.** Once a step has recorded an image's MD5 (an
`insert_post` of a post with the image, or an `add_image`), `check_duplicate` answers
'Duplicate image.' for that MD5 after any later steps of any calls: no block clears an entry of
`MD5s`. -/
theorem checkDuplicate_after_record (c : Common) {st : HistoryStep} {md5 : Str}
    (hrec : st.recordedMd5 = some md5) (s : Store) (later : List HistoryStep) :
    checkDuplicate (runSteps c s (st :: later)) md5 = some "Duplicate image.".toList := by
  obtain ⟨cmds, v, hc, hv⟩ := HistoryStep.recordedMd5_hset (c := c) hrec
  have hrun : ((st.run c s).hashes .md5s md5).isSome := by
    unfold HistoryStep.run
    rw [hc]
    exact Store.exec_sets (P := fun s' => (s'.hashes .md5s md5).isSome)
      (fun c' hc' _ => (HistoryStep.commands_sent hc c' hc').md5_isSome) hv
      (fun _ => by simp [Store.exec1]) s
  exact if_pos (runSteps_keeps (P := fun s' => (s'.hashes .md5s md5).isSome)
    (fun _ hc _ => hc.md5_isSome) c hrun later)

theorem checkDuplicate_after_record_sample :
    HistoryStep.recordedMd5 (.addImage 2 1
        ⟨"1.png".toList, "1.jpg".toList, [2, 3], 5, "abc".toList, "cat.png".toList⟩) =
        some "abc".toList ∧
      checkDuplicate (runSteps Common.sample Store.empty
        [.addImage 2 1 ⟨"1.png".toList, "1.jpg".toList, [2, 3], 5, "abc".toList, "cat.png".toList⟩,
          .insertPost "moe".toList ⟨3, 1, 0, [], [], [], [], none, none⟩ "b".toList []])
        "abc".toList = some "Duplicate image.".toList :=
  ⟨by decide, checkDuplicate_after_record Common.sample (by decide) _ _⟩

/-! ## `get_post_op` -/

/-- What `get_post_op(num)` calls back with. -/
inductive PostOp where
  /-- `(num, op)`: the `op` text of `post:num` -/
  | reply (num : Int) (op : Str)
  /-- `(num, num)`: `thread:num` exists -/
  | thread (num : Int)
  /-- `(null, null)` -/
  | missing
  deriving DecidableEq, Repr

/-- `get_post_op(num)`: `HGET post:num op`, and when that is not set or empty,
`EXISTS thread:num`. -/
def getPostOp (s : Store) (num : Int) : PostOp :=
  match s.hashes (.post (.post num)) "op".toList with
  | some op@(_ :: _) => .reply num op
  | _ => if s.hgetallEmpty (.thread num) then .missing else .thread num

/-- A post with a non-empty `op` field is a reply. -/
theorem getPostOp_of_op {s : Store} {num : Int} {d : Char} {ds : Str}
    (h : s.hashes (.post (.post num)) "op".toList = some (d :: ds)) :
    getPostOp s num = .reply num (d :: ds) := by
  simp only [getPostOp, h]

/-- The post hash whose view a step writes: `insert_post`'s. -/
def HistoryStep.viewKey : HistoryStep → Option PostKey
  | .insertPost _ msg _ _ => some msg.key
  | _ => none

theorem log_not_view {op kind : Int} {lmsg : List Json} {lc : List Command}
    (h : log op kind lmsg = .ok lc) {key : PostKey} {msg : PostMsg} {ip : Str} :
    .hmset (.post key) (msg.view ip) ∉ lc := by
  unfold log at h
  split_ifs at h
  cases h
  simp

theorem finishOff_not_view (k : PostKey) (body : Str) {key : PostKey} {msg : PostMsg}
    {ip : Str} : .hmset (.post key) (msg.view ip) ∉ finishOff k body := by
  simp [finishOff]

/-- An image's fields are no view: a view starts with `time`, an image with `src`. -/
theorem Image.fields_ne_view (img : Image) (msg : PostMsg) (ip : Str) :
    img.fields ≠ msg.view ip := fun h => by
  have := congrArg (fun l : List (Str × Str) => l.head?.map Prod.fst) h
  simp [Image.fields, PostMsg.view] at this

/-- **Only `insert_post` writes a view**, and at the key of its post. -/
theorem HistoryStep.view_mem {c : Common} {st : HistoryStep} {cmds : List Command}
    (h : st.commands c = .ok cmds) {key : PostKey} {msg : PostMsg} {ip : Str}
    (hv : .hmset (.post key) (msg.view ip) ∈ cmds) : st.viewKey = some key := by
  cases st with
  | insertPost tag msg₀ body₀ ip₀ =>
    obtain ⟨pre, lc, rfl, hl, -, hpre⟩ := insertPostBatch_ok h
    rcases List.mem_append.1 hv with hv | hv
    · rcases hpre _ hv with h1 | ⟨_, h1⟩ | ⟨_, _, h1⟩ | h1 | ⟨_, _, h1⟩ | ⟨_, _, h1⟩ |
        ⟨_, _, h1⟩ | ⟨_, _, h1⟩ <;> simp only [reduceCtorEq, Command.hmset.injEq,
          HashKey.post.injEq] at h1
      · rw [viewKey, h1.1]
      · cases h1.1
    · exact absurd hv (log_not_view hl)
  | addImage num op img =>
    obtain ⟨lc, hl, rfl⟩ := Except.map_eq_ok h
    rcases List.mem_append.1 hv with hv | hv
    · exact absurd hv (log_not_view hl)
    · simp only [List.mem_cons, List.mem_singleton, List.not_mem_nil, or_false, reduceCtorEq,
        Command.hmset.injEq, or_false] at hv
      exact absurd hv.2.symm (img.fields_ne_view msg ip)
  | appendPost =>
    obtain ⟨lc, hl, rfl⟩ := Except.map_eq_ok h
    rcases List.mem_append.1 hv with hv | hv
    · simp only [List.mem_append, List.mem_singleton] at hv
      rcases hv with (hv | hv) | hv
      · cases hv
      all_goals split_ifs at hv <;> simp at hv
    · exact absurd hv (log_not_view hl)
  | finishPost | finishAll =>
    obtain ⟨lc, hl, rfl⟩ := Except.map_eq_ok h
    rcases List.mem_append.1 hv with hv | hv
    · exact absurd hv (finishOff_not_view _ _)
    · exact absurd hv (log_not_view hl)
  | removePosts =>
    obtain ⟨lcs, hl, rfl⟩ := Except.map_eq_ok h
    obtain ⟨_, _, _, _, hl', hm⟩ := mapM_log_mem hl _ hv
    exact absurd hm (log_not_view hl')
  | removeFinish => cases h; exact absurd hv (finishOff_not_view _ _)
  | bump | removeFromThread | hide => cases h; simp at hv

/-- No command but a view at `post:n` writes the `op` field of `post:n`. -/
theorem Command.Sent.op_field {c : Command} (h : c.Sent) {n : Int}
    (hv : ∀ (msg : PostMsg) (ip : Str), c ≠ .hmset (.post (.post n)) (msg.view ip)) (s : Store) :
    (s.exec1 c).1.hashes (.post (.post n)) "op".toList = s.hashes (.post (.post n)) "op".toList := by
  refine Store.exec1_hashes ?_ s
  cases h with
  | view key msg ip =>
    by_cases hk : key = .post n
    · exact absurd (hk ▸ rfl) (hv msg ip)
    · simp [Command.hashWrites, hk]
  | image num img => simp [Command.hashWrites, Image.fields]
  | _ => simp [Command.hashWrites]

/-- The `op` entry of a reply's view, after which no entry is `op`. -/
theorem PostMsg.view_op {msg : PostMsg} (hop : msg.op ≠ 0) (ip : Str) :
    ∃ xs ys, msg.view ip = xs ++ ("op".toList, showInt msg.op) :: ys ∧
      "op".toList ∉ ys.map Prod.fst := by
  refine ⟨_, _, by rw [PostMsg.view, if_pos hop, List.append_assoc, List.singleton_append], ?_⟩
  split <;> simp [Image.fields, List.mem_ite_nil_right]

/-- An `HMSET` whose last entry for a field is `v` leaves the field `v`. -/
theorem foldl_update_last {xs ys : List (Str × Str)} {f v : Str} (hy : f ∉ ys.map Prod.fst)
    (m : Str → Option Str) :
    (xs ++ (f, v) :: ys).foldl (fun (h : Str → Option Str) fv => Function.update h fv.1 (some fv.2))
      m f = some v := by
  rw [List.foldl_append, List.foldl_cons, foldl_update_of_not_mem hy, Function.update_same]

/-- A reply's `insert_post` block leaves its `op` in `post:num`. -/
theorem insertPost_op_field (c : Common) (tag : Str) {msg : PostMsg} {body ip : Str}
    (hop : msg.op ≠ 0) (s : Store) :
    ((HistoryStep.insertPost tag msg body ip).run c s).hashes (.post (.post msg.num))
      "op".toList = some (showInt msg.op) := by
  have hkey : msg.key = .post msg.num := if_pos hop
  obtain ⟨xs, ys, hv, hy⟩ := msg.view_op hop ip
  have hthread : msg.thread ≠ 0 := by rw [PostMsg.thread, if_pos hop]; exact hop
  unfold HistoryStep.run
  split
  · next cmds hc =>
    have hmem : .hmset (.post (.post msg.num)) (msg.view ip) ∈ cmds := by
      simp only [HistoryStep.commands, insertPostBatch, log_of_ne_zero hthread] at hc
      cases hc
      simp [hkey]
    have hset : ∀ s' : Store, ((s'.exec1 (.hmset (.post (.post msg.num)) (msg.view ip))).1.hashes
        (.post (.post msg.num)) "op".toList = some (showInt msg.op)) := fun s' => by
      simp only [Store.exec1, Function.update_same, hv]
      exact foldl_update_last hy _
    refine Store.exec_sets (P := fun s' => s'.hashes (.post (.post msg.num)) "op".toList =
      some (showInt msg.op)) (fun c' hc' s' hs' => ?_) hmem hset s
    by_cases hview : ∃ (m : PostMsg) (i : Str), c' = .hmset (.post (.post msg.num)) (m.view i)
    · -- the block's one view is the post's own
      obtain ⟨m, i, rfl⟩ := hview
      obtain ⟨pre, lc, hcmds, hl, -, hpre⟩ := insertPostBatch_ok hc
      rw [hcmds] at hc'
      rcases List.mem_append.1 hc' with hc' | hc'
      · rcases hpre _ hc' with h1 | ⟨_, h1⟩ | ⟨_, _, h1⟩ | h1 | ⟨_, _, h1⟩ | ⟨_, _, h1⟩ |
          ⟨_, _, h1⟩ | ⟨_, _, h1⟩ <;> simp only [reduceCtorEq, Command.hmset.injEq,
            HashKey.post.injEq] at h1
        · rw [h1.2]
          exact hset s'
        · cases h1.1
      · exact absurd hc' (log_not_view hl)
    · push_neg at hview
      exact ((HistoryStep.commands_sent hc c' hc').op_field hview s').trans hs'
  · next e hc => simp [HistoryStep.commands, insertPostBatch, log_of_ne_zero hthread] at hc

/-- A step that writes no view at `post:n` leaves its `op` field. -/
theorem HistoryStep.run_op_field (c : Common) {st : HistoryStep} {n : Int}
    (h : st.viewKey ≠ some (.post n)) (s : Store) :
    (st.run c s).hashes (.post (.post n)) "op".toList = s.hashes (.post (.post n)) "op".toList := by
  unfold HistoryStep.run
  split
  · next cmds hc =>
    exact Store.exec_keeps (P := fun s' => s'.hashes (.post (.post n)) "op".toList =
        s.hashes (.post (.post n)) "op".toList)
      (fun c' hc' s' hs' => ((commands_sent hc c' hc').op_field
        (fun m i he => h (view_mem hc (he ▸ hc'))) s').trans hs') rfl
  · rfl

theorem showInt_ne_nil (n : Int) : showInt n ≠ [] := by
  cases n with
  | ofNat k => exact (toDigits_spec k).1
  | negSucc k => exact List.cons_ne_nil _ _

/-- **`get_post_op` finds the thread of a reply.** Once the `insert_post` block of a reply
`num` in thread `op` has run, `get_post_op(num)` answers `(num, op)` after any later steps of any
calls, as long as none of them is an `insert_post` of another post `post:num`. -/
theorem getPostOp_after_insert (c : Common) (tag : Str) {msg : PostMsg} {body ip : Str}
    (hop : msg.op ≠ 0) (s : Store) {later : List HistoryStep}
    (hlater : ∀ st ∈ later, st.viewKey ≠ some (.post msg.num)) :
    getPostOp (runSteps c s (.insertPost tag msg body ip :: later)) msg.num =
      .reply msg.num (showInt msg.op) := by
  have hfield : ∀ (later : List HistoryStep) (s' : Store),
      (∀ st ∈ later, st.viewKey ≠ some (.post msg.num)) →
      s'.hashes (.post (.post msg.num)) "op".toList = some (showInt msg.op) →
      (runSteps c s' later).hashes (.post (.post msg.num)) "op".toList =
        some (showInt msg.op) := by
    intro later
    induction later with
    | nil => exact fun _ _ h => h
    | cons st later ih =>
      intro s' hl hs'
      exact ih _ (fun st' h => hl st' (List.mem_cons_of_mem _ h))
        ((HistoryStep.run_op_field c (hl st (List.mem_cons_self _ _)) s').trans hs')
  obtain ⟨d, ds, hd⟩ := List.exists_cons_of_ne_nil (showInt_ne_nil msg.op)
  have h := hfield later _ hlater (@insertPost_op_field c tag msg body ip hop s)
  rw [hd] at h ⊢
  exact getPostOp_of_op h

theorem getPostOp_after_insert_sample :
    (1 : Int) ≠ 0 ∧
      (∀ st ∈ [HistoryStep.insertPost "moe".toList ⟨3, 1, 0, [], [], [], [], none, none⟩
        "b".toList []], st.viewKey ≠ some (.post 2)) ∧
      getPostOp (runSteps Common.sample Store.empty
          [.insertPost "moe".toList ⟨2, 1, 0, [], [], [], [], none, none⟩ "a".toList [],
            .insertPost "moe".toList ⟨3, 1, 0, [], [], [], [], none, none⟩ "b".toList []]) 2 =
        .reply 2 "1".toList :=
  ⟨by decide, by decide, @getPostOp_after_insert Common.sample "moe".toList
    ⟨2, 1, 0, [], [], [], [], none, none⟩ _ _ (by decide) _ _ (by decide)⟩

end Shamichan.Db

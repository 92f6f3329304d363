import Shamichan.Db.History

/-!
# Shamichan — the commands the blocks of `db.js` send

Every invariant of the store that the write calls keep comes down to what their `MULTI`
blocks may send. `Command.Sent` lists those commands by shape, one constructor per line of
`db.js` that queues one, and `HistoryStep.commands_sent` proves that every block of every
step is made of them, whatever its arguments. An invariant of the store is then kept by a case
per constructor, with no block unfolded again.

* `log_sent`, `finishOff_sent`, `insertPostBatch_sent`, ...: one lemma per block builder;
* `HistoryStep.commands_sent`: every step's block;
* `HistoryStep.run_keeps`: what every sent command keeps, every step keeps.
-/

namespace Shamichan.Db

open Js

/-- The commands the blocks of `insert_post`, `add_image`, `append_post`, `finish_post`,
`finish_all`, `remove_post` and `remove_posts` send, by shape. -/
inductive Command.Sent : Command → Prop
  /-- `_log`'s `RPUSH thread:op:history msg` -/
  | logPush (op : Int) (msg : Str) : Sent (.rpush (.history op) msg)
  /-- `_log`'s `HINCRBY thread:op hctr 1` -/
  | logCount (op : Int) : Sent (.hincrby (.post (.thread op)) "hctr".toList 1)
  /-- `_log`'s `PUBLISH thread:op msg` -/
  | logPublish (chan msg : Str) : Sent (.publish chan msg)
  /-- `insert_post`'s `INCR tag:…:bumpctr` -/
  | bumpctr (tag : Str) : Sent (.incr (.bumpctr tag))
  /-- `insert_post`'s and `add_image`'s `HINCRBY thread:op imgctr 1` -/
  | imgctr (op : Int) : Sent (.hincrby (.post (.thread op)) "imgctr".toList 1)
  /-- `insert_post`'s and `add_image`'s `HSET MD5s md5 num` -/
  | md5 (m v : Str) : Sent (.hset .md5s m v)
  /-- `insert_post`'s `HMSET key view` -/
  | view (key : PostKey) (msg : PostMsg) (ip : Str) : Sent (.hmset (.post key) (msg.view ip))
  /-- `insert_post`'s `SET key:body body` -/
  | setBody (key : PostKey) (body : Str) : Sent (.set (.body key) body)
  /-- `insert_post`'s and `append_post`'s `HMSET key:links links` -/
  | links (key : PostKey) (l : List (Str × Str)) : Sent (.hmset (.links key) l)
  /-- `insert_post`'s `RPUSH thread:op:posts num` -/
  | addReply (op : Int) (num : Str) : Sent (.rpush (.posts op) num)
  /-- `insert_post`'s `SET ip:… op` -/
  | setIp (a v : Str) : Sent (.set (.ip a) v)
  /-- `insert_post`'s `EXPIRE ip:… THREAD_THROTTLE` -/
  | expireIp (a : Str) (n : Nat) : Sent (.expire (.ip a) n)
  /-- `insert_post`'s `ZADD tag:…:threads bumpctr op`, sent after its block -/
  | bump (tag : Str) (score : Int) (m : Str) : Sent (.zadd (.threads tag) score m)
  /-- `add_image`'s `HMSET post:num image` -/
  | image (num : Int) (img : Image) : Sent (.hmset (.post (.post num)) img.fields)
  /-- `append_post`'s `APPEND key:body tail` -/
  | appendBody (key : PostKey) (tail : Str) : Sent (.append (.body key) tail)
  /-- `append_post`'s `HSET key state …` -/
  | state (key : PostKey) (v : Str) : Sent (.hset (.post key) "state".toList v)
  /-- `finish_off`'s `HSET key body body` -/
  | finishBody (key : PostKey) (body : Str) : Sent (.hset (.post key) "body".toList body)
  /-- `finish_off`'s `DEL key:body` -/
  | delBody (key : PostKey) : Sent (.del (.body key))
  /-- `finish_off`'s `HDEL key state` -/
  | delState (key : PostKey) : Sent (.hdel (.post key) "state".toList)
  /-- `remove_post`'s `LREM thread:op:posts -1 num` -/
  | unlist (op : Int) (num : Str) : Sent (.lrem (.posts op) (-1) num)
  /-- `remove_post`'s `HSET post:num hide 1` -/
  | hide (num : Int) : Sent (.hset (.post (.post num)) "hide".toList "1".toList)

/-! ## One lemma per block builder -/

theorem log_sent {op kind : Int} {msg : List Json} {cmds : List Command}
    (h : log op kind msg = .ok cmds) : ∀ c ∈ cmds, c.Sent := by
  unfold log at h
  split_ifs at h
  cases h
  simp only [List.mem_cons, List.mem_singleton, List.not_mem_nil, or_false]
  rintro c (rfl | rfl | rfl) <;> constructor

theorem finishOff_sent (key : PostKey) (body : Str) : ∀ c ∈ finishOff key body, c.Sent := by
  simp only [finishOff, List.mem_cons, List.mem_singleton, List.not_mem_nil, or_false]
  rintro c (rfl | rfl | rfl) <;> constructor

/-- A block of `_log` updates, one per thread, as `remove_posts` builds it: each of its
commands is one of an update's. -/
theorem mapM_log_mem {c : Common} :
    ∀ {gs : List (Int × List Int)} {lcs : List (List Command)},
      gs.mapM (fun g => log g.1 c.deletePosts ((jsSort g.2).map .num)) = .ok lcs →
        ∀ cmd ∈ lcs.flatten, ∃ op kind msg lc, log op kind msg = .ok lc ∧ cmd ∈ lc
  | [], lcs, h => by cases h; simp
  | g :: gs, lcs, h => by
    rw [List.mapM_cons] at h
    cases hg : log g.1 c.deletePosts ((jsSort g.2).map .num) with
    | error e => simp only [hg, bind, Except.bind] at h; cases h
    | ok lc =>
      cases hr : gs.mapM (fun g => log g.1 c.deletePosts ((jsSort g.2).map .num)) with
      | error e => simp only [hg, hr, bind, Except.bind] at h; cases h
      | ok lcs' =>
        simp only [hg, hr, bind, Except.bind, pure, Except.pure, Except.ok.injEq] at h
        subst h
        simp only [List.flatten_cons, List.forall_mem_append]
        exact ⟨fun cmd hc => ⟨_, _, _, lc, hg, hc⟩, mapM_log_mem hr⟩

theorem mapM_log_sent {c : Common} {gs : List (Int × List Int)} {lcs : List (List Command)}
    (h : gs.mapM (fun g => log g.1 c.deletePosts ((jsSort g.2).map .num)) = .ok lcs) :
    ∀ cmd ∈ lcs.flatten, cmd.Sent := fun cmd hc => by
  obtain ⟨_, _, _, _, hl, hm⟩ := mapM_log_mem h cmd hc
  exact log_sent hl cmd hm

theorem insertPostBatch_sent {c : Common} {tag : Str} {msg : PostMsg} {body ip : Str}
    {cmds : List Command} (h : insertPostBatch c tag msg body ip = .ok cmds) :
    ∀ cmd ∈ cmds, cmd.Sent := by
  unfold insertPostBatch at h
  obtain ⟨lc, hl, rfl⟩ := Except.map_eq_ok h
  refine List.forall_mem_append.2 ⟨fun cmd hc => ?_, log_sent hl⟩
  simp only [List.mem_append, List.mem_cons, List.mem_singleton, List.not_mem_nil,
    or_false] at hc
  -- the bump, the image, the view and body, the links, and the reply or the throttle
  rcases hc with ((((hc | hc) | hc | hc) | hc) | hc)
  · split_ifs at hc <;> simp only [List.mem_singleton, List.not_mem_nil] at hc
    subst hc; constructor
  · split at hc
    · split_ifs at hc <;> simp only [List.mem_append, List.mem_singleton, List.not_mem_nil,
        false_or] at hc <;> rcases hc with rfl | rfl <;> constructor
    · cases hc
  · subst hc; constructor
  · subst hc; constructor
  · split at hc <;> simp only [List.mem_singleton, List.not_mem_nil] at hc
    subst hc; constructor
  · split_ifs at hc <;> simp only [List.mem_cons, List.mem_singleton, List.not_mem_nil,
      or_false] at hc <;> rcases hc with rfl | rfl <;> constructor

theorem addImageBatch_sent {c : Common} {num op : Int} {img : Image} {cmds : List Command}
    (h : addImageBatch c num op img = .ok cmds) : ∀ cmd ∈ cmds, cmd.Sent := by
  obtain ⟨lc, hl, rfl⟩ := Except.map_eq_ok h
  refine List.forall_mem_append.2 ⟨log_sent hl, ?_⟩
  simp only [List.mem_cons, List.mem_singleton, List.not_mem_nil, or_false]
  rintro c (rfl | rfl | rfl) <;> constructor

theorem appendPostBatch_sent {c : Common} {num op : Int} {state oldState : Int × Int}
    {tail : Str} {links : Option Json} {newLinks : List (Str × Int)} {cmds : List Command}
    (h : appendPostBatch c num op state oldState tail links newLinks = .ok cmds) :
    ∀ cmd ∈ cmds, cmd.Sent := by
  obtain ⟨lc, hl, rfl⟩ := Except.map_eq_ok h
  refine List.forall_mem_append.2 ⟨fun cmd hc => ?_, log_sent hl⟩
  simp only [List.mem_append, List.mem_singleton] at hc
  rcases hc with (rfl | hc) | hc
  · constructor
  all_goals split_ifs at hc <;> simp only [List.mem_singleton, List.not_mem_nil] at hc
  all_goals subst hc; constructor

/-- **Every block is made of the commands `db.js` sends.** -/
theorem HistoryStep.commands_sent {c : Common} {st : HistoryStep} {cmds : List Command}
    (h : st.commands c = .ok cmds) : ∀ cmd ∈ cmds, cmd.Sent := by
  cases st with
  | insertPost => exact insertPostBatch_sent h
  | addImage => exact addImageBatch_sent h
  | appendPost => exact appendPostBatch_sent h
  | finishPost | finishAll =>
    obtain ⟨lc, hl, rfl⟩ := Except.map_eq_ok h
    exact List.forall_mem_append.2 ⟨finishOff_sent _ _, log_sent hl⟩
  | removePosts =>
    obtain ⟨lcs, hl, rfl⟩ := Except.map_eq_ok h
    exact mapM_log_sent hl
  | removeFinish => cases h; exact finishOff_sent _ _
  | bump | removeFromThread | hide =>
    cases h
    simp only [List.mem_singleton]
    rintro _ rfl
    constructor

/-! ## Invariants kept command by command -/

/-- A block keeps what each of its commands keeps. -/
theorem Store.exec_keeps {P : Store → Prop} {cs : List Command}
    (h : ∀ c ∈ cs, ∀ s, P s → P (s.exec1 c).1) :
    ∀ {s : Store}, P s → P (s.exec cs).1 := by
  induction cs with
  | nil => exact id
  | cons c cs ih =>
    intro s hs
    exact ih (fun c' hc => h c' (List.mem_cons_of_mem _ hc)) (h c (List.mem_cons_self _ _) s hs)

/-- A block in which one command makes `P` hold and every command keeps it ends with `P`. -/
theorem Store.exec_sets {P : Store → Prop} {cs : List Command}
    (hkeep : ∀ c ∈ cs, ∀ s, P s → P (s.exec1 c).1) {c : Command} (hc : c ∈ cs)
    (hset : ∀ s : Store, P (s.exec1 c).1) (s : Store) : P (s.exec cs).1 := by
  induction cs generalizing s with
  | nil => cases hc
  | cons c' cs ih =>
    have hrest := fun c'' hc'' => hkeep c'' (List.mem_cons_of_mem _ hc'')
    rcases List.mem_cons.1 hc with rfl | hc
    · exact Store.exec_keeps hrest (hset s)
    · exact ih hrest hc (s.exec1 c').1

/-- The fields of hashes a command writes. -/
def Command.hashWrites : Command → List (HashKey × Str)
  | .hset k f _ | .hincrby k f _ | .hdel k f => [(k, f)]
  | .hmset k fvs => fvs.map fun fv => (k, fv.1)
  | _ => []

/-- A command leaves every field of a hash it does not write. -/
theorem Store.exec1_hashes {c : Command} {k : HashKey} {f : Str} (h : (k, f) ∉ c.hashWrites)
    (s : Store) : (s.exec1 c).1.hashes k f = s.hashes k f := by
  cases c with
  | hset k' f' v | hdel k' f' | hincrby k' f' v =>
    simp only [Command.hashWrites, List.mem_singleton, Prod.mk.injEq, not_and] at h
    simp only [Store.exec1]
    (try split) <;> simp only [Function.update_apply]
    all_goals split_ifs with hk <;> [subst hk; rfl]
    all_goals rw [Function.update_noteq (h rfl)]
  | hmset k' fvs =>
    simp only [Store.exec1, Function.update_apply]
    split_ifs with hk
    · subst hk
      exact foldl_update_of_not_mem (fun hf => h (by
        obtain ⟨fv, hfv, rfl⟩ := List.mem_map.1 hf
        exact List.mem_map.2 ⟨fv, hfv, rfl⟩)) _
    · rfl
  | incr k' => simp only [Store.exec1]; split <;> rfl
  | _ => rfl

/-- What every command `db.js` sends keeps, every step keeps. -/
theorem HistoryStep.run_keeps {P : Store → Prop}
    (hP : ∀ c, c.Sent → ∀ s, P s → P (s.exec1 c).1)
    (c : Common) {s : Store} (hs : P s) (st : HistoryStep) : P (st.run c s) := by
  unfold HistoryStep.run
  split
  · next cmds hc => exact Store.exec_keeps (fun cmd h => hP cmd (commands_sent hc cmd h)) hs
  · exact hs

/-- What every command `db.js` sends keeps, every run of steps keeps. -/
theorem runSteps_keeps {P : Store → Prop} (hP : ∀ c, c.Sent → ∀ s, P s → P (s.exec1 c).1)
    (c : Common) {s : Store} (hs : P s) (steps : List HistoryStep) : P (runSteps c s steps) := by
  induction steps generalizing s with
  | nil => exact hs
  | cons st steps ih => exact ih (HistoryStep.run_keeps hP c hs st)

end Shamichan.Db

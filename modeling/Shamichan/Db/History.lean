import Shamichan.Db.Posts

/-!
# Shamichan — the history of a thread is a gap-free counter of its feed

`Y._log` queues `RPUSH thread:op:history msg`, `HINCRBY thread:op hctr 1` and
`PUBLISH thread:op msg` on the `MULTI` block of the operation it belongs to, and nothing else
in `db.js` writes the history, the `hctr` field or a channel. `EXEC` runs a block with no
other client's command inside it, so from an empty store, after any interleaving of the steps
of any calls, `hctr` is the length of the history and the channel carried exactly the history,
in order (`HistoryInv`, `runSteps_historyInv`).

* `Command.Quiet`: a command that leaves every history, `hctr` field and channel alone
  (`exec1_quiet`);
* `Logged`: a block made of whole `_log` updates and quiet commands; running it keeps the
  invariant (`Logged.exec_historyInv`), and every block of `db.js` is one (`insertPostBatch_logged`,
  ...);
* `HistoryStep`: one atomic step of the calls, with any arguments.
-/

namespace Shamichan.Db

open Js

/-- The `hctr` field of `thread:op`. -/
def Store.hctr (s : Store) (op : Int) : Option Str := s.hashes (.post (.thread op)) "hctr".toList

/-- The messages published on the channel `thread:op`, oldest first. -/
def Store.publishedOn (s : Store) (op : Int) : List Str :=
  (s.published.filter (·.1 = threadKey op)).map (·.2)

/-- The history invariant: for every thread, `hctr` (as `HINCRBY` reads it) is the length of
`thread:op:history`, and the channel `thread:op` carried exactly that list. -/
def HistoryInv (s : Store) : Prop :=
  ∀ op, intValue (s.hctr op) = some (s.lists (.history op)).length ∧
    s.publishedOn op = s.lists (.history op)

theorem historyInv_empty : HistoryInv Store.empty := fun _ => ⟨rfl, rfl⟩

theorem threadKey_injective {a b : Int} (h : threadKey a = threadKey b) : a = b := by
  have h' : showInt a = showInt b := List.append_cancel_left h
  simpa [parseInt_showInt] using congrArg parseInt h'

/-! ## Quiet commands -/

/-- A command that writes no history, no `hctr` field and no channel. -/
def Command.Quiet : Command → Prop
  | .hset (.post (.thread _)) f _ => f ≠ "hctr".toList
  | .hmset (.post (.thread _)) fvs => "hctr".toList ∉ fvs.map Prod.fst
  | .hincrby (.post (.thread _)) f _ => f ≠ "hctr".toList
  | .hdel (.post (.thread _)) f => f ≠ "hctr".toList
  | .rpush (.history _) _ => False
  | .lrem (.history _) _ _ => False
  | .publish _ _ => False
  | _ => True

theorem foldl_update_of_not_mem {fvs : List (Str × Str)} {f : Str} (h : f ∉ fvs.map Prod.fst)
    (m : Str → Option Str) :
    fvs.foldl (fun (h : Str → Option Str) fv => Function.update h fv.1 (some fv.2)) m f = m f := by
  induction fvs generalizing m with
  | nil => rfl
  | cons fv fvs ih =>
    simp only [List.map_cons, List.mem_cons, not_or] at h
    rw [List.foldl_cons, ih h.2, Function.update_noteq h.1]

/-- **Frame of a quiet command**: it leaves every `hctr`, every history and the channels. -/
theorem exec1_quiet {c : Command} (hq : c.Quiet) (s : Store) (op : Int) :
    (s.exec1 c).1.hctr op = s.hctr op ∧
      (s.exec1 c).1.lists (.history op) = s.lists (.history op) ∧
      (s.exec1 c).1.published = s.published := by
  cases c with
  | incr k => simp only [Store.exec1]; split <;> exact ⟨rfl, rfl, rfl⟩
  | hincrby k f n =>
    simp only [Store.exec1]
    split
    · refine ⟨?_, rfl, rfl⟩
      simp only [Store.hctr, Function.update_apply]
      split_ifs with hk <;> [subst hk; rfl]
      exact Function.update_noteq (show "hctr".toList ≠ f from Ne.symm hq) _ _
    · exact ⟨rfl, rfl, rfl⟩
  | hset k f v =>
    refine ⟨?_, rfl, rfl⟩
    simp only [Store.exec1, Store.hctr, Function.update_apply]
    split_ifs with hk <;> [subst hk; rfl]
    exact Function.update_noteq (show "hctr".toList ≠ f from Ne.symm hq) _ _
  | hdel k f =>
    refine ⟨?_, rfl, rfl⟩
    simp only [Store.exec1, Store.hctr, Function.update_apply]
    split_ifs with hk <;> [subst hk; rfl]
    exact Function.update_noteq (show "hctr".toList ≠ f from Ne.symm hq) _ _
  | hmset k fvs =>
    refine ⟨?_, rfl, rfl⟩
    simp only [Store.exec1, Store.hctr, Function.update_apply]
    split_ifs with hk <;> [subst hk; rfl]
    exact foldl_update_of_not_mem hq _
  | rpush k v =>
    cases k with
    | posts o => exact ⟨rfl, by simp [Store.exec1, Function.update_apply], rfl⟩
    | history o => exact hq.elim
  | lrem k count v =>
    cases k with
    | posts o => exact ⟨rfl, by simp [Store.exec1, Function.update_apply], rfl⟩
    | history o => exact hq.elim
  | publish chan msg => exact hq.elim
  | set | append | del | expire | zadd => exact ⟨rfl, rfl, rfl⟩

theorem exec1_quiet_historyInv {c : Command} (hq : c.Quiet) {s : Store} (h : HistoryInv s) :
    HistoryInv (s.exec1 c).1 := fun op => by
  obtain ⟨h1, h2, h3⟩ := exec1_quiet hq s op
  rw [h1, h2, Store.publishedOn, h3]
  exact h op

/-! ## One `_log` update -/

/-- The three commands of one `_log` update, on a store whose counter reads `m`. -/
theorem exec_log {s : Store} {op m : Int} (hc : intValue (s.hctr op) = some m) (t : Str) :
    (s.exec [.rpush (.history op) t, .hincrby (.post (.thread op)) "hctr".toList 1,
        .publish (threadKey op) t]).1 =
      { s with
        lists := Function.update s.lists (.history op) (s.lists (.history op) ++ [t])
        hashes := (Function.update s.hashes (.post (.thread op))
          (Function.update (s.hashes (.post (.thread op))) "hctr".toList (some (showInt (m + 1)))))
        published := s.published ++ [(threadKey op, t)] } := by
  have hc' : intValue (s.hashes (.post (.thread op)) "hctr".toList) = some m := hc
  simp only [Store.exec, Store.exec1, hc']

/-- The three commands of one `_log` update keep the invariant: the history grows by the
message, `hctr` by one, and the channel carries the message. -/
theorem exec_log_historyInv {op kind : Int} {msg : List Json} {cmds : List Command}
    (hl : log op kind msg = .ok cmds) {s : Store} (h : HistoryInv s) :
    HistoryInv (s.exec cmds).1 := fun o => by
  simp only [log] at hl
  split_ifs at hl
  cases hl
  obtain ⟨hc, hp⟩ := h op
  rw [exec_log hc]
  by_cases ho : o = op
  · subst ho
    simp only [Store.hctr, Store.publishedOn, Function.update_same, intValue, redisInt?_showInt,
      List.filter_append, List.map_append] at hp ⊢
    simp [hp]
  · obtain ⟨hc', hp'⟩ := h o
    have hk : threadKey op ≠ threadKey o := fun e => ho (threadKey_injective e).symm
    have hh : HashKey.post (.thread o) ≠ .post (.thread op) := by simpa using ho
    have hl : ListKey.history o ≠ .history op := by simpa using ho
    refine ⟨?_, ?_⟩
    · simpa only [Store.hctr, Function.update_noteq hh, Function.update_noteq hl] using hc'
    · simp only [Store.publishedOn, List.filter_append, List.filter_singleton, hk,
        decide_False, cond_false, List.append_nil, Function.update_noteq hl]
      exact hp'

/-! ## Blocks made of updates and quiet commands -/

/-- A `MULTI` block made of whole `_log` updates and quiet commands. -/
inductive Logged : List Command → Prop
  | nil : Logged []
  | quiet {c : Command} {cs : List Command} : c.Quiet → Logged cs → Logged (c :: cs)
  | update {op kind : Int} {msg : List Json} {cmds cs : List Command} :
      log op kind msg = .ok cmds → Logged cs → Logged (cmds ++ cs)

theorem Logged.exec_historyInv {cs : List Command} (hl : Logged cs) {s : Store}
    (h : HistoryInv s) : HistoryInv (s.exec cs).1 := by
  induction hl generalizing s with
  | nil => exact h
  | quiet hq _ ih => exact ih (exec1_quiet_historyInv hq h)
  | update hlog _ ih => rw [Store.exec_append]; exact ih (exec_log_historyInv hlog h)

theorem Logged.quiet_append {pre cs : List Command} (hq : ∀ c ∈ pre, c.Quiet) (hl : Logged cs) :
    Logged (pre ++ cs) := by
  induction pre with
  | nil => exact hl
  | cons c pre ih =>
    exact .quiet (hq c (List.mem_cons_self _ _)) (ih fun c' h => hq c' (List.mem_cons_of_mem _ h))

theorem Logged.append {cs cs' : List Command} (hl : Logged cs) (hl' : Logged cs') :
    Logged (cs ++ cs') := by
  induction hl with
  | nil => exact hl'
  | quiet hq _ ih => exact .quiet hq ih
  | update hlog _ ih => rw [List.append_assoc]; exact .update hlog ih

theorem Logged.of_log {op kind : Int} {msg : List Json} {cmds : List Command}
    (h : log op kind msg = .ok cmds) : Logged cmds := by
  simpa using Logged.update h .nil

theorem Logged.of_quiet {cs : List Command} (hq : ∀ c ∈ cs, c.Quiet) : Logged cs := by
  simpa using Logged.quiet_append hq .nil

/-! ## Every block of `db.js` is made so -/

theorem mem_optField_fst {α : Type} {name : String} {v : Str} {f : Str → α} {k : Str}
    (h : k ∈ (optField name v f).map Prod.fst) : k = name.toList := by
  unfold optField at h
  split_ifs at h <;> simp_all

/-- The fields of a view: `time`, `ip`, `state`, the optional `name`, `trip`, `email` and
`op`, and the image's; none is `hctr`. -/
theorem view_quiet (msg : PostMsg) (ip : Str) : "hctr".toList ∉ (msg.view ip).map Prod.fst := by
  intro h
  simp only [PostMsg.view, List.map_append, List.mem_append] at h
  rcases h with ((((h | h) | h) | h) | h) | h
  · simp only [List.map_cons, List.map_nil] at h; revert h; decide
  · exact absurd (mem_optField_fst h) (by decide)
  · exact absurd (mem_optField_fst h) (by decide)
  · exact absurd (mem_optField_fst h) (by decide)
  · split_ifs at h <;> simp only [List.map_cons, List.map_nil] at h <;> revert h <;> decide
  · split at h
    · split_ifs at h <;> simp only [Image.fields, List.map_append, List.map_cons, List.map_nil] at h <;>
        revert h <;> decide
    · simp at h

theorem insertPostBatch_logged {c : Common} {tag : Str} {msg : PostMsg} {body ip : Str}
    {cmds : List Command} (h : insertPostBatch c tag msg body ip = .ok cmds) : Logged cmds := by
  obtain ⟨pre, lc, rfl, hlc, -, hpre⟩ := insertPostBatch_ok h
  refine Logged.quiet_append (fun cmd hc => ?_) (.of_log hlc)
  rcases hpre cmd hc with rfl | ⟨_, rfl⟩ | ⟨_, _, rfl⟩ | rfl | ⟨_, _, rfl⟩ | ⟨_, _, rfl⟩ |
    ⟨_, _, rfl⟩ | ⟨_, _, rfl⟩
  · trivial
  · simp [Command.Quiet]
  · trivial
  · -- the view: `thread:num` gets no `hctr` field
    unfold PostMsg.key; split_ifs
    · trivial
    · exact view_quiet msg ip
  all_goals trivial

theorem addImageBatch_logged {c : Common} {num op : Int} {img : Image} {cmds : List Command}
    (h : addImageBatch c num op img = .ok cmds) : Logged cmds := by
  obtain ⟨lc, hlc, rfl⟩ := Except.map_eq_ok h
  exact (Logged.of_log hlc).append
    (.quiet trivial (.quiet (show "imgctr".toList ≠ "hctr".toList by decide) (.quiet trivial .nil)))

/-- A write to a field of a post's hash other than `hctr` is quiet. -/
theorem quiet_hset {key : PostKey} {f : Str} (h : f ≠ "hctr".toList) (v : Str) :
    (Command.hset (.post key) f v).Quiet := by
  cases key <;> [exact h; trivial]

theorem finishOff_quiet (key : PostKey) (body : Str) : ∀ cmd ∈ finishOff key body, cmd.Quiet := by
  intro cmd hc
  simp only [finishOff, List.mem_cons, List.mem_singleton, List.not_mem_nil, or_false] at hc
  rcases hc with rfl | rfl | rfl
  · exact quiet_hset (by decide) _
  · trivial
  · cases key <;> [exact (by decide : "state".toList ≠ "hctr".toList); trivial]

theorem appendPostBatch_logged {c : Common} {num op : Int} {state oldState : Int × Int}
    {tail : Str} {links : Option Json} {newLinks : List (Str × Int)} {cmds : List Command}
    (h : appendPostBatch c num op state oldState tail links newLinks = .ok cmds) :
    Logged cmds := by
  obtain ⟨lc, hlc, rfl⟩ := Except.map_eq_ok h
  refine Logged.quiet_append (fun cmd hc => ?_) (.of_log hlc)
  simp only [List.mem_append, List.mem_singleton] at hc
  rcases hc with (rfl | hc) | hc
  · trivial
  · split_ifs at hc
    · rw [List.mem_singleton.1 hc]; exact quiet_hset (by decide) _
    · cases hc
  · split_ifs at hc
    · cases hc
    · rw [List.mem_singleton.1 hc]; trivial

theorem finishPostBatch_logged {c : Common} {num op : Int} {body : Str} {cmds : List Command}
    (h : finishPostBatch c num op body = .ok cmds) : Logged cmds := by
  obtain ⟨lc, hlc, rfl⟩ := Except.map_eq_ok h
  exact Logged.quiet_append (finishOff_quiet _ _) (.of_log hlc)

theorem finishAllBatch_logged {c : Common} {key : PostKey} {body opField : Option Str}
    {cmds : List Command} (h : finishAllBatch c key body opField = .ok cmds) : Logged cmds := by
  obtain ⟨lc, hlc, rfl⟩ := Except.map_eq_ok h
  exact Logged.quiet_append (finishOff_quiet _ _) (.of_log hlc)

/-- The updates of several threads, one after another. -/
theorem logged_flatten_of_mapM {c : Common} :
    ∀ {gs : List (Int × List Int)} {lcs : List (List Command)},
      gs.mapM (fun g => log g.1 c.deletePosts ((jsSort g.2).map .num)) = .ok lcs →
        Logged lcs.flatten
  | [], lcs, h => by cases h; exact .nil
  | g :: gs, lcs, h => by
    rw [List.mapM_cons] at h
    cases hg : log g.1 c.deletePosts ((jsSort g.2).map .num) with
    | error e => simp only [hg, bind, Except.bind] at h; cases h
    | ok lc =>
      cases hr : gs.mapM (fun g => log g.1 c.deletePosts ((jsSort g.2).map .num)) with
      | error e => simp only [hg, hr, bind, Except.bind] at h; cases h
      | ok lcs' =>
        simp only [hg, hr, bind, Except.bind, pure, Except.pure, Except.ok.injEq] at h
        subst h
        exact (Logged.of_log hg).append (logged_flatten_of_mapM hr)

theorem removePostsBatch_logged {c : Common} {dels : List (Int × Int)} {cmds : List Command}
    (h : removePostsBatch c dels = .ok cmds) : Logged cmds := by
  obtain ⟨lcs, hlcs, rfl⟩ := Except.map_eq_ok h
  exact logged_flatten_of_mapM hlcs

/-! ## Any interleaving of the calls -/

/-- One atomic step that the calls of `db.js` make on the store, with any arguments: a `MULTI`
block, or a single write. Reads change nothing and are left out. -/
inductive HistoryStep where
  /-- `insert_post`'s block -/
  | insertPost (tag : Str) (msg : PostMsg) (body ip : Str)
  /-- the `ZADD` `insert_post` sends after its block -/
  | bump (tag : Str) (score op : Int)
  /-- `add_image`'s block -/
  | addImage (num op : Int) (img : Image)
  /-- `append_post`'s block -/
  | appendPost (num op : Int) (state oldState : Int × Int) (tail : Str) (links : Option Json)
      (newLinks : List (Str × Int))
  /-- `finish_post`'s block -/
  | finishPost (num op : Int) (body : Str)
  /-- `finish_all`'s second block for one body key -/
  | finishAll (key : PostKey) (body opField : Option Str)
  /-- `remove_post`'s `LREM` -/
  | removeFromThread (op num : Int)
  /-- `remove_post`'s `HSET post:num hide 1` -/
  | hide (num : Int)
  /-- `remove_post`'s background `finish_off` block -/
  | removeFinish (num : Int) (body : Option Str)
  /-- `remove_posts`' block -/
  | removePosts (dels : List (Int × Int))

/-- The commands of a step, or what `_log` throws while its block is built. -/
def HistoryStep.commands (c : Common) : HistoryStep → Except Str (List Command)
  | .insertPost tag msg body ip => insertPostBatch c tag msg body ip
  | .bump tag score op => .ok [.zadd (.threads tag) score (showInt op)]
  | .addImage num op img => addImageBatch c num op img
  | .appendPost num op state oldState tail links newLinks =>
    appendPostBatch c num op state oldState tail links newLinks
  | .finishPost num op body => finishPostBatch c num op body
  | .finishAll key body opField => finishAllBatch c key body opField
  | .removeFromThread op num => .ok [.lrem (.posts op) (-1) (showInt num)]
  | .hide num => .ok [.hset (.post (.post num)) "hide".toList "1".toList]
  | .removeFinish num body => .ok (finishOff (.post num) (body.getD "null".toList))
  | .removePosts dels => removePostsBatch c dels

/-- A step on the store: its block runs whole, or, when `_log` threw, nothing is sent. -/
def HistoryStep.run (c : Common) (s : Store) (st : HistoryStep) : Store :=
  match st.commands c with
  | .ok cmds => (s.exec cmds).1
  | .error _ => s

/-- The store after a sequence of steps, in the order they reach the server. -/
def runSteps (c : Common) (s : Store) (steps : List HistoryStep) : Store :=
  steps.foldl (HistoryStep.run c) s

theorem HistoryStep.commands_logged {c : Common} {st : HistoryStep} {cmds : List Command}
    (h : st.commands c = .ok cmds) : Logged cmds := by
  cases st with
  | insertPost => exact insertPostBatch_logged h
  | addImage => exact addImageBatch_logged h
  | appendPost => exact appendPostBatch_logged h
  | finishPost => exact finishPostBatch_logged h
  | finishAll => exact finishAllBatch_logged h
  | removePosts => exact removePostsBatch_logged h
  | removeFinish => cases h; exact .of_quiet (finishOff_quiet _ _)
  | bump | removeFromThread | hide => cases h; exact .quiet trivial .nil

/-- Every step keeps the history invariant. -/
theorem HistoryStep.run_historyInv (c : Common) {s : Store} (h : HistoryInv s)
    (st : HistoryStep) : HistoryInv (st.run c s) := by
  unfold HistoryStep.run
  split
  · next cmds hc => exact (commands_logged hc).exec_historyInv h
  · exact h

/-- **The history is a gap-free counter of the feed**: from an empty store, after any
interleaving of the steps of `insert_post`, `add_image`, `append_post`, `finish_post`,
`finish_all` and `remove_posts` calls, failed or thrown calls included, every thread's `hctr`
is the length of its history and its channel carried exactly its history, in order. -/
theorem runSteps_historyInv (c : Common) (steps : List HistoryStep) :
    HistoryInv (runSteps c Store.empty steps) := by
  suffices ∀ s, HistoryInv s → HistoryInv (runSteps c s steps) from this _ historyInv_empty
  induction steps with
  | nil => exact fun _ h => h
  | cons st steps ih => exact fun s h => ih _ (HistoryStep.run_historyInv c h st)

end Shamichan.Db

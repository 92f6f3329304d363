import Shamichan.Db.Bump
import Shamichan.Db.Lookup
import Shamichan.Db.Remove

/-!
# Shamichan — concurrent `remove_post` calls

`remove_post(num)` looks the post's thread up in the `OPs` cache ('No such post.' when it has
none, 'Thread deletion not supported yet.' for an opening post) and sends
`LREM thread:op:posts -1 num`. When that took out one copy it sends `HSET post:num hide 1`, and
when that comes back, failed or not, it deletes `OPs[num]` and calls back `[op, num]`; otherwise
it calls back `-num`, already gone. `remove_posts` starts one call per number at once, and two moderators may
remove the same post, so calls for one number run interleaved with each other, with
`on_OP_message` and with every other client's blocks (`Removes.step`). The cache is read before
the `LREM`s and cleared only after the `HSET`s, so it does not keep two calls from reaching the
`LREM` of one post: the server runs each `LREM` whole, and that alone decides.

* `Removes.tokens`: the copies of `num` in `thread:op:posts`, plus the calls for `num` that
  took one out, never grow while no other step inserts post `num` (`Removes.tokens_run`);
* `removes_once`: so, in every interleaving, the calls that call back `[op, num]` are at most
  as many as the copies of `num` the list held: a post listed once is reported removed once;
* `removes_hidden`: in a run in which no `HSET` fails, a post a call reports removed keeps
  `hide` whatever runs, so `_get_each_reply` lists the same posts whether `num` is among its
  numbers or not. A failed `HSET` is only logged: the call reports the post removed all the
  same, and `_get_each_reply` still lists it.

The calls of one process share a connection, whose commands the server runs in the order they
were sent; the model lets the server take them in any order, so what it proves holds of every
order the real server can pick.
-/

namespace Shamichan.Db

open Js

/-! ## `LREM` counts what it takes out -/

/-- `removeCopies` takes out of the count of `v` exactly what it reports. -/
theorem removeCopies_count (v : Str) :
    ∀ (n : Nat) (all : Bool) (l : List Str),
      ((removeCopies v n all l).1.count v) + (removeCopies v n all l).2 = l.count v
  | _, _, [] => rfl
  | n, all, x :: xs => by
    unfold removeCopies
    split_ifs with hx
    · have ih := removeCopies_count v (n - 1) all xs
      rcases hr : removeCopies v (n - 1) all xs with ⟨ys, k⟩
      rw [hr] at ih
      simp only [hx.1, List.count_cons_self] at ih ⊢
      omega
    · have ih := removeCopies_count v n all xs
      rcases hr : removeCopies v n all xs with ⟨ys, k⟩
      rw [hr] at ih
      simp only [List.count_cons] at ih ⊢
      omega

/-- `removeCopies` leaves every other value. -/
theorem removeCopies_count_ne {v w : Str} (hw : w ≠ v) :
    ∀ (n : Nat) (all : Bool) (l : List Str), (removeCopies v n all l).1.count w = l.count w
  | _, _, [] => rfl
  | n, all, x :: xs => by
    unfold removeCopies
    split_ifs with hx
    · have ih := removeCopies_count_ne hw (n - 1) all xs
      rcases hr : removeCopies v (n - 1) all xs with ⟨ys, k⟩
      rw [hr] at ih
      simpa only [hx.1, List.count_cons_of_ne hw] using ih
    · have ih := removeCopies_count_ne hw n all xs
      rcases hr : removeCopies v n all xs with ⟨ys, k⟩
      rw [hr] at ih
      simp only [List.count_cons, ih]

theorem lrem_count (l : List Str) (k : Int) (v : Str) :
    (lrem l k v).1.count v + (lrem l k v).2 = l.count v := by
  unfold lrem
  split_ifs
  · simpa only [List.count_reverse] using removeCopies_count v _ false l.reverse
  · exact removeCopies_count v _ _ l

theorem lrem_count_ne (l : List Str) (k : Int) {v w : Str} (hw : w ≠ v) :
    (lrem l k v).1.count w = l.count w := by
  unfold lrem
  split_ifs
  · simpa only [List.count_reverse] using removeCopies_count_ne hw _ false l.reverse
  · exact removeCopies_count_ne hw _ _ l

@[simp]
theorem Store.exec1_lrem (s : Store) (k : ListKey) (n : Int) (v : Str) :
    (s.exec1 (.lrem k n v)).1 =
      { s with lists := Function.update s.lists k (lrem (s.lists k) n v).1 } := rfl

/-! ## What the other clients do to a reply list and to `hide` -/

/-- No command of `db.js` adds a copy of `v` to `thread:op:posts` but an `RPUSH` of `v` there. -/
theorem Command.Sent.count_posts_le {c : Command} (h : c.Sent) {op : Int} {v : Str}
    (hc : c ≠ .rpush (.posts op) v) (s : Store) :
    ((s.exec1 c).1.lists (.posts op)).count v ≤ (s.lists (.posts op)).count v := by
  cases h with
  | logPush o msg => simp
  | addReply o w =>
    simp only [Store.exec1_rpush, Function.update_apply]
    split_ifs with hk
    · cases hk
      have hw : w ≠ v := fun hv => hc (by rw [hv])
      simp [List.count_append, List.count_cons, hw]
    · exact le_rfl
  | unlist o w =>
    simp only [Store.exec1_lrem, Function.update_apply]
    split_ifs with hk
    · cases hk
      by_cases hv : v = w
      · subst hv
        have := lrem_count (s.lists (.posts op)) (-1) v
        omega
      · exact (lrem_count_ne _ _ hv).le
    · exact le_rfl
  | _ => simp only [Store.exec1]; (try split) <;> exact le_rfl

theorem PostMsg.hide_not_mem_view (msg : PostMsg) (ip : Str) :
    "hide".toList ∉ (msg.view ip).map Prod.fst := by
  unfold PostMsg.view
  cases msg.image <;>
    simp [optField, apply_ite (List.map Prod.fst), List.mem_ite_nil_left, List.mem_ite_nil_right,
      Image.fields]

/-- No command of `db.js` changes a `hide` that is set: `remove_post` alone writes the field,
always `1`. -/
theorem Command.Sent.hide_keep {c : Command} (h : c.Sent) {k : PostKey} {s : Store}
    (hs : s.hashes (.post k) "hide".toList = some "1".toList) :
    (s.exec1 c).1.hashes (.post k) "hide".toList = some "1".toList := by
  cases h with
  | hide num =>
    simp only [Store.exec1, Function.update_apply]
    split_ifs with hk
    · simp
    · exact hs
  | view key msg ip =>
    rw [Store.exec1_hashes _ s, hs]
    simp only [Command.hashWrites, List.mem_map, Prod.mk.injEq, not_exists, not_and]
    exact fun fv hfv _ hf => msg.hide_not_mem_view ip (List.mem_map.2 ⟨fv, hfv, hf⟩)
  | _ => rw [Store.exec1_hashes (by simp [Command.hashWrites, Image.fields]) s, hs]

theorem log_not_push {op kind : Int} {lmsg : List Json} {lc : List Command}
    (h : log op kind lmsg = .ok lc) {o : Int} {v : Str} : .rpush (.posts o) v ∉ lc := by
  unfold log at h
  split_ifs at h
  cases h
  simp

/-- **Only `insert_post` of a reply pushes onto a thread's reply list**, and its own number. -/
theorem HistoryStep.push_mem {c : Common} {st : HistoryStep} {cmds : List Command}
    (h : st.commands c = .ok cmds) {op : Int} {v : Str} (hv : .rpush (.posts op) v ∈ cmds) :
    ∃ num, v = showInt num ∧ st.viewKey = some (.post num) := by
  cases st with
  | insertPost tag msg body ip =>
    obtain ⟨lc, hl, rfl⟩ := Except.map_eq_ok h
    rcases List.mem_append.1 hv with hv | hv
    · simp only [List.mem_append, List.mem_cons, List.mem_singleton, List.not_mem_nil,
        or_false] at hv
      rcases hv with ((((hv | hv) | hv | hv) | hv) | hv)
      · split_ifs at hv <;> simp at hv
      · split at hv
        · split_ifs at hv <;> simp at hv
        · simp at hv
      · simp at hv
      · simp at hv
      · split at hv <;> simp at hv
      · split_ifs at hv with hop
        · simp only [List.mem_singleton, Command.rpush.injEq] at hv
          exact ⟨msg.num, hv.2, by rw [viewKey, PostMsg.key, if_pos hop]⟩
        all_goals simp at hv
    · exact absurd hv (log_not_push hl)
  | addImage num op img =>
    obtain ⟨lc, hl, rfl⟩ := Except.map_eq_ok h
    rcases List.mem_append.1 hv with hv | hv
    · exact absurd hv (log_not_push hl)
    · simp at hv
  | appendPost =>
    obtain ⟨lc, hl, rfl⟩ := Except.map_eq_ok h
    rcases List.mem_append.1 hv with hv | hv
    · simp only [List.mem_append, List.mem_singleton] at hv
      rcases hv with (hv | hv) | hv
      · cases hv
      all_goals split_ifs at hv <;> simp at hv
    · exact absurd hv (log_not_push hl)
  | finishPost | finishAll =>
    obtain ⟨lc, hl, rfl⟩ := Except.map_eq_ok h
    rcases List.mem_append.1 hv with hv | hv
    · simp [finishOff] at hv
    · exact absurd hv (log_not_push hl)
  | removePosts =>
    obtain ⟨lcs, hl, rfl⟩ := Except.map_eq_ok h
    obtain ⟨_, _, _, _, hl', hm⟩ := mapM_log_mem hl _ hv
    exact absurd hm (log_not_push hl')
  | removeFinish => cases h; simp [finishOff] at hv
  | bump | removeFromThread | hide => cases h; simp at hv

/-- A step that inserts no post `num` adds no copy of `num` to a reply list. -/
theorem HistoryStep.run_count_posts_le (c : Common) {st : HistoryStep} {num : Int}
    (h : st.viewKey ≠ some (.post num)) (op : Int) (s : Store) :
    ((st.run c s).lists (.posts op)).count (showInt num) ≤
      (s.lists (.posts op)).count (showInt num) := by
  unfold HistoryStep.run
  split
  · next cmds hc =>
    refine Store.exec_keeps (P := fun s' => (s'.lists (.posts op)).count (showInt num) ≤
        (s.lists (.posts op)).count (showInt num))
      (fun c' hc' s' hs' => ((commands_sent hc c' hc').count_posts_le (fun he => ?_) s').trans hs')
      le_rfl
    obtain ⟨n, hn, hk⟩ := push_mem hc (he ▸ hc')
    exact h (showInt_injective hn ▸ hk)
  · exact le_rfl

/-! ## The calls -/

/-- Where one `remove_post(num)` call stands. -/
inductive RemovePhase where
  /-- not called yet -/
  | idle
  /-- `LREM thread:op:posts -1 num` sent -/
  | unlisting (op : Int)
  /-- the `LREM` took one copy out; `HSET post:num hide 1` sent -/
  | hiding (op : Int)
  /-- called back -/
  | done (r : Removal)
  deriving DecidableEq, Repr

/-- One `remove_post(num)` call. -/
structure RemoveCall where
  num : Int
  phase : RemovePhase
  deriving DecidableEq, Repr

/-- The server, the `OPs` cache of the process, and its `remove_post` calls. -/
structure Removes where
  store : Store
  ops : Ops
  calls : List RemoveCall

/-- What happens next, in any order. -/
inductive RemoveEvent where
  /-- call `i` runs: its look-up in `OPs`, and the `LREM` it sends -/
  | call (i : Nat)
  /-- the server runs call `i`'s `LREM`, and `gone_from_thread` gets the reply -/
  | unlist (i : Nat)
  /-- the server runs call `i`'s `HSET`, successfully or not (`ok`), and its callback runs -/
  | hide (i : Nat) (ok : Bool)
  /-- `on_OP_message` gets a message of channel `chan` -/
  | message (chan msg : Str)
  /-- a step of another call, of this process or another -/
  | other (st : HistoryStep)

/-- `remove_post(num)` up to its `LREM`: the error it calls back with, or the thread whose reply
list it asks to drop `num` from. `!op` holds of an unset entry and of `0`. -/
def removePostStart (ops : Ops) (num : Int) : RemovePhase :=
  match ops (.num num) with
  | some op =>
    if op = 0 then .done (.failed "No such post.".toList)
    else if op = num then .done (.failed "Thread deletion not supported yet.".toList)
    else .unlisting op
  | none => .done (.failed "No such post.".toList)

/-- One event. One that does not apply (no call `i`, or not in the phase it needs) changes
nothing. -/
def Removes.step (c : Common) (r : Removes) : RemoveEvent → Removes
  | .call i =>
    match r.calls[i]? with
    | some ⟨num, .idle⟩ => { r with calls := r.calls.set i ⟨num, removePostStart r.ops num⟩ }
    | _ => r
  | .unlist i =>
    match r.calls[i]? with
    | some ⟨num, .unlisting op⟩ =>
      let (s, deleted) := r.store.exec1 (.lrem (.posts op) (-1) (showInt num))
      { r with
        store := s
        calls := r.calls.set i
          ⟨num, if deleted = .int 1 then .hiding op else .done (.gone num)⟩ }
    | _ => r
  | .hide i ok =>
    match r.calls[i]? with
    | some ⟨num, .hiding op⟩ =>
      -- "Difficult to recover. Whatever.": a failed `HSET` is logged, and the callback goes on
      { store := if ok then (r.store.exec1 (.hset (.post (.post num)) "hide".toList "1".toList)).1
          else r.store
        ops := Function.update r.ops (.num num) none
        calls := r.calls.set i ⟨num, .done (.removed op num)⟩ }
    | _ => r
  | .message chan msg => { r with ops := (onOPMessage c.insertPost r.ops chan msg).getD r.ops }
  | .other st => { r with store := st.run c r.store }

/-- The events in the order they happen. -/
def Removes.run (c : Common) (r : Removes) (evs : List RemoveEvent) : Removes :=
  evs.foldl (Removes.step c) r

/-- `remove_post` called on each of `nums`, none of the calls run yet. -/
def Removes.start (s : Store) (ops : Ops) (nums : List Int) : Removes :=
  ⟨s, ops, nums.map (⟨·, .idle⟩)⟩

/-! ## No post is reported removed twice -/

theorem countP_set_add {α : Type} {l : List α} {i : Nat} {a : α} (h : l[i]? = some a) (b : α)
    (p : α → Bool) :
    (l.set i b).countP p + (if p a then 1 else 0) = l.countP p + (if p b then 1 else 0) := by
  obtain ⟨hi, rfl⟩ := List.getElem?_eq_some_iff.1 h
  have := List.boole_getElem_le_countP p l i hi
  rw [List.countP_set p l i b hi]
  omega

/-- A call for `num` that took a copy out of `thread:op:posts`: its `HSET` is on the way, or it
called back `[op, num]`. -/
def RemoveCall.took (op num : Int) (call : RemoveCall) : Bool :=
  call.num = num && (call.phase = .hiding op || call.phase = .done (.removed op num))

/-- The copies of `num` in `thread:op:posts`, and the calls for `num` that took one out. -/
def Removes.tokens (op num : Int) (r : Removes) : Nat :=
  r.calls.countP (RemoveCall.took op num) + (r.store.lists (.posts op)).count (showInt num)

theorem removePostStart_took (ops : Ops) (op num n : Int) :
    RemoveCall.took op num ⟨n, removePostStart ops n⟩ = false := by
  unfold removePostStart
  split <;> (try split_ifs) <;> simp [RemoveCall.took]

theorem Store.exec1_lrem_reply (s : Store) (k : ListKey) (n : Int) (v : Str) :
    s.exec1 (.lrem k n v) =
      ({ s with lists := Function.update s.lists k (lrem (s.lists k) n v).1 },
        .int (lrem (s.lists k) n v).2) := rfl

section Tokens

variable (c : Common) (r : Removes) {op num : Int}

/-- A call's look-up takes nothing out. -/
theorem Removes.tokens_call (i : Nat) : (r.step c (.call i)).tokens op num = r.tokens op num := by
  simp only [Removes.step]
  split
  · next n hi =>
    have h := countP_set_add hi ⟨n, removePostStart r.ops n⟩ (RemoveCall.took op num)
    rw [removePostStart_took, show RemoveCall.took op num ⟨n, .idle⟩ = false by
      simp [RemoveCall.took]] at h
    simp only [Removes.tokens]
    simpa using h
  · rfl

/-- A call's `LREM` takes its copies out of `thread:o:posts` and no other. -/
theorem lrem_count_posts (lists : ListKey → List Str) (o n op num : Int) :
    (Function.update lists (.posts o) (lrem (lists (.posts o)) (-1) (showInt n)).1
        (.posts op)).count (showInt num) +
      (if o = op ∧ n = num then (lrem (lists (.posts o)) (-1) (showInt n)).2 else 0) =
      (lists (.posts op)).count (showInt num) := by
  by_cases hk : o = op ∧ n = num
  · obtain ⟨rfl, rfl⟩ := hk
    rw [Function.update_same, if_pos ⟨rfl, rfl⟩, lrem_count]
  · rw [if_neg hk, Nat.add_zero, Function.update_apply]
    split_ifs with ho
    · cases ho
      exact lrem_count_ne _ _ fun he => hk ⟨rfl, (showInt_injective he).symm⟩
    · rfl

/-- After its `LREM` a call has taken at most what the reply counts, and only for its own
post and thread. -/
theorem took_unlisted (o n op num : Int) (k : Nat) :
    (if RemoveCall.took op num ⟨n, if (k : Int) = 1 then .hiding o else .done (.gone n)⟩ then 1
      else 0) ≤ if o = op ∧ n = num then k else 0 := by
  by_cases hk : o = op ∧ n = num
  · obtain ⟨rfl, rfl⟩ := hk
    split_ifs <;> simp_all [RemoveCall.took]
  · have : RemoveCall.took op num
        ⟨n, if (k : Int) = 1 then .hiding o else .done (.gone n)⟩ = false := by
      by_cases hn : n = num
      · have ho : o ≠ op := fun ho => hk ⟨ho, hn⟩
        split_ifs <;> simp [RemoveCall.took, ho]
      · simp [RemoveCall.took, hn]
    rw [this]
    exact Nat.zero_le _

/-- A call's `LREM` moves what it takes out of the list to the call, and only on a reply of 1. -/
theorem Removes.tokens_unlist (i : Nat) :
    (r.step c (.unlist i)).tokens op num ≤ r.tokens op num := by
  simp only [Removes.step]
  split
  · next n o hi =>
    have h := countP_set_add hi ⟨n, if ((lrem (r.store.lists (.posts o)) (-1) (showInt n)).2 : Int)
      = 1 then .hiding o else .done (.gone n)⟩ (RemoveCall.took op num)
    rw [show RemoveCall.took op num ⟨n, .unlisting o⟩ = false by simp [RemoveCall.took]] at h
    have hl := lrem_count_posts r.store.lists o n op num
    have ht := took_unlisted o n op num (lrem (r.store.lists (.posts o)) (-1) (showInt n)).2
    simp only [Store.exec1_lrem_reply, Reply.int.injEq, Removes.tokens]
    simp only [Bool.false_eq_true, if_false, Nat.add_zero] at h
    omega
  · exact le_rfl

/-- A call's `HSET` and callback keep what it took. -/
theorem Removes.tokens_hide (i : Nat) (ok : Bool) :
    (r.step c (.hide i ok)).tokens op num = r.tokens op num := by
  simp only [Removes.step]
  split
  · next n o hi =>
    have h := countP_set_add hi ⟨n, .done (.removed o n)⟩ (RemoveCall.took op num)
    have he : RemoveCall.took op num ⟨n, .done (.removed o n)⟩ =
        RemoveCall.took op num ⟨n, .hiding o⟩ := by
      by_cases hn : n = num <;> simp [RemoveCall.took, hn]
    rw [he] at h
    simp only [Removes.tokens]
    cases ok <;> exact congrArg (· + _) (by omega)
  · rfl

/-- Another client's step adds no copy, unless it inserts post `num`. -/
theorem Removes.tokens_other {st : HistoryStep} (h : st.viewKey ≠ some (.post num)) :
    (r.step c (.other st)).tokens op num ≤ r.tokens op num :=
  Nat.add_le_add_left (st.run_count_posts_le c h op r.store) _

theorem Removes.tokens_step {e : RemoveEvent}
    (he : ∀ st, e = .other st → st.viewKey ≠ some (.post num)) :
    (r.step c e).tokens op num ≤ r.tokens op num := by
  cases e with
  | call i => exact (r.tokens_call c i).le
  | unlist i => exact r.tokens_unlist c i
  | hide i ok => exact (r.tokens_hide c i ok).le
  | message => exact le_rfl
  | other st => exact r.tokens_other c (he st rfl)

end Tokens

/-- **The copies never grow over a run** in which no other step inserts post `num`. -/
theorem Removes.tokens_run (c : Common) {op num : Int} :
    ∀ (r : Removes) (evs : List RemoveEvent),
      (∀ st, .other st ∈ evs → st.viewKey ≠ some (.post num)) →
      (r.run c evs).tokens op num ≤ r.tokens op num
  | _, [], _ => le_rfl
  | r, _ :: evs, h =>
    (Removes.tokens_run c _ evs fun st hs => h st (.tail _ hs)).trans
      (r.tokens_step c fun st he => h st (he ▸ .head _))

/-- **No post is reported removed twice.** Whatever `remove_post` calls run, on whatever numbers
and in whatever interleaving with each other, with `on_OP_message` and with the steps of other
clients that insert no post `num`, the calls that call back `[op, num]` are at most as many as
the copies of `num` in `thread:op:posts` at the start: one, for a post listed once. The `OPs`
check does not give this, since the cache is cleared only after the `HSET`; the `LREM`s do. -/
theorem removes_once (c : Common) (s : Store) (ops : Ops) (nums : List Int) {op num : Int}
    {evs : List RemoveEvent} (hevs : ∀ st, .other st ∈ evs → st.viewKey ≠ some (.post num)) :
    ((Removes.start s ops nums).run c evs).calls.countP
        (· = ⟨num, .done (.removed op num)⟩) ≤ (s.lists (.posts op)).count (showInt num) := by
  have hstart : (Removes.start s ops nums).calls.countP (RemoveCall.took op num) = 0 :=
    List.countP_eq_zero.2 fun call hc => by
      obtain ⟨n, -, rfl⟩ := List.mem_map.1 hc
      simp [RemoveCall.took]
  calc _ ≤ ((Removes.start s ops nums).run c evs).calls.countP (RemoveCall.took op num) :=
        List.countP_mono_left fun call _ hc => by
          rw [of_decide_eq_true hc]
          simp [RemoveCall.took]
    _ ≤ ((Removes.start s ops nums).run c evs).tokens op num := Nat.le_add_right _ _
    _ ≤ (Removes.start s ops nums).tokens op num := Removes.tokens_run c _ evs hevs
    _ = (s.lists (.posts op)).count (showInt num) := by
      rw [Removes.tokens, hstart, Nat.zero_add]
      rfl

/-- `OPs` knowing reply 2 of thread 1, as after `sampleThreadSteps`. -/
def sampleOps : Ops := Function.update (fun _ => none) (.num 2) (some 1)

/-- Two calls for reply 2 (a number given twice to `remove_posts`): both pass the `OPs` check,
one `LREM` takes the copy out, the other finds it gone. -/
theorem removes_once_sample :
    (∀ st, RemoveEvent.other st ∈ [.call 0, .call 1, .unlist 0, .unlist 1, .hide 0 true, .hide 1 true] →
      st.viewKey ≠ some (.post 2)) ∧
    ((Removes.start (runSteps Common.sample Store.empty sampleThreadSteps) sampleOps [2, 2]).run
        Common.sample [.call 0, .call 1, .unlist 0, .unlist 1, .hide 0 true, .hide 1 true]).calls.countP
        (· = ⟨2, .done (.removed 1 2)⟩) ≤
      ((runSteps Common.sample Store.empty sampleThreadSteps).lists (.posts 1)).count (showInt 2) ∧
    ((Removes.start (runSteps Common.sample Store.empty sampleThreadSteps) sampleOps [2, 2]).run
        Common.sample [.call 0, .call 1, .unlist 0, .unlist 1, .hide 0 true, .hide 1 true]).calls =
      [⟨2, .done (.removed 1 2)⟩, ⟨2, .done (.gone 2)⟩] :=
  ⟨by simp, removes_once Common.sample _ sampleOps [2, 2] (by simp), by decide⟩

/-! ## A removed post stays out of the listings -/

/-- `_get_each_reply` skips a hidden post: listing its number or not is the same. -/
theorem eachReply_hidden {s : Store} {num : Int}
    (h : s.hashes (.post (.post num)) "hide".toList = some "1".toList) :
    ∀ nums : List Str,
      eachReply s nums = eachReply s (nums.filter fun t => redisInt? t ≠ some num)
  | [] => rfl
  | t :: ts => by
    by_cases ht : redisInt? t = some num
    · rw [List.filter_cons_of_neg (by simpa using ht), ← eachReply_hidden h ts]
      simp only [eachReply, ht, h, jsTruthy]
      simp
    · rw [List.filter_cons_of_pos (by simpa using ht)]
      simp only [eachReply]
      rw [← eachReply_hidden h ts]

/-- Every call that called back `[op, n]` left `hide` set on `post:n`. -/
def Removes.HiddenInv (r : Removes) : Prop :=
  ∀ call ∈ r.calls, ∀ op n, call.phase = .done (.removed op n) →
    r.store.hashes (.post (.post n)) "hide".toList = some "1".toList

theorem removePostStart_ne_removed (ops : Ops) (n op m : Int) :
    removePostStart ops n ≠ .done (.removed op m) := by
  unfold removePostStart
  split <;> (try split_ifs) <;> simp

/-- A call set to a phase that is no `[op, n]` keeps the invariant, on a store that keeps
every `hide`. -/
theorem Removes.HiddenInv.set {r : Removes} (h : r.HiddenInv) {s : Store}
    (hs : ∀ n, r.store.hashes (.post (.post n)) "hide".toList = some "1".toList →
      s.hashes (.post (.post n)) "hide".toList = some "1".toList)
    (i : Nat) (call : RemoveCall) (hc : ∀ op n, call.phase ≠ .done (.removed op n)) :
    Removes.HiddenInv ⟨s, r.ops, r.calls.set i call⟩ := by
  intro call' hmem op n hp
  rcases List.mem_or_eq_of_mem_set hmem with hmem | rfl
  · exact hs n (h call' hmem op n hp)
  · exact absurd hp (hc op n)

theorem Removes.HiddenInv.step (c : Common) {r : Removes} (h : r.HiddenInv) {e : RemoveEvent}
    (he : ∀ i, e ≠ .hide i false) : (r.step c e).HiddenInv := by
  cases e with
  | call i =>
    simp only [Removes.step]
    split
    · exact h.set (fun _ => id) i _ fun op n => removePostStart_ne_removed _ _ _ _
    · exact h
  | unlist i =>
    simp only [Removes.step]
    split
    · simp only [Store.exec1_lrem_reply]
      exact h.set (fun _ => id) i _ fun op n => by split_ifs <;> simp
    · exact h
  | hide i ok =>
    obtain rfl : ok = true := by simpa using he i
    simp only [Removes.step]
    split
    · next n o hi =>
      intro call' hmem op m hp
      rcases List.mem_or_eq_of_mem_set hmem with hmem | rfl
      · exact (Command.Sent.hide n).hide_keep (h call' hmem op m hp)
      · cases hp
        simp [Store.exec1]
    · exact h
  | message => exact h
  | other st =>
    intro call hmem op n hp
    exact HistoryStep.run_keeps (P := fun s => s.hashes (.post (.post n)) "hide".toList =
      some "1".toList) (fun _ hc _ => hc.hide_keep) c (h call hmem op n hp) st

theorem Removes.HiddenInv.run (c : Common) {r : Removes} (h : r.HiddenInv) :
    ∀ evs : List RemoveEvent, (∀ i, .hide i false ∉ evs) → (r.run c evs).HiddenInv
  | [], _ => h
  | _ :: evs, hok =>
    (h.step c fun i he => hok i (he ▸ List.mem_cons_self _ _)).run c evs
      fun i hi => hok i (List.mem_cons_of_mem _ hi)

/-- **A removed post is out of every listing.** After any run of `remove_post` calls
interleaved with anything else in which no `HSET` fails, a post a call reported removed,
`[op, num]`, has `hide` set, so `_get_each_reply` emits the same events whether `num` is among
the numbers it reads or not: the post is not listed, however many copies of its number the reply
lists still hold. -/
theorem removes_hidden (c : Common) (s : Store) (ops : Ops) (nums : List Int)
    (evs : List RemoveEvent) (hok : ∀ i, .hide i false ∉ evs) {op num : Int}
    (hcall : ⟨num, .done (.removed op num)⟩ ∈ ((Removes.start s ops nums).run c evs).calls)
    (replies : List Str) :
    eachReply ((Removes.start s ops nums).run c evs).store replies =
      eachReply ((Removes.start s ops nums).run c evs).store
        (replies.filter fun t => redisInt? t ≠ some num) := by
  have hstart : (Removes.start s ops nums).HiddenInv := fun call hc op n hp => by
    obtain ⟨m, -, rfl⟩ := List.mem_map.1 hc
    cases hp
  exact eachReply_hidden (hstart.run c evs hok _ hcall op num rfl) replies

theorem removes_hidden_sample :
    (∀ i, RemoveEvent.hide i false ∉ [.call 0, .unlist 0, .hide 0 true]) ∧
    ⟨2, .done (.removed 1 2)⟩ ∈ ((Removes.start (runSteps Common.sample Store.empty
        sampleThreadSteps) sampleOps [2]).run Common.sample
          [.call 0, .unlist 0, .hide 0 true]).calls ∧
    eachReply ((Removes.start (runSteps Common.sample Store.empty sampleThreadSteps) sampleOps
        [2]).run Common.sample [.call 0, .unlist 0, .hide 0 true]).store
          ["2".toList, "3".toList] =
      eachReply ((Removes.start (runSteps Common.sample Store.empty sampleThreadSteps) sampleOps
        [2]).run Common.sample [.call 0, .unlist 0, .hide 0 true]).store
        (["2".toList, "3".toList].filter fun t => redisInt? t ≠ some 2) :=
  ⟨by simp, by decide,
    @removes_hidden Common.sample _ sampleOps [2] _ (by simp) 1 2 (by decide) _⟩

/-- The `HSET` of reply 2 fails: the call reports it removed, and `_get_each_reply` still lists
it. -/
example : ((Removes.start (runSteps Common.sample Store.empty sampleThreadSteps) sampleOps
      [2]).run Common.sample [.call 0, .unlist 0, .hide 0 false]).calls =
      [⟨2, .done (.removed 1 2)⟩] ∧
    (eachReply ((Removes.start (runSteps Common.sample Store.empty sampleThreadSteps) sampleOps
      [2]).run Common.sample [.call 0, .unlist 0, .hide 0 false]).store ["2".toList]).length =
      3 := by
  decide

end Shamichan.Db

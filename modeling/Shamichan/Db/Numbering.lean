import Shamichan.Db.Blocks

/-!
# Shamichan — post numbers and the thread throttle

Two string keys outlive the calls that write them. `reserve_post(op)` takes the number of a new
post with `INCR postctr`, and no block of the other calls writes `postctr`: so whatever runs in
between, the numbers handed out are the counter's next values, in the order the `INCR`s reach
the server, and no number is handed out twice. `OPs` enters each number under its thread, and
only `delete OPs[...]` (by `remove_post`, or by `insert_post` when its thread is unknown or its
`EXEC` failed) and `on_OP_message` change an entry afterwards.

`insert_post` sets `ip:` for the address that opened a thread and gives the key a time to live
of `THREAD_THROTTLE` seconds in the same block; no block deletes an `ip:` key, and only a new
thread from the address sets it. So `check_throttle` refuses that address from then on until
the key expires, and answers `null` after that until the address opens a thread again.

* `Command.strWrite`, `Store.exec1_strings`, `Store.exec1_strings_isSome`: a command leaves
  every string key it does not name, and only `DEL` and `EXPIRE` of 0 seconds remove one;
* `Command.Sent.strWrite_ne_postctr`, `Command.Sent.ne_del_ip`, `HistoryStep.ip_mem`: what the
  blocks of `db.js` never do, and which block writes an `ip:` key;
* `CallStep`, `Numbering.run`: any interleaving of `reserve_post` calls with the other calls'
  steps, the writes of `OPs` and the expiry of `ip:` keys;
* `reservePost_numbers`: from a counter reading `m`, the `k`-th number handed out is `m + k`,
  and `OPs` holds it under its thread while no step deletes or rewrites that entry;
* `insertPost_throttles`: after a new thread, `check_throttle` answers `'Too soon.'` until the
  key expires, and `null` after it until the next new thread from the address.
-/

namespace Shamichan.Db

open Js

/-! ## What the blocks do to string keys -/

/-- The string key a command writes, if any. -/
def Command.strWrite : Command → Option StrKey
  | .incr k | .set k _ | .append k _ | .del k | .expire k _ => some k
  | _ => none

theorem Store.exec1_strings {c : Command} {k : StrKey} (h : c.strWrite ≠ some k) (s : Store) :
    (s.exec1 c).1.strings k = s.strings k := by
  cases c with
  | incr k' =>
    have hk : k ≠ k' := fun e => h (by rw [e]; rfl)
    simp only [Store.exec1]; split <;> simp [Function.update_noteq hk]
  | set k' v | append k' v | del k' =>
    have hk : k ≠ k' := fun e => h (by rw [e]; rfl)
    simp [Store.exec1, Function.update_noteq hk]
  | expire k' n =>
    have hk : k ≠ k' := fun e => h (by rw [e]; rfl)
    simp only [Store.exec1]; split_ifs <;> simp [Function.update_noteq hk]
  | hincrby k' f n => simp only [Store.exec1]; split <;> rfl
  | _ => rfl

/-- Only `DEL` and `EXPIRE` of 0 seconds remove a string key: `INCR` of a value that is no
integer leaves it. -/
theorem Store.exec1_strings_isSome {c : Command} {k : StrKey} (h : c ≠ .del k)
    (h' : c ≠ .expire k 0) {s : Store} (hs : (s.strings k).isSome) :
    ((s.exec1 c).1.strings k).isSome := by
  by_cases hw : c.strWrite = some k
  · cases c <;> simp only [Command.strWrite, Option.some.injEq, reduceCtorEq] at hw <;> subst hw
    · simp only [Store.exec1]; split <;> simp [hs]
    · simp [Store.exec1]
    · simp [Store.exec1]
    · exact absurd rfl h
    · next n =>
      have hn : n ≠ 0 := fun e => h' (e ▸ rfl)
      simpa [Store.exec1, hn] using hs
  · rwa [Store.exec1_strings hw]

/-- A block that `SET`s a key and never removes it leaves the key set. -/
theorem Store.exec_set_isSome {cs : List Command} {k : StrKey} {v : Str} (hv : .set k v ∈ cs)
    (h : ∀ c ∈ cs, c ≠ .del k ∧ c ≠ .expire k 0) (s : Store) :
    ((s.exec cs).1.strings k).isSome :=
  Store.exec_sets (P := fun s' => (s'.strings k).isSome)
    (fun c hc _ => Store.exec1_strings_isSome (h c hc).1 (h c hc).2) hv
    (fun _ => by simp [Store.exec1]) s

/-! ## What the other calls do to string keys -/

/-- No block of the other calls writes `postctr`: only `reserve_post` does. -/
theorem Command.Sent.strWrite_ne_postctr {c : Command} (h : c.Sent) :
    c.strWrite ≠ some .postctr := by
  cases h <;> simp [Command.strWrite]

/-- No block deletes an `ip:` key: the only `DEL` is `finish_off`'s, of a `:body`. -/
theorem Command.Sent.ne_del_ip {c : Command} (h : c.Sent) (a : Str) : c ≠ .del (.ip a) := by
  cases h <;> simp

theorem log_strWrite {op kind : Int} {msg : List Json} {lc : List Command}
    (h : log op kind msg = .ok lc) : ∀ cmd ∈ lc, cmd.strWrite = none := by
  unfold log at h
  split_ifs at h
  cases h
  simp only [List.mem_cons, List.mem_singleton, List.not_mem_nil, or_false]
  rintro cmd (rfl | rfl | rfl) <;> rfl

theorem finishOff_strWrite (key : PostKey) (body a : Str) :
    ∀ cmd ∈ finishOff key body, cmd.strWrite ≠ some (.ip a) := by
  simp [finishOff, Command.strWrite]

/-- **Only a new thread writes an `ip:` key**: `insert_post` of a thread from that address,
with its `SET` of the thread's number and its `EXPIRE` of `THREAD_THROTTLE` seconds. -/
theorem HistoryStep.ip_mem {c : Common} {st : HistoryStep} {cmds : List Command}
    (h : st.commands c = .ok cmds) {cmd : Command} (hc : cmd ∈ cmds) {a : Str}
    (hw : cmd.strWrite = some (.ip a)) :
    ∃ tag msg body, st = .insertPost tag msg body a ∧ msg.op = 0 ∧
      (cmd = .set (.ip a) (showInt msg.num) ∨ cmd = .expire (.ip a) c.threadThrottle) := by
  -- `_log` and `finish_off` write no `ip:` key
  have hlog : ∀ {op kind msg lc}, log op kind msg = .ok lc → cmd ∉ lc := fun hl hm => by
    rw [log_strWrite hl cmd hm] at hw; cases hw
  have hfin : ∀ key body, cmd ∉ finishOff key body := fun key body hm =>
    finishOff_strWrite key body a cmd hm hw
  cases st with
  | insertPost tag msg body ip =>
    obtain ⟨lc, hl, rfl⟩ := Except.map_eq_ok h
    rcases List.mem_append.1 hc with hc | hc
    · simp only [List.mem_append, List.mem_cons, List.mem_singleton, List.not_mem_nil,
        or_false] at hc
      rcases hc with ((((hc | hc) | hc | hc) | hc) | hc)
      · split_ifs at hc <;> simp only [List.mem_singleton, List.not_mem_nil] at hc
        subst hc; cases hw
      · split at hc
        · split_ifs at hc <;>
            simp only [List.mem_append, List.mem_singleton, List.not_mem_nil, false_or] at hc <;>
            rcases hc with rfl | rfl <;> cases hw
        · cases hc
      · subst hc; cases hw
      · subst hc; simp [Command.strWrite] at hw
      · split at hc <;> simp only [List.mem_singleton, List.not_mem_nil] at hc
        subst hc; cases hw
      · -- the reply's `RPUSH`, or the throttle of a new thread
        split_ifs at hc with hop hip
        · simp only [List.mem_singleton] at hc; subst hc; cases hw
        · simp only [List.mem_cons, List.mem_singleton, List.not_mem_nil, or_false] at hc
          rcases hc with rfl | rfl <;> simp only [Command.strWrite, Option.some.injEq,
            StrKey.ip.injEq] at hw <;> subst hw
          exacts [⟨tag, msg, body, rfl, not_not.1 hop, .inl rfl⟩,
            ⟨tag, msg, body, rfl, not_not.1 hop, .inr rfl⟩]
        · cases hc
    · exact absurd hc (hlog hl)
  | addImage num op img =>
    obtain ⟨lc, hl, rfl⟩ := Except.map_eq_ok h
    rcases List.mem_append.1 hc with hc | hc
    · exact absurd hc (hlog hl)
    · simp only [List.mem_cons, List.mem_singleton, List.not_mem_nil, or_false] at hc
      rcases hc with rfl | rfl | rfl <;> cases hw
  | appendPost =>
    obtain ⟨lc, hl, rfl⟩ := Except.map_eq_ok h
    rcases List.mem_append.1 hc with hc | hc
    · simp only [List.mem_append, List.mem_singleton] at hc
      rcases hc with (rfl | hc) | hc
      · simp [Command.strWrite] at hw
      all_goals split_ifs at hc <;> simp only [List.mem_singleton, List.not_mem_nil] at hc
      all_goals subst hc; cases hw
    · exact absurd hc (hlog hl)
  | finishPost | finishAll =>
    obtain ⟨lc, hl, rfl⟩ := Except.map_eq_ok h
    rcases List.mem_append.1 hc with hc | hc
    exacts [absurd hc (hfin _ _), absurd hc (hlog hl)]
  | removePosts =>
    obtain ⟨lcs, hl, rfl⟩ := Except.map_eq_ok h
    obtain ⟨_, _, _, _, hl', hm⟩ := mapM_log_mem hl _ hc
    exact absurd hm (hlog hl')
  | removeFinish => cases h; exact absurd hc (hfin _ _)
  | bump | removeFromThread | hide => cases h; simp only [List.mem_singleton] at hc; subst hc; cases hw

theorem HistoryStep.run_postctr (c : Common) (s : Store) (st : HistoryStep) :
    (st.run c s).strings .postctr = s.strings .postctr :=
  HistoryStep.run_keeps (P := fun s' => s'.strings .postctr = s.strings .postctr)
    (fun _ hc _ hs => (Store.exec1_strings hc.strWrite_ne_postctr _).trans hs) c rfl st

/-- With a throttle of some seconds, no step removes an `ip:` key. -/
theorem HistoryStep.run_ip_isSome (c : Common) (ht : 0 < c.threadThrottle) {s : Store} {a : Str}
    (hs : (s.strings (.ip a)).isSome) (st : HistoryStep) :
    ((st.run c s).strings (.ip a)).isSome := by
  unfold HistoryStep.run
  split
  · next cmds hc =>
    refine Store.exec_keeps (P := fun s' => (s'.strings (.ip a)).isSome)
      (fun cmd hm _ hs' => Store.exec1_strings_isSome ((commands_sent hc cmd hm).ne_del_ip a)
        ?_ hs') hs
    -- the one `EXPIRE` of an `ip:` key is of `THREAD_THROTTLE` seconds
    rintro rfl
    obtain ⟨_, msg, _, -, -, he | he⟩ := ip_mem (a := a) hc hm rfl
    · cases he
    · simp only [Command.expire.injEq, true_and] at he; omega
  · exact hs

/-- A step that opens no thread from the address leaves its `ip:` key. -/
theorem HistoryStep.run_ip_of_not_opens (c : Common) {st : HistoryStep} {a : Str}
    (hst : ¬∃ tag msg body, st = .insertPost tag msg body a ∧ msg.op = 0) (s : Store) :
    (st.run c s).strings (.ip a) = s.strings (.ip a) := by
  unfold HistoryStep.run
  split
  · next cmds hc =>
    refine Store.exec_keeps (P := fun s' => s'.strings (.ip a) = s.strings (.ip a))
      (fun cmd hm _ hs' => (Store.exec1_strings (fun hw => hst ?_) _).trans hs') rfl
    obtain ⟨tag, msg, body, h1, h2, -⟩ := ip_mem hc hm hw
    exact ⟨tag, msg, body, h1, h2⟩
  · rfl

/-! ## The numbers `reserve_post` hands out -/

/-- A step on the store and on `OPs`: `reserve_post(op)`'s `INCR postctr`, a step of another
call, a `delete OPs[key]`, a message `on_OP_message` handles, or the end of the time to live of
the `ip:` key of an address. -/
inductive CallStep where
  | reserve (op : Int)
  | other (st : HistoryStep)
  /-- `delete OPs[key]`: `remove_post` after its `HSET`, or `insert_post` when its thread is
  unknown or its `EXEC` failed -/
  | forget (key : OpKey)
  /-- `on_OP_message(pat, chan, msg)` -/
  | opMessage (chan msg : Str)
  /-- Redis deletes `ip:` of the address: its time to live, which every `ip:` key has from the
  block that sets it on, has run out -/
  | expire (a : Str)

/-- The thread a step reserves a number in, if it is a `reserve_post`. -/
def CallStep.reserved : CallStep → Option Int
  | .reserve op => some op
  | _ => none

theorem CallStep.eq_reserve_of_reserved {x : CallStep} {op : Int} (h : x.reserved = some op) :
    x = .reserve op := by
  cases x <;> cases h
  rfl

/-- The store, the `OPs` cache, and the numbers `reserve_post` handed out so far, oldest first
(`none` for an `INCR` that failed). -/
structure Numbering where
  store : Store
  ops : Ops
  handed : List (Option Int)

/-- One step: `reserve_post` records the number it got, another call's step runs its block. -/
def Numbering.step (c : Common) (n : Numbering) : CallStep → Numbering
  | .reserve op =>
    let r := reservePost n.store n.ops op
    ⟨r.1, r.2.1, n.handed ++ [r.2.2]⟩
  | .other st => { n with store := st.run c n.store }
  | .forget key => { n with ops := Function.update n.ops key none }
  | .opMessage chan msg => { n with ops := (onOPMessage c.insertPost n.ops chan msg).getD n.ops }
  | .expire a => { n with store := (n.store.exec1 (.del (.ip a))).1 }

/-- The steps in the order they reach the server. -/
def Numbering.run (c : Common) (n : Numbering) (steps : List CallStep) : Numbering :=
  steps.foldl (Numbering.step c) n

theorem Numbering.run_cons (c : Common) (n : Numbering) (x : CallStep)
    (steps : List CallStep) : n.run c (x :: steps) = (n.step c x).run c steps := rfl

theorem Numbering.run_append (c : Common) (n : Numbering) (xs ys : List CallStep) :
    n.run c (xs ++ ys) = (n.run c xs).run c ys := List.foldl_append _ _ _ _

/-- A step leaves the `OPs` entry of `j` unless it deletes it or `on_OP_message` writes it
(a `reserve_post` is counted apart). -/
def CallStep.KeepsOp (c : Common) (j : Int) : CallStep → Prop
  | .forget key => key ≠ .num j
  | .opMessage chan msg =>
    ∀ ops : Ops, (onOPMessage c.insertPost ops chan msg).getD ops (.num j) = ops (.num j)
  | _ => True

section Steps

variable {c : Common} {n : Numbering} {m : Int}

/-- `reserve_post` on a counter that reads `m`: the counter reads `m + 1`, `OPs` enters `m + 1`
under `op || num`, and `m + 1` is the number handed out. -/
theorem Numbering.step_reserve (hm : intValue (n.store.strings .postctr) = some m) (op : Int) :
    intValue ((n.step c (.reserve op)).store.strings .postctr) = some (m + 1) ∧
      (n.step c (.reserve op)).ops =
        Function.update n.ops (.num (m + 1)) (some (if op ≠ 0 then op else m + 1)) ∧
      (n.step c (.reserve op)).handed = n.handed ++ [some (m + 1)] := by
  simp only [Numbering.step, reservePost, Store.exec1, hm]
  simp [intValue, redisInt?_showInt]

/-- Any other step leaves the counter and the numbers handed out, and an `OPs` entry it keeps. -/
theorem Numbering.step_other {x : CallStep} (hx : x.reserved = none)
    (hm : intValue (n.store.strings .postctr) = some m) :
    intValue ((n.step c x).store.strings .postctr) = some m ∧
      (n.step c x).handed = n.handed ∧
      ∀ j, x.KeepsOp c j → (n.step c x).ops (.num j) = n.ops (.num j) := by
  cases x with
  | reserve => cases hx
  | other st => exact ⟨by rwa [Numbering.step, HistoryStep.run_postctr], rfl, fun _ _ => rfl⟩
  | forget key => exact ⟨hm, rfl, fun _ hk => Function.update_noteq hk.symm _ _⟩
  | opMessage chan msg => exact ⟨hm, rfl, fun _ hk => hk n.ops⟩
  | expire a =>
    refine ⟨?_, rfl, fun _ _ => rfl⟩
    rwa [Numbering.step, Store.exec1_strings (by simp [Command.strWrite])]

/-- From a counter that reads `m`, no step that keeps the `OPs` entry of a number up to `m`
changes it. -/
theorem Numbering.run_ops_of_le (hm : intValue (n.store.strings .postctr) = some m)
    (steps : List CallStep) {j : Int} (hj : j ≤ m) (hk : ∀ x ∈ steps, x.KeepsOp c j) :
    (n.run c steps).ops (.num j) = n.ops (.num j) := by
  induction steps generalizing n m with
  | nil => rfl
  | cons x steps ih =>
    have hk' := fun y hy => hk y (List.mem_cons_of_mem x hy)
    cases hx : x.reserved with
    | some op =>
      obtain rfl := CallStep.eq_reserve_of_reserved hx
      obtain ⟨hm', hops, -⟩ := Numbering.step_reserve (c := c) hm op
      rw [Numbering.run_cons, ih hm' (by omega) hk', hops,
        Function.update_noteq (by simp only [ne_eq, OpKey.num.injEq]; omega)]
    | none =>
      obtain ⟨hm', -, hops⟩ := Numbering.step_other (c := c) hx hm
      rw [Numbering.run_cons, ih hm' hj hk', hops j (hk x (List.mem_cons_self _ _))]

/-- The numbers handed out are the counter's next values, one per `reserve_post`. -/
theorem Numbering.run_handed (hm : intValue (n.store.strings .postctr) = some m)
    (steps : List CallStep) :
    (n.run c steps).handed = n.handed ++
      (List.range (steps.filterMap CallStep.reserved).length).map
        (fun i : Nat => some (m + 1 + (i : Int))) := by
  induction steps generalizing n m with
  | nil => simp [Numbering.run]
  | cons x steps ih =>
    cases hx : x.reserved with
    | some op =>
      obtain rfl := CallStep.eq_reserve_of_reserved hx
      obtain ⟨hm', -, hhanded⟩ := Numbering.step_reserve (c := c) hm op
      rw [Numbering.run_cons, ih hm', hhanded]
      simp only [List.filterMap_cons, CallStep.reserved, List.length_cons,
        List.range_succ_eq_map, List.map_cons, List.map_map, List.append_assoc,
        List.singleton_append, Function.comp_def, Nat.cast_zero, Nat.cast_succ, add_zero]
      congr 3
      funext i
      congr 1
      omega
    | none =>
      obtain ⟨hm', hh, -⟩ := Numbering.step_other (c := c) hx hm
      rw [Numbering.run_cons, ih hm', hh, List.filterMap_cons, hx]

/-- The `k`-th number handed out is entered in `OPs` under the thread of the `k`-th
`reserve_post`, and stays there while the steps keep its entry: a later `reserve_post` only
enters a larger number. -/
theorem Numbering.run_ops (hm : intValue (n.store.strings .postctr) = some m)
    (steps : List CallStep) (i : Nat) (op : Int)
    (hi : (steps.filterMap CallStep.reserved)[i]? = some op)
    (hk : ∀ x ∈ steps, x.KeepsOp c (m + 1 + i)) :
    (n.run c steps).ops (.num (m + 1 + i)) = some (if op ≠ 0 then op else m + 1 + i) := by
  induction steps generalizing n m i with
  | nil => cases hi
  | cons x steps ih =>
    have hk' := fun y hy => hk y (List.mem_cons_of_mem x hy)
    cases hx : x.reserved with
    | some op' =>
      obtain rfl := CallStep.eq_reserve_of_reserved hx
      obtain ⟨hm', hops, -⟩ := Numbering.step_reserve (c := c) hm op'
      rw [Numbering.run_cons]
      simp only [List.filterMap_cons, CallStep.reserved] at hi
      cases i with
      | zero =>
        obtain rfl : op' = op := by simpa using hi
        rw [Numbering.run_ops_of_le hm' steps (by omega) (by simpa using hk'), hops,
          Nat.cast_zero, add_zero, Function.update_same]
      | succ i =>
        have he : m + 1 + ((i + 1 : Nat) : Int) = m + 1 + 1 + i := by push_cast; ring
        rw [he] at hk' ⊢
        exact ih hm' i (by simpa using hi) hk'
    | none =>
      obtain ⟨hm', -, -⟩ := Numbering.step_other (c := c) hx hm
      rw [List.filterMap_cons, hx] at hi
      exact ih hm' i hi hk'

end Steps

/-- **`reserve_post` numbers posts in order.** From a counter that reads `m` (an empty store
reads 0), after any interleaving of `reserve_post` calls with steps of the other calls of
`db.js`, writes of `OPs` and expiries of `ip:` keys: every `INCR` succeeds, the numbers handed
out are `m + 1, m + 2, …`, one per `reserve_post` in the order they reached the server, so no
number is handed out twice; and `OPs` holds each of them under the thread its call asked for,
or under itself for a new thread, unless a step deleted or rewrote that entry. -/
theorem reservePost_numbers (c : Common) :
    ∀ {n : Numbering} {m : Int}, intValue (n.store.strings .postctr) = some m →
      ∀ steps : List CallStep,
        (n.run c steps).handed = n.handed ++
          (List.range (steps.filterMap CallStep.reserved).length).map
            (fun i : Nat => some (m + 1 + (i : Int))) ∧
        ∀ (i : Nat) (op : Int), (steps.filterMap CallStep.reserved)[i]? = some op →
          (∀ x ∈ steps, x.KeepsOp c (m + 1 + i)) →
          (n.run c steps).ops (.num (m + 1 + i)) = some (if op ≠ 0 then op else m + 1 + i) :=
  fun hm steps => ⟨Numbering.run_handed hm steps, Numbering.run_ops hm steps⟩

theorem reservePost_numbers_sample :
    intValue (Store.empty.strings .postctr) = some 0 ∧
      ((Numbering.mk Store.empty (fun _ => none) []).run Common.sample
          [.reserve 0, .other (.finishPost 1 1 "hi".toList), .reserve 1]).handed =
        [] ++ (List.range ([CallStep.reserve 0, .other (.finishPost 1 1 "hi".toList),
            .reserve 1].filterMap CallStep.reserved).length).map
          (fun i : Nat => some (0 + 1 + (i : Int))) ∧
      ((Numbering.mk Store.empty (fun _ => none) []).run Common.sample
          [.reserve 0, .other (.finishPost 1 1 "hi".toList), .reserve 1]).handed =
        [some 1, some 2] :=
  ⟨rfl, (reservePost_numbers Common.sample (n := ⟨Store.empty, fun _ => none, []⟩) rfl _).1,
    by decide⟩

/-! ## The thread throttle -/

/-- `check_throttle(ip)`: `'Too soon.'` while the key `'ip:' + ip` exists. -/
def checkThrottle (s : Store) (ip : Str) : Option Str :=
  if (s.strings (.ip ip)).isSome then some "Too soon.".toList else none

theorem reservePost_store (s : Store) (ops : Ops) (op : Int) :
    (reservePost s ops op).1 = (s.exec1 (.incr .postctr)).1 := by
  unfold reservePost
  split <;> rename_i h <;> rw [h]

/-- Whether a step opens a thread from the address: the steps that set its `ip:` key. -/
def CallStep.OpensThread (a : Str) : CallStep → Prop
  | .other st => ∃ tag msg body, st = .insertPost tag msg body a ∧ msg.op = 0
  | _ => False

/-- Until its time to live runs out, no step removes an `ip:` key. -/
theorem Numbering.run_ip_isSome (c : Common) (ht : 0 < c.threadThrottle) {a : Str} :
    ∀ {n : Numbering}, (n.store.strings (.ip a)).isSome → ∀ steps : List CallStep,
      (∀ x ∈ steps, x ≠ .expire a) → ((n.run c steps).store.strings (.ip a)).isSome
  | _, hs, [], _ => hs
  | n, hs, x :: steps, hx => by
    refine run_ip_isSome c ht ?_ steps fun y hy => hx y (List.mem_cons_of_mem x hy)
    cases x with
    | reserve op =>
      show ((reservePost n.store n.ops op).1.strings (.ip a)).isSome
      rw [reservePost_store]
      exact Store.exec1_strings_isSome (c := .incr .postctr) (by simp) (by simp) hs
    | other st => exact HistoryStep.run_ip_isSome c ht hs st
    | forget | opMessage => exact hs
    | expire b =>
      have hb : b ≠ a := fun e => hx _ (List.mem_cons_self _ _) (e ▸ rfl)
      rwa [Numbering.step, Store.exec1_strings (by simpa [Command.strWrite] using hb)]

/-- A gone `ip:` key stays gone until a thread is opened from the address. -/
theorem Numbering.run_ip_none (c : Common) {a : Str} :
    ∀ {n : Numbering}, n.store.strings (.ip a) = none → ∀ steps : List CallStep,
      (∀ x ∈ steps, ¬x.OpensThread a) → (n.run c steps).store.strings (.ip a) = none
  | _, hs, [], _ => hs
  | n, hs, x :: steps, hx => by
    refine run_ip_none c ?_ steps fun y hy => hx y (List.mem_cons_of_mem x hy)
    have hx₀ := hx x (List.mem_cons_self _ _)
    cases x with
    | reserve op =>
      show (reservePost n.store n.ops op).1.strings (.ip a) = none
      rw [reservePost_store, Store.exec1_strings (by simp [Command.strWrite])]
      exact hs
    | other st => rw [Numbering.step, HistoryStep.run_ip_of_not_opens c hx₀]; exact hs
    | forget | opMessage => exact hs
    | expire b =>
      simp only [Numbering.step, Store.exec1, Function.update_apply]
      split_ifs
      exacts [rfl, hs]

/-- A new thread's block sets `ip:` for an address other than the local one. -/
theorem insertPost_ip_isSome (c : Common) (tag : Str) {msg : PostMsg} {body ip : Str}
    (hop : msg.op = 0) (hnum : msg.num ≠ 0) (hip : ip ≠ [] ∧ ip ≠ "127.0.0.1".toList)
    (ht : 0 < c.threadThrottle) (s : Store) :
    (((HistoryStep.insertPost tag msg body ip).run c s).strings (.ip ip)).isSome := by
  have hlog := @log_of_ne_zero msg.thread (by simpa [PostMsg.thread, hop] using hnum)
    c.insertPost [.num msg.num, .obj (msg.logView body ip)]
  unfold HistoryStep.run
  split
  · next cmds hc =>
    refine Store.exec_set_isSome (v := showInt msg.num) ?_ (fun cmd h =>
      ⟨(HistoryStep.commands_sent hc cmd h).ne_del_ip ip, fun he => ?_⟩) s
    · simp only [HistoryStep.commands, insertPostBatch, hlog] at hc
      cases hc
      generalize "127.0.0.1".toList = lo at hip ⊢
      simp [hop, hip]
    · subst he
      obtain ⟨_, msg', _, -, -, h' | h'⟩ := HistoryStep.ip_mem (a := ip) hc h rfl
      · cases h'
      · simp only [Command.expire.injEq, true_and] at h'; omega
  · next e hc => simp [HistoryStep.commands, insertPostBatch, hlog] at hc

/-- **A new thread throttles its address until the key expires.** Once the block of an
`insert_post` that opens a thread from an address other than the local one has run, with a
`THREAD_THROTTLE` of some seconds: `check_throttle` answers `'Too soon.'` for that address
whatever calls reach the server after it, as long as the key's time to live has not run out
(no block deletes an `ip:` key); and once it has, `check_throttle` answers `null` until a
thread is opened from the address again. -/
theorem insertPost_throttles (c : Common) (tag : Str) {msg : PostMsg} {body ip : Str}
    (hop : msg.op = 0) (hnum : msg.num ≠ 0) (hip : ip ≠ [] ∧ ip ≠ "127.0.0.1".toList)
    (ht : 0 < c.threadThrottle) (n : Numbering) (steps : List CallStep) :
    ((∀ x ∈ steps, x ≠ .expire ip) →
      checkThrottle (n.run c (.other (.insertPost tag msg body ip) :: steps)).store ip =
        some "Too soon.".toList) ∧
      ∀ later : List CallStep, (∀ x ∈ later, ¬x.OpensThread ip) →
        checkThrottle
            (n.run c (.other (.insertPost tag msg body ip) :: steps ++ .expire ip :: later)).store
            ip = none := by
  refine ⟨fun hx => if_pos (Numbering.run_ip_isSome c ht
    (insertPost_ip_isSome c tag hop hnum hip ht n.store) steps hx), fun later hl => ?_⟩
  rw [Numbering.run_append, Numbering.run_cons]
  have hgone : ((n.run c (.other (.insertPost tag msg body ip) :: steps)).step c
      (.expire ip)).store.strings (.ip ip) = none := by
    simp [Numbering.step, Store.exec1]
  simp only [checkThrottle, Numbering.run_ip_none c hgone later hl, Option.isSome_none,
    Bool.false_eq_true, if_false]

/-- A new thread, post 1, from `1.2.3.4`, then a `reserve_post`. -/
def throttleMsg : PostMsg := ⟨1, 0, 0, [], [], [], [], none, none⟩

theorem insertPost_throttles_sample :
    throttleMsg.op = 0 ∧ throttleMsg.num ≠ 0 ∧
      ("1.2.3.4".toList ≠ [] ∧ "1.2.3.4".toList ≠ "127.0.0.1".toList) ∧
      0 < Common.sample.threadThrottle ∧
      checkThrottle ((Numbering.mk Store.empty (fun _ => none) []).run Common.sample
          [.other (.insertPost "moe".toList throttleMsg [] "1.2.3.4".toList), .reserve 0]).store
          "1.2.3.4".toList = some "Too soon.".toList ∧
      checkThrottle ((Numbering.mk Store.empty (fun _ => none) []).run Common.sample
          ([.other (.insertPost "moe".toList throttleMsg [] "1.2.3.4".toList), .reserve 0] ++
            [.expire "1.2.3.4".toList])).store "1.2.3.4".toList = none :=
  ⟨rfl, by decide, by decide, by decide,
    (insertPost_throttles Common.sample "moe".toList rfl (by decide) (by decide) (by decide)
      ⟨Store.empty, fun _ => none, []⟩ [.reserve 0]).1 (by simp),
    (insertPost_throttles Common.sample "moe".toList rfl (by decide) (by decide) (by decide)
      ⟨Store.empty, fun _ => none, []⟩ [.reserve 0]).2 [] nofun⟩

end Shamichan.Db

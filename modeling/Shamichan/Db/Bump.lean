import Shamichan.Db.History

/-!
# Shamichan — bumping threads from concurrent `insert_post` calls

`insert_post` takes a new value of `tag:<tag>:bumpctr` with `INCR` inside its `MULTI` block,
and only when the block's reply comes back sends `ZADD tag:<tag>:threads results[0] op` as a
command of its own. Calls on different connections interleave (`InsertEvent`,
`Inserts.step`): a call's block, then any other call's block and `ZADD`, then its own `ZADD`.

* `insertsInv_run`: whatever the interleaving, the score of a thread is the counter that the
  bumping insert into that thread whose `ZADD` reached the store last obtained;
* `bump_lost_update`: two inserts into thread 1 whose `ZADD`s arrive in the other order leave
  it with the older, smaller counter.
-/

namespace Shamichan.Db

open Js

/-- One `insert_post` call: the tag of its Yakusoku and its arguments. -/
structure InsertCall where
  tag : Str
  msg : PostMsg
  body : Str
  ip : Str

/-- Where an `insert_post` call stands. -/
inductive InsertPhase where
  /-- its block has not run -/
  | queued
  /-- its block ran and got `score`; its `ZADD` is on the way -/
  | zadding (score : Int)
  | done
  deriving DecidableEq, Repr

/-- Concurrent `insert_post` calls on one store, with two records kept for the proofs: the
counter each call's block obtained, and the call whose `ZADD` last reached each member of each
`tag:threads`. -/
structure Inserts where
  store : Store
  phase : Nat → InsertPhase
  obtained : Nat → Option Int
  last : Str → Str → Option Nat

/-- What can happen next to one call. -/
inductive InsertEvent where
  /-- its block runs -/
  | exec (i : Nat)
  /-- its `EXEC` fails and nothing runs -/
  | execFail (i : Nat)
  /-- its `ZADD` runs -/
  | zadd (i : Nat)
  /-- its `ZADD` fails ("Bump error") -/
  | zaddFail (i : Nat)

/-- No call has started, on an empty store. -/
def Inserts.init : Inserts := ⟨Store.empty, fun _ => .queued, fun _ => none, fun _ _ => none⟩

/-- The member of `tag:threads` that an insert bumps: its thread number as text. -/
def InsertCall.member (call : InsertCall) : Str := showInt call.msg.thread

section Steps

variable (c : Common) (calls : Nat → InsertCall)

/-- One event, `none` where it cannot happen in the call's phase. -/
def Inserts.step (st : Inserts) : InsertEvent → Option Inserts
  | .exec i =>
    if st.phase i ≠ .queued then none else
    let call := calls i
    match insertPostBatch c call.tag call.msg call.body call.ip with
    | .error _ => some { st with phase := Function.update st.phase i .done }
    | .ok cmds =>
      let (s, rs) := st.store.exec cmds
      -- `results[0]`, the reply of `INCR`, is the score of the bump
      match call.msg.bump, rs.head? with
      | true, some (.int n) =>
        some { st with
          store := s
          phase := Function.update st.phase i (.zadding n)
          obtained := Function.update st.obtained i (some n) }
      | _, _ => some { st with store := s, phase := Function.update st.phase i .done }
  | .execFail i =>
    if st.phase i ≠ .queued then none
    else some { st with phase := Function.update st.phase i .done }
  | .zadd i =>
    match st.phase i with
    | .zadding n =>
      let call := calls i
      some { st with
        store := (st.store.exec1 (.zadd (.threads call.tag) n call.member)).1
        phase := Function.update st.phase i .done
        last := Function.update st.last call.tag
          (Function.update (st.last call.tag) call.member (some i)) }
    | _ => none
  | .zaddFail i =>
    match st.phase i with
    | .zadding _ => some { st with phase := Function.update st.phase i .done }
    | _ => none

/-- The calls after a sequence of events, `none` if one of them cannot happen. -/
def Inserts.run (st : Inserts) : List InsertEvent → Option Inserts
  | [] => some st
  | e :: es => (st.step c calls e).bind (·.run es)

end Steps

/-! ## Only `ZADD` writes a sorted set -/

/-- Whether a command writes a sorted set. -/
def Command.writesZset : Command → Bool
  | .zadd .. => true
  | _ => false

theorem Store.exec1_zsets {cmd : Command} (h : cmd.writesZset = false) (s : Store) :
    (s.exec1 cmd).1.zsets = s.zsets := by
  cases cmd with
  | zadd => cases h
  | _ => simp only [Store.exec1] <;> (try split) <;> rfl

theorem Store.exec_zsets {cs : List Command} (h : ∀ cmd ∈ cs, cmd.writesZset = false)
    (s : Store) : (s.exec cs).1.zsets = s.zsets := by
  induction cs generalizing s with
  | nil => rfl
  | cons cmd cs ih =>
    rw [Store.exec_cons, ih (fun c' hc => h c' (.tail _ hc)), Store.exec1_zsets (h cmd (.head _))]

theorem insertPostBatch_zsets {c : Common} {tag : Str} {msg : PostMsg} {body ip : Str}
    {cmds : List Command} (h : insertPostBatch c tag msg body ip = .ok cmds) :
    ∀ cmd ∈ cmds, cmd.writesZset = false := by
  obtain ⟨pre, lc, rfl, hlc, -, hpre⟩ := insertPostBatch_ok h
  intro cmd hc
  rcases List.mem_append.1 hc with hc | hc
  · rcases hpre cmd hc with rfl | ⟨_, rfl⟩ | ⟨_, _, rfl⟩ | rfl | ⟨_, _, rfl⟩ | ⟨_, _, rfl⟩ |
      ⟨_, _, rfl⟩ | ⟨_, _, rfl⟩ <;> rfl
  · simp only [log] at hlc
    split_ifs at hlc
    cases hlc
    simp only [List.mem_cons, List.mem_singleton, List.not_mem_nil, or_false] at hc
    rcases hc with rfl | rfl | rfl <;> rfl

/-- A two-level map after one entry is written. -/
theorem update_update_apply {α β γ : Type} [DecidableEq α] [DecidableEq β] (f : α → β → γ)
    (a : α) (b : β) (v : γ) (x : α) (y : β) :
    Function.update f a (Function.update (f a) b v) x y = if x = a ∧ y = b then v else f x y := by
  by_cases hx : x = a
  · subst hx; by_cases hy : y = b <;> simp [hy]
  · simp [hx]

/-! ## The score of a thread -/

section Invariant

variable {c : Common} {calls : Nat → InsertCall}

/-- The invariant of the interleaved calls: each score is the counter of the call whose
`ZADD` reached it last, a bumping insert into that thread, and a call on its way to `ZADD`
holds the counter its block got. -/
structure InsertsInv (calls : Nat → InsertCall) (st : Inserts) : Prop where
  score : ∀ t m, st.store.zsets (.threads t) m = (st.last t m).bind st.obtained
  zadding : ∀ i n, st.phase i = .zadding n → st.obtained i = some n ∧ (calls i).msg.bump
  last_done : ∀ t m i, st.last t m = some i → st.phase i = .done
  last_call : ∀ t m i, st.last t m = some i →
    (calls i).tag = t ∧ (calls i).member = m ∧ (calls i).msg.bump

theorem insertsInv_init : InsertsInv calls Inserts.init where
  score _ _ := rfl
  zadding _ _ h := by cases h
  last_done _ _ _ h := by cases h
  last_call _ _ _ h := by cases h

/-- A call that finishes without a `ZADD`, its block run or not, keeps the invariant. -/
theorem InsertsInv.finish {st : Inserts} (h : InsertsInv calls st) {i : Nat}
    (s : Store) (hs : s.zsets = st.store.zsets) :
    InsertsInv calls { st with store := s, phase := Function.update st.phase i .done } where
  score t m := by rw [hs]; exact h.score t m
  zadding j n hj := by
    dsimp only at hj ⊢
    rw [Function.update_apply] at hj
    split_ifs at hj
    exact h.zadding j n hj
  last_done t m j hj := by
    dsimp only
    rw [Function.update_apply]
    split_ifs
    · rfl
    · exact h.last_done t m j hj
  last_call := h.last_call

/-- A bumping call whose block got its counter goes on to `ZADD`. No score points to it yet:
a call a score points to is done. -/
theorem InsertsInv.begin {st : Inserts} (h : InsertsInv calls st) {i : Nat} {n : Int}
    (hi : st.phase i = .queued) (hb : (calls i).msg.bump) (s : Store)
    (hs : s.zsets = st.store.zsets) :
    InsertsInv calls { st with
      store := s
      phase := Function.update st.phase i (.zadding n)
      obtained := Function.update st.obtained i (some n) } := by
  have hlast : ∀ t m j, st.last t m = some j → j ≠ i := fun t m j hj e => by
    have := h.last_done t m j hj
    rw [e, hi] at this
    cases this
  refine ⟨fun t m => ?_, fun j k hj => ?_, fun t m j hj => ?_, h.last_call⟩
  · dsimp only
    rw [hs, h.score t m]
    cases hl : st.last t m with
    | none => rfl
    | some j => simp only [Option.some_bind, Function.update_noteq (hlast t m j hl)]
  · dsimp only at hj ⊢
    rw [Function.update_apply] at hj ⊢
    split_ifs at hj ⊢ with hji
    · cases hj; exact ⟨rfl, hji ▸ hb⟩
    · exact h.zadding j k hj
  · dsimp only at hj ⊢
    rw [Function.update_noteq (hlast t m j hj)]
    exact h.last_done t m j hj

/-- A call's `ZADD` writes the counter its block got, and becomes the last for its member. -/
theorem InsertsInv.zadd {st : Inserts} (h : InsertsInv calls st) {i : Nat} {n : Int}
    (hn : st.phase i = .zadding n) :
    InsertsInv calls { st with
      store := (st.store.exec1 (.zadd (.threads (calls i).tag) n (calls i).member)).1
      phase := Function.update st.phase i .done
      last := Function.update st.last (calls i).tag
        (Function.update (st.last (calls i).tag) (calls i).member (some i)) } := by
  obtain ⟨hob, hb⟩ := h.zadding i n hn
  refine ⟨fun t m => ?_, fun j k hj => ?_, fun t m j hj => ?_, fun t m j hj => ?_⟩
  · simp only [Store.exec1, update_update_apply, ZKey.threads.injEq]
    split_ifs
    · simp [hob]
    · exact h.score t m
  · dsimp only at hj ⊢
    rw [Function.update_apply] at hj
    split_ifs at hj
    exact h.zadding j k hj
  · dsimp only at hj ⊢
    rw [Function.update_apply]
    split_ifs with hji
    · rfl
    · rw [update_update_apply] at hj
      split_ifs at hj
      · exact absurd (Option.some.inj hj).symm hji
      · exact h.last_done t m j hj
  · dsimp only at hj
    rw [update_update_apply] at hj
    split_ifs at hj with htm
    · cases hj
      obtain ⟨rfl, rfl⟩ := htm
      exact ⟨rfl, rfl, hb⟩
    · exact h.last_call t m j hj

theorem InsertsInv.step {st st' : Inserts} (h : InsertsInv calls st) {e : InsertEvent}
    (he : st.step c calls e = some st') : InsertsInv calls st' := by
  cases e with
  | exec i =>
    simp only [Inserts.step] at he
    split_ifs at he with hq
    split at he
    · cases he; exact h.finish st.store rfl
    next cmds hcmds =>
      have hz := Store.exec_zsets (insertPostBatch_zsets hcmds) st.store
      split at he
      · next hb _ => cases he; exact h.begin (not_not.1 hq) hb _ hz
      · cases he; exact h.finish _ hz
  | execFail i =>
    simp only [Inserts.step] at he
    split_ifs at he
    cases he
    exact h.finish st.store rfl
  | zadd i =>
    simp only [Inserts.step] at he
    split at he
    · next hn => cases he; exact h.zadd hn
    · cases he
  | zaddFail i =>
    simp only [Inserts.step] at he
    split at he
    · cases he; exact h.finish st.store rfl
    · cases he

theorem InsertsInv.run {st st' : Inserts} (h : InsertsInv calls st) {evs : List InsertEvent}
    (he : st.run c calls evs = some st') : InsertsInv calls st' := by
  induction evs generalizing st with
  | nil => cases he; exact h
  | cons e es ih =>
    simp only [Inserts.run, Option.bind_eq_some] at he
    obtain ⟨st₁, h₁, h₂⟩ := he
    exact ih (h.step h₁) h₂

theorem showInt_injective : Function.Injective showInt := fun a b h => by
  simpa [parseInt_showInt] using congrArg parseInt h

/-- **The score of a thread, whatever the interleaving.** After any sequence of events, the
score of thread `op` in `tag:t:threads` is the counter that the call whose `ZADD` for it
reached the store last obtained from `INCR`; that call is a bumping insert into `op` under
tag `t`. Without such a call the thread has no score. -/
theorem insertsInv_run {evs : List InsertEvent} {st : Inserts}
    (h : Inserts.init.run c calls evs = some st) (t : Str) (op : Int) :
    st.store.zsets (.threads t) (showInt op) = (st.last t (showInt op)).bind st.obtained ∧
      ∀ i, st.last t (showInt op) = some i →
        (calls i).tag = t ∧ (calls i).msg.thread = op ∧ (calls i).msg.bump ∧
          st.phase i = .done := by
  have hinv := insertsInv_init.run h
  refine ⟨hinv.score t _, fun i hi => ?_⟩
  obtain ⟨ht, hm, hb⟩ := hinv.last_call t _ i hi
  exact ⟨ht, showInt_injective hm, hb, hinv.last_done t _ i hi⟩

/-! ## A lost bump -/

/-- Two bumping inserts under tag `3:moe`: call 0 creates thread 1, call 1 is reply 2 to it. -/
def racingInserts : Nat → InsertCall := fun i =>
  if i = 0 then ⟨"3:moe".toList, ⟨1, 0, 1000, [0, 0], [], [], [], none, none⟩, "a".toList, []⟩
  else ⟨"3:moe".toList, ⟨2, 1, 1001, [0, 0], [], [], [], none, none⟩, "b".toList, []⟩

/-- The blocks of the two inserts run in order and get the counters 1 and 2; the reply's
`ZADD` reaches the store first. Thread 1 ends with score 1, below the counter 2 of its latest
bump. -/
theorem bump_lost_update :
    ((Inserts.init.run Common.sample racingInserts [.exec 0, .exec 1, .zadd 1, .zadd 0]).map
      fun st => (st.phase 0, st.phase 1, st.obtained 0, st.obtained 1,
        st.store.zsets (.threads "3:moe".toList) (showInt 1))) =
      some (.done, .done, some 1, some 2, some 1) := by
  decide

/-- The same run: the score of thread 1 is the counter of call 0, whose `ZADD` came last. -/
theorem insertsInv_run_sample : ∃ st,
    Inserts.init.run Common.sample racingInserts [.exec 0, .exec 1, .zadd 1, .zadd 0] =
      some st ∧
    (st.store.zsets (.threads "3:moe".toList) (showInt 1) =
        (st.last "3:moe".toList (showInt 1)).bind st.obtained ∧
      ∀ i, st.last "3:moe".toList (showInt 1) = some i →
        (racingInserts i).tag = "3:moe".toList ∧ (racingInserts i).msg.thread = 1 ∧
          (racingInserts i).msg.bump ∧ st.phase i = .done) :=
  match h : Inserts.init.run Common.sample racingInserts [.exec 0, .exec 1, .zadd 1, .zadd 0] with
  | some st => ⟨st, rfl, insertsInv_run h _ _⟩
  | none => absurd (congrArg Option.isSome h) (by decide)

end Invariant

end Shamichan.Db

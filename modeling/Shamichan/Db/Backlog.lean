import Shamichan.Db.History
import Shamichan.Db.Join

/-!
# Shamichan — catching up on a thread's feed

A client that renders a thread learns its `hctr`, and later asks `Y.fetch_backlogs` for what it
missed: for every watched thread but `live`, `LRANGE thread:op:history sync -1` from the
`sync` it holds, the replies pushed on one `combined` list that `forEachInObject` hands to the
callback once every reply came in. Other clients' blocks run between the replies.

* `lrange`: `LRANGE` as Redis computes it, negative indices and clamping included;
  `lrange_from` reads from a position to the end, `lrange_last` the last `n` elements.
* `Store.published_prefix_exec`, `HistoryStep.published_prefix_run`: every block of `db.js`
  keeps what was published and may only add to it, so the feed of a thread grows by appending.
* `backlog_after_hctr`: a client that read `hctr = n` and later reads the history from `n` gets
  exactly the messages published after its read.
* `fetchBacklogs_catches_up`: for any order of the replies and any blocks between them, once the
  callback gets `null` every watched thread but `live` answered once, and `combined` is one chunk
  per reply, in the order they came, each chunk the thread's feed from `sync` on, up to its reply.
-/

namespace Shamichan.Db

open Js

/-! ## `LRANGE` -/

/-- `LRANGE key start stop` on the list `l` (`lrangeCommand` of Redis): negative indices count
from the end, `start` is then clamped at 0, the range is empty when `start > stop` or
`start ≥ len`, and `stop` is clamped at the last element. -/
def lrange (l : List Str) (start stop : Int) : List Str :=
  let len : Int := l.length
  let start := if start < 0 then len + start else start
  let stop := if stop < 0 then len + stop else stop
  let start := if start < 0 then 0 else start
  if start > stop ∨ start ≥ len then []
  else
    let stop := if stop ≥ len then len - 1 else stop
    (l.drop start.toNat).take (stop - start + 1).toNat

/-- `LRANGE key n -1` from a position `n ≥ 0`: the list from `n` on. -/
theorem lrange_from (l : List Str) {n : Int} (hn : 0 ≤ n) : lrange l n (-1) = l.drop n.toNat := by
  unfold lrange
  simp only [show ¬n < 0 by omega, if_false, show (-1 : Int) < 0 by decide, if_true]
  split_ifs
  all_goals first
    | omega
    | exact (List.drop_eq_nil_of_le (by omega)).symm
    | rw [List.take_of_length_le (by rw [List.length_drop]; omega)]

/-- `LRANGE key -n -1` for `n > 0`: the last `n` elements, or all of them when there are fewer. -/
theorem lrange_last (l : List Str) {n : Nat} (hn : 0 < n) :
    lrange l (-n) (-1) = l.drop (l.length - n) := by
  unfold lrange
  simp only [show (-(n : Int)) < 0 by omega, if_true, show (-1 : Int) < 0 by decide]
  split_ifs
  all_goals first
    | omega
    | exact (List.drop_eq_nil_of_le (by omega)).symm
    | (rw [List.take_of_length_le (by rw [List.length_drop]; omega)]; try (congr 1; omega))

/-! ## The feed only grows -/

theorem Store.published_prefix_exec1 (s : Store) (c : Command) :
    s.published <+: (s.exec1 c).1.published := by
  cases c with
  | publish chan msg => exact List.prefix_append _ _
  | incr k => simp only [Store.exec1]; split <;> exact List.prefix_refl _
  | hincrby k f n => simp only [Store.exec1]; split <;> exact List.prefix_refl _
  | _ => exact List.prefix_refl _

theorem Store.published_prefix_exec (s : Store) (cs : List Command) :
    s.published <+: (s.exec cs).1.published := by
  induction cs generalizing s with
  | nil => exact List.prefix_refl _
  | cons c cs ih => exact (s.published_prefix_exec1 c).trans (ih _)

theorem HistoryStep.published_prefix_run (c : Common) (s : Store) (st : HistoryStep) :
    s.published <+: (st.run c s).published := by
  unfold HistoryStep.run
  split
  · exact s.published_prefix_exec _
  · exact List.prefix_refl _

theorem Store.publishedOn_prefix {s s' : Store} (h : s.published <+: s'.published) (op : Int) :
    s.publishedOn op <+: s'.publishedOn op :=
  (h.filter _).map _

/-- Every run of steps keeps the history invariant, from any store that has it. -/
theorem HistoryInv.runSteps (c : Common) {s : Store} (h : HistoryInv s) :
    ∀ steps : List HistoryStep, HistoryInv (Db.runSteps c s steps) ∧
      s.published <+: (Db.runSteps c s steps).published
  | [] => ⟨h, List.prefix_refl _⟩
  | st :: steps =>
    have ⟨hinv, hp⟩ := (HistoryStep.run_historyInv c h st).runSteps c steps
    ⟨hinv, (HistoryStep.published_prefix_run c s st).trans hp⟩

/-! ## Reading the history from the client's `hctr` -/

/-- Reading a prefix back: once a list `p` of length `n` is known to begin `l`, `l` is `p`
followed by `l` from `n` on. -/
theorem append_drop_of_prefix {p l : List Str} (h : p <+: l) : p ++ l.drop p.length = l := by
  obtain ⟨t, rfl⟩ := h
  rw [List.drop_left]

/-- **A reader of `hctr` catches up from it.** A client that read `hctr = n` of thread `op`
from a store of the history invariant, and later reads `LRANGE thread:op:history n -1`, after
any steps of `db.js` calls in between: what had been published on `thread:op` when it read,
followed by what the `LRANGE` returns, is exactly what has been published when it returns. No
message is missed and none comes twice. -/
theorem backlog_after_hctr (c : Common) {s : Store} (h : HistoryInv s) {op n : Int}
    (hn : intValue (s.hctr op) = some n) (steps : List HistoryStep) :
    s.publishedOn op ++ lrange ((runSteps c s steps).lists (.history op)) n (-1) =
      (runSteps c s steps).publishedOn op := by
  obtain ⟨hinv, hp⟩ := h.runSteps c steps
  obtain ⟨hc, hpub⟩ := h op
  obtain rfl : n = (s.publishedOn op).length := by
    rw [hpub]; exact Option.some.inj (hn.symm.trans hc)
  rw [lrange_from _ (Int.natCast_nonneg _), ← (hinv op).2, Int.toNat_natCast]
  exact append_drop_of_prefix (Store.publishedOn_prefix hp op)

/-- A client that read thread 7 before anything was logged in it (`hctr` unset, read as 0),
and two `finish_post` calls log in thread 7 before it reads the history. -/
theorem backlog_after_hctr_sample :
    HistoryInv Store.empty ∧ intValue (Store.empty.hctr 7) = some 0 ∧
      Store.empty.publishedOn 7 ++
          lrange ((runSteps Common.sample Store.empty
            [.finishPost 3 7 "hi".toList, .finishPost 4 7 "yo".toList]).lists (.history 7)) 0 (-1) =
        (runSteps Common.sample Store.empty
          [.finishPost 3 7 "hi".toList, .finishPost 4 7 "yo".toList]).publishedOn 7 ∧
      (runSteps Common.sample Store.empty
          [.finishPost 3 7 "hi".toList, .finishPost 4 7 "yo".toList]).publishedOn 7 =
        ["5,3".toList, "5,4".toList] :=
  ⟨historyInv_empty, rfl, backlog_after_hctr Common.sample historyInv_empty rfl _, by decide⟩

/-! ## `fetch_backlogs` -/

/-- `watching[thread]`, the position the client holds for a watched thread. -/
def syncOf (watching : List (Str × Int)) (thread : Str) : Int :=
  (watching.lookup thread).getD 0

/-- The list `LRANGE` reads for a watched thread: `'thread:' + thread + ':history'` is the history
of thread `op` when `thread` is `op`'s decimal text; any other text names a list no call writes. -/
def historyOf (s : Store) (thread : Str) : List Str :=
  match redisInt? thread with
  | some op => s.lists (.history op)
  | none => []

/-- The messages published on the channel of a watched thread, none for a text that is not a
thread number. -/
def publishedOf (s : Store) (thread : Str) : List Str :=
  match redisInt? thread with
  | some op => s.publishedOn op
  | none => []

/-- One `fetch_backlogs(watching, callback)` call after it returned: the join of
`forEachInObject`, the messages pushed on `combined`, and the store the replies read. -/
structure Fetch where
  join : Join
  combined : List Str
  store : Store

/-- What comes next: a step of some call on the store, or the reply to the `LRANGE` of the
watched thread `k`, with the error when it failed. -/
inductive FetchEvent where
  | write (st : HistoryStep)
  | reply (k : Str) (err : Option Str)

namespace Fetch

/-- The state when `fetch_backlogs` returns: `live` called back at once and pushed nothing,
every other watched thread waits for its `LRANGE`. -/
def init (watching : List (Str × Int)) (s : Store) : Fetch :=
  ⟨Join.init (watching.map fun kv => (kv.1, true)) fetchBacklogsSync, [], s⟩

/-- A step: a block of another call runs, or the `LRANGE` of thread `k` answers and its
callback pushes the log on `combined` and calls `cb(null)`, or calls `cb(err)`. -/
def step (watching : List (Str × Int)) (c : Common) (f : Fetch) : FetchEvent → Option Fetch
  | .write st => some { f with store := st.run c f.store }
  | .reply k err =>
    (f.join.step k err).map fun j =>
      ⟨j, if err = none then f.combined ++ lrange (historyOf f.store k) (syncOf watching k) (-1)
        else f.combined, f.store⟩

/-- A schedule of steps. -/
def run (watching : List (Str × Int)) (c : Common) (f : Fetch) : List FetchEvent → Option Fetch
  | [] => some f
  | e :: es => (f.step watching c e).bind (·.run watching c es)

end Fetch

/-- The replies of a schedule, in order. -/
def FetchEvent.replies : List FetchEvent → List (Str × Option Str)
  | [] => []
  | .write _ :: es => replies es
  | .reply k err :: es => (k, err) :: replies es

/-- The threads whose `LRANGE` answered without error, in the order of the replies. -/
def okReplies (evs : List FetchEvent) : List Str :=
  (FetchEvent.replies evs).filterMap fun r => if r.2 = none then some r.1 else none

/-- `chunk` is the feed of `thread` from position `sync` on, up to some moment: what has been
published from `sync` on begins with it. -/
def Store.ChunkOf (s : Store) (sync : Int) (thread : Str) (chunk : List Str) : Prop :=
  ∃ later, (publishedOf s thread).drop sync.toNat = chunk ++ later

theorem Store.ChunkOf.mono {s s' : Store} (hp : s.published <+: s'.published) {sync : Int}
    {thread : Str} {chunk : List Str} (h : s.ChunkOf sync thread chunk) :
    s'.ChunkOf sync thread chunk := by
  obtain ⟨later, hl⟩ := h
  have hpre : publishedOf s thread <+: publishedOf s' thread := by
    unfold publishedOf
    split
    · exact Store.publishedOn_prefix hp _
    · exact List.prefix_refl _
  obtain ⟨t, ht⟩ := hpre
  refine ⟨later ++ t.drop (sync.toNat - (publishedOf s thread).length), ?_⟩
  rw [← ht, List.drop_append_eq_append_drop, hl, List.append_assoc]

/-- The reply of an `LRANGE` from `sync ≥ 0` on a store of the history invariant is a chunk of
the thread's feed, the whole feed from `sync` on at that moment. -/
theorem chunkOf_lrange {s : Store} (h : HistoryInv s) {sync : Int} (hs : 0 ≤ sync)
    (thread : Str) : s.ChunkOf sync thread (lrange (historyOf s thread) sync (-1)) := by
  refine ⟨[], ?_⟩
  rw [lrange_from _ hs, List.append_nil]
  unfold publishedOf historyOf
  split
  · rw [(h _).2]
  · rfl

/-- What a schedule does to a fetch: the join sees the replies, the store takes the steps, and
`combined` grows by one chunk per reply without error. -/
theorem Fetch.run_spec {watching : List (Str × Int)} {c : Common}
    (hsync : ∀ kv ∈ watching, 0 ≤ kv.2) :
    ∀ {f f' : Fetch} {evs : List FetchEvent}, f.run watching c evs = some f' →
      HistoryInv f.store →
      f.join.run (FetchEvent.replies evs) = some f'.join ∧ HistoryInv f'.store ∧
        f.store.published <+: f'.store.published ∧
        ∃ chunks, f'.combined = f.combined ++ chunks.flatten ∧
          List.Forall₂ (fun k chunk => f'.store.ChunkOf (syncOf watching k) k chunk)
            (okReplies evs) chunks
  | f, f', [], hr, _ => by
    cases hr
    exact ⟨rfl, ‹_›, List.prefix_refl _, [], by simp, .nil⟩
  | f, f', .write st :: es, hr, h => by
    obtain ⟨f₁, h₁, hr⟩ := Option.bind_eq_some.1 hr
    cases h₁
    obtain ⟨hj, hinv, hp, chunks, hc, hf⟩ :=
      Fetch.run_spec hsync hr (HistoryStep.run_historyInv c h st)
    exact ⟨hj, hinv, (HistoryStep.published_prefix_run c _ st).trans hp, chunks, hc, hf⟩
  | f, f', .reply k err :: es, hr, h => by
    obtain ⟨f₁, h₁, hr⟩ := Option.bind_eq_some.1 hr
    obtain ⟨j, hj₁, rfl⟩ := Option.map_eq_some'.1 h₁
    obtain ⟨hj, hinv, hp, chunks, hc, hf⟩ := Fetch.run_spec hsync hr h
    refine ⟨by simp only [FetchEvent.replies, Join.run, hj₁, Option.some_bind, hj], hinv, hp,
      ?_⟩
    cases err with
    | some e => exact ⟨chunks, hc, by simpa [okReplies, FetchEvent.replies] using hf⟩
    | none =>
      -- the reply's log is a chunk of the feed then, and stays one as the feed grows
      have hsk : 0 ≤ syncOf watching k := by
        unfold syncOf
        cases hl : watching.lookup k with
        | none => exact le_refl 0
        | some v =>
          obtain ⟨l₁, l₂, rfl, -⟩ := List.lookup_eq_some_iff.1 hl
          exact hsync (k, v) (List.mem_append_right _ (List.mem_cons_self _ _))
      refine ⟨lrange (historyOf f.store k) (syncOf watching k) (-1) :: chunks, by simp [hc], ?_⟩
      simpa [okReplies, FetchEvent.replies] using
        List.Forall₂.cons (R := fun k chunk => f'.store.ChunkOf (syncOf watching k) k chunk)
          ((chunkOf_lrange h hsk k).mono hp) hf

/-- The keys `fetch_backlogs` waits for: the watched threads other than `live`. -/
theorem asyncKeys_watching (watching : List (Str × Int)) :
    asyncKeys (watching.map fun kv => (kv.1, true)) fetchBacklogsSync =
      (watching.map Prod.fst).filter (· != "live".toList) := by
  unfold asyncKeys fetchBacklogsSync
  generalize "live".toList = live
  induction watching with
  | nil => rfl
  | cons kv ws ih => by_cases hl : kv.1 = live <;> simp [hl, ih]

/-- **`fetch_backlogs` catches a client up on every thread it watches.** From a store of the
history invariant, for every `watching` with positions `sync ≥ 0`, every order of the `LRANGE`
replies and every step of other calls between them: once the callback has been called with
`null`, every watched thread other than `live` answered exactly once, and `combined` is one
chunk per answer, in the order the answers came, each the feed of its thread from its `sync` on
up to the moment of its answer (a beginning of what has been published from `sync` on). -/
theorem fetchBacklogs_catches_up {c : Common} {watching : List (Str × Int)} {s : Store}
    (h : HistoryInv s) (hsync : ∀ kv ∈ watching, 0 ≤ kv.2) {evs : List FetchEvent} {f : Fetch}
    (hr : (Fetch.init watching s).run watching c evs = some f) (hcb : f.join.st.calls = [none]) :
    ((FetchEvent.replies evs).map Prod.fst).Perm
        ((watching.map Prod.fst).filter (· != "live".toList)) ∧
      okReplies evs = (FetchEvent.replies evs).map Prod.fst ∧
      ∃ chunks, f.combined = chunks.flatten ∧
        List.Forall₂ (fun k chunk => f.store.ChunkOf (syncOf watching k) k chunk)
          (okReplies evs) chunks := by
  obtain ⟨hj, -, -, chunks, hc, hf⟩ := Fetch.run_spec hsync hr h
  -- `forEachInObject` returned: had it thrown, no reply would come and no callback be called
  have ho : shadowsHasOwnProperty ((watching.map fun kv => (kv.1, true)).map Prod.fst) = false := by
    by_contra hs
    have hinit := Join.init_of_shadows (Bool.eq_true_of_not_eq_false hs) fetchBacklogsSync
    obtain ⟨-, hj'⟩ := Join.run_of_pending_nil (j := (Fetch.init watching s).join)
      (by simp only [Fetch.init, hinit]) hj
    simp only [hj', Fetch.init, hinit] at hcb
    cases hcb
  obtain ⟨hinv₀, he₀⟩ :=
    joinInv_init (watching.map fun kv => (kv.1, true)) fetchBacklogsSync ho
  obtain ⟨hinv, he, hp⟩ := hinv₀.run hj
  -- the callback was called, so nothing is pending, and with `null`, so nothing failed
  have hcalls := hinv.calls
  rw [hcb] at hcalls
  have hpend : f.join.pending = [] := by
    by_contra hne; rw [if_neg hne] at hcalls; cases hcalls
  rw [if_pos hpend] at hcalls
  have herr : f.join.st.errors = [] := by
    by_contra hne
    simp only [List.cons.injEq, and_true, joinResult, if_neg hne] at hcalls
    cases hcalls
  rw [herr, he₀] at he
  have hnone : ∀ r ∈ FetchEvent.replies evs, r.2 = none := fun r hr => by
    have := (List.append_eq_nil.1 he.symm).2
    rw [List.filterMap_eq_nil_iff] at this
    simpa using this r hr
  refine ⟨?_, ?_, chunks, by simpa using hc, hf⟩
  · rw [hpend, List.append_nil] at hp
    rw [← asyncKeys_watching, ← Join.init_pending ho]
    exact hp
  · unfold okReplies
    rw [List.filterMap_eq_map_iff_forall_eq_some]
    exact fun r hr => by simp [hnone r hr]

/-- A client watching `live` and thread 7, which has one message; a second is logged before the
`LRANGE` of thread 7 answers from 0: the callback gets `null` and both messages. -/
theorem fetchBacklogs_catches_up_sample :
    HistoryInv (runSteps Common.sample Store.empty [.finishPost 3 7 "hi".toList]) ∧
      (∀ kv ∈ [("live".toList, (0 : Int)), ("7".toList, 0)], 0 ≤ kv.2) ∧
      ∃ f, (Fetch.init [("live".toList, 0), ("7".toList, 0)]
            (runSteps Common.sample Store.empty [.finishPost 3 7 "hi".toList])).run
          [("live".toList, 0), ("7".toList, 0)] Common.sample
          [.write (.finishPost 4 7 "yo".toList), .reply "7".toList none] = some f ∧
        f.join.st.calls = [none] ∧ f.combined = ["5,3".toList, "5,4".toList] ∧
        ((FetchEvent.replies [.write (.finishPost 4 7 "yo".toList), .reply "7".toList none]).map
            Prod.fst).Perm
          (([("live".toList, (0 : Int)), ("7".toList, 0)].map Prod.fst).filter
            (· != "live".toList)) ∧
        okReplies [.write (.finishPost 4 7 "yo".toList), .reply "7".toList none] =
          (FetchEvent.replies [.write (.finishPost 4 7 "yo".toList), .reply "7".toList none]).map
            Prod.fst ∧
        ∃ chunks, f.combined = chunks.flatten ∧
          List.Forall₂
            (fun k chunk =>
              f.store.ChunkOf (syncOf [("live".toList, 0), ("7".toList, 0)] k) k chunk)
            (okReplies [.write (.finishPost 4 7 "yo".toList), .reply "7".toList none]) chunks :=
  have h := (HistoryInv.runSteps Common.sample historyInv_empty [.finishPost 3 7 "hi".toList]).1
  have hsync : ∀ kv ∈ [("live".toList, (0 : Int)), ("7".toList, 0)], 0 ≤ kv.2 := by decide
  ⟨h, hsync, _, rfl, by decide, by decide,
    @fetchBacklogs_catches_up Common.sample _ _ h hsync
      [.write (.finishPost 4 7 "yo".toList), .reply "7".toList none] _ rfl (by decide)⟩

end Shamichan.Db

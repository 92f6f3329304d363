import Shamichan.Db.Posts

/-!
# Shamichan — `remove_posts` and its join over `remove_post`

`remove_posts(nums, callback)` runs `remove_post` on every number through `async.map`, then,
in the callback it gives `async.map`, groups the deletions `[op, num]` by thread and sends one
`MULTI` block with a `DELETE_POSTS` update per thread, whose `EXEC` calls `callback`
(`Removing.done`). `async.map` fills a `results` array as the calls come back, in any order;
`async.each` under it counts the calls that succeed and calls the final callback when the
count reaches the length, or at the first error, after which it is a no-op
(`Removing.step`). Each call may come back removed, already gone, or with an error.

* `Removing.run_complete`: when no call fails, once every call has come back `callback` has
  been called exactly once, and every removed post is announced in the one `DELETE_POSTS`
  update of its thread;
* `Removing.run_failed`: when a call fails, `callback` is called twice: with the error (there is
  no `return` after `callback(err)`), then again by `EXEC`;
* `removePosts_error_loses_removal`: the removals that come back after the error are in no
  update at all.
-/

namespace Shamichan.Db

open Js

/-- What one `remove_post(num)` calls back with. -/
inductive Removal where
  /-- `callback(null, [op, num])`: the post left its thread's reply list -/
  | removed (op num : Int)
  /-- `callback(null, -num)`: `LREM` found it already gone -/
  | gone (num : Int)
  /-- `callback(err)`: 'No such post.', 'Thread deletion not supported yet.' or a Redis error -/
  | failed (err : Str)
  deriving DecidableEq, Repr

/-- The deletion `[op, num]` a result holds, if it holds one. -/
def Removal.del? : Removal → Option (Int × Int)
  | .removed op num => some (op, num)
  | _ => none

/-- Whether a slot of `results` holds the result of a call that came back without error, the
calls `async.each` counts in `completed`. -/
def Removal.counted : Option Removal → Bool
  | some (.removed _ _) | some (.gone _) => true
  | some (.failed _) | none => false

/-- `remove_posts` while its calls come back: the `results` array `async.map` fills, the
`completed` count of `async.each` and whether its final callback has run (it is the no-op
afterwards), the calls of `remove_posts`' own `callback` (an error, or `none`), and the
`DELETE_POSTS` updates of its block, by thread. -/
structure Removing where
  results : Nat → Option Removal
  completed : Nat
  finished : Bool
  replies : List (Option Str)
  logged : List (Int × List Int)

/-- `dels` as `remove_posts` reads it: the deletions among the results of calls `0 … n-1`
that have come back, in index order. -/
def Removing.dels (n : Nat) (st : Removing) : List (Int × Int) :=
  ((List.range n).filterMap st.results).filterMap Removal.del?

section Steps

variable (c : Common) (n : Nat)

/-- The callback `remove_posts` gives `async.map`, called with `err` and the results so far:
`callback(err)` when there is an error, with no `return` after it; then the block of one
`DELETE_POSTS` update per thread, whose `EXEC` calls `callback` again. Where `_log` throws,
the exception leaves the callback before `EXEC`. -/
def Removing.done (err : Option Str) (st : Removing) : Removing :=
  let st := { st with finished := true, replies := st.replies ++ err.toList.map some }
  match removePostsBatch c (st.dels n) with
  | .ok _ => { st with replies := st.replies ++ [none], logged := groupByThread (st.dels n) }
  | .error _ => st

/-- `async.map(nums, …)` over `n` numbers as it starts: with no number it calls back at once. -/
def Removing.start : Removing :=
  if n = 0 then Removing.done c n none ⟨fun _ => none, 0, false, [], []⟩
  else ⟨fun _ => none, 0, false, [], []⟩

/-- Call `i` comes back with `r`: `results[i] = v`, then `async.each`'s callback. An error runs
the final callback, unless it already ran; a success raises `completed`, and the final
callback runs when that reaches `n`. `none` where call `i` does not exist or already came
back, or where `r` is `[op, num]` with `op` unset, which `remove_post` never sends. -/
def Removing.step (st : Removing) (i : Nat) (r : Removal) : Option Removing :=
  if n ≤ i ∨ (st.results i).isSome ∨ (r.del?.map Prod.fst) = some 0 then none else
  let st := { st with results := Function.update st.results i (some r) }
  match r with
  | .failed e => some (if st.finished then st else st.done c n (some e))
  | _ =>
    let st := { st with completed := st.completed + 1 }
    some (if n ≤ st.completed ∧ st.finished = false then st.done c n none else st)

/-- The state after the calls come back in the order of `evs`, `none` if one cannot. -/
def Removing.run (st : Removing) : List (Nat × Removal) → Option Removing
  | [] => some st
  | (i, r) :: evs => (st.step c n i r).bind (·.run evs)

end Steps

/-! ## The block of `remove_posts` -/

theorem fst_mem_of_mem_groupByThread {dels : List (Int × Int)} {g : Int × List Int}
    (h : g ∈ groupByThread dels) : g.1 ∈ dels.map Prod.fst := by
  obtain ⟨op, hop, rfl⟩ := List.mem_map.1 h
  exact List.mem_dedup.1 (List.mem_mergeSort.1 hop)

/-- The block is sent whenever every deletion names a thread. -/
theorem removePostsBatch_ok (c : Common) {dels : List (Int × Int)}
    (h : ∀ d ∈ dels, d.1 ≠ 0) : ∃ cmds, removePostsBatch c dels = .ok cmds := by
  suffices ∀ gs : List (Int × List Int), (∀ g ∈ gs, g.1 ≠ 0) →
      ∃ lcs, gs.mapM (fun g => log g.1 c.deletePosts ((jsSort g.2).map .num)) = .ok lcs by
    obtain ⟨lcs, hl⟩ := this _ fun g hg => by
      obtain ⟨d, hd, he⟩ := List.mem_map.1 (fst_mem_of_mem_groupByThread hg)
      exact he ▸ h d hd
    exact ⟨_, by rw [removePostsBatch, hl]; rfl⟩
  intro gs
  induction gs with
  | nil => exact fun _ => ⟨[], rfl⟩
  | cons g gs ih =>
    intro hg
    obtain ⟨lcs, hl⟩ := ih fun g' h' => hg g' (.tail _ h')
    rw [List.mapM_cons, log_of_ne_zero (hg g (.head _)), hl]
    exact ⟨_, rfl⟩

/-- Each thread of the deletions has exactly one update, and it names every post deleted
from that thread. -/
theorem groupByThread_filter {dels : List (Int × Int)} {op num : Int} (h : (op, num) ∈ dels) :
    (groupByThread dels).filter (fun g => g.1 = op) =
      [(op, (dels.filter (·.1 = op)).map Prod.snd)] := by
  have hnd : ((dels.map Prod.fst).dedup.mergeSort (· ≤ ·)).Nodup :=
    (List.mergeSort_perm _ _).nodup_iff.2 (List.nodup_dedup _)
  have hmem : op ∈ (dels.map Prod.fst).dedup.mergeSort (· ≤ ·) :=
    List.mem_mergeSort.2 (List.mem_dedup.2 (List.mem_map_of_mem Prod.fst h))
  rw [groupByThread, List.filter_map]
  change List.map _ (List.filter (· = op) _) = _
  rw [List.filter_eq, List.count_eq_one_of_mem hnd hmem]
  rfl

/-! ## What every run keeps -/

section Invariant

variable {c : Common} {n : Nat}

/-- The slots of the calls that came back without error, as a set. -/
def Removing.countedSet (n : Nat) (st : Removing) : Finset Nat :=
  (Finset.range n).filter fun i => Removal.counted (st.results i) = true

/-- What holds of `remove_posts` after any calls came back, in any order: only calls
`0 … n-1` fill a slot, and no deletion has an unset thread; `completed` counts the calls
that came back without error; before the final callback nothing was called or sent and no
call failed; after it, `callback` was called once, after every call came back without error
and with every deletion announced, or twice, the first time with an error some call
returned. -/
structure RemovingInv (n : Nat) (st : Removing) : Prop where
  range : ∀ i, n ≤ i → st.results i = none
  thread : ∀ i op num, st.results i = some (.removed op num) → op ≠ 0
  completed : st.completed = (st.countedSet n).card
  waiting : st.finished = false →
    st.replies = [] ∧ st.completed < n ∧ ∀ i e, st.results i ≠ some (.failed e)
  called : st.finished = true →
    (st.replies = [none] ∧ (∀ i, i < n → Removal.counted (st.results i) = true) ∧
      st.logged = groupByThread (st.dels n)) ∨
    ∃ e, st.replies = [some e, none] ∧ ∃ i, st.results i = some (.failed e)

theorem Removing.dels_thread {st : Removing}
    (h : ∀ i op num, st.results i = some (.removed op num) → op ≠ 0) :
    ∀ d ∈ st.dels n, d.1 ≠ 0 := by
  intro d hd
  obtain ⟨r, hr, hrd⟩ := List.mem_filterMap.1 hd
  obtain ⟨i, -, hi⟩ := List.mem_filterMap.1 hr
  cases r with
  | removed op num => cases hrd; exact h i op num hi
  | gone | failed => cases hrd

/-- The final callback, on a state whose deletions all name a thread: `callback` gets the
error, if any, and then the reply of `EXEC`; the updates are those of the deletions. -/
theorem Removing.done_eq {st : Removing} (hd : ∀ d ∈ st.dels n, d.1 ≠ 0) (err : Option Str) :
    st.done c n err =
      { st with
        finished := true
        replies := st.replies ++ err.toList.map some ++ [none]
        logged := groupByThread (st.dels n) } := by
  obtain ⟨cmds, hc⟩ := removePostsBatch_ok c hd
  simp only [Removing.done, Removing.dels] at hc ⊢
  rw [hc]

theorem countedSet_update {st : Removing} {i : Nat} (hi : i < n) (hnone : st.results i = none)
    (r : Removal) :
    ({ st with results := Function.update st.results i (some r) } : Removing).countedSet n =
      if Removal.counted (some r) then insert i (st.countedSet n) else st.countedSet n := by
  ext j
  simp only [Removing.countedSet, Finset.mem_filter, Finset.mem_range, Function.update_apply]
  by_cases hj : j = i
  · subst hj; split_ifs <;> simp_all [Removal.counted]
  · split_ifs <;> simp [hj]

theorem removingInv_start : RemovingInv n (Removing.start c n) := by
  unfold Removing.start
  split_ifs with hn
  · subst hn
    rw [Removing.done_eq (by simp [Removing.dels])]
    exact ⟨fun _ _ => rfl, nofun, rfl, nofun, fun _ => .inl ⟨rfl, nofun, rfl⟩⟩
  · exact ⟨fun _ _ => rfl, nofun, by simp [Removing.countedSet, Removal.counted],
      fun _ => ⟨rfl, show 0 < n by omega, nofun⟩, nofun⟩

/-- **One call coming back keeps the invariant.** -/
theorem RemovingInv.step {st st' : Removing} (h : RemovingInv n st) {i : Nat} {r : Removal}
    (hs : st.step c n i r = some st') : RemovingInv n st' := by
  unfold Removing.step at hs
  split_ifs at hs with hg
  simp only [not_or, Option.isSome_iff_ne_none, not_not] at hg
  obtain ⟨hi, hnone, hop⟩ := hg
  have hi : i < n := by omega
  -- the slot `i` filled with `r`
  set st₁ : Removing := { st with results := Function.update st.results i (some r) } with hst₁
  have hrange : ∀ j, n ≤ j → st₁.results j = none := fun j hj => by
    simp only [hst₁, Function.update_apply]; rw [if_neg (by omega)]; exact h.range j hj
  have hthread : ∀ j op num, st₁.results j = some (.removed op num) → op ≠ 0 := by
    intro j op num hj
    simp only [hst₁, Function.update_apply] at hj
    split_ifs at hj
    · cases hj; simpa [Removal.del?] using hop
    · exact h.thread j op num hj
  have hdels : ∀ st₂ : Removing, st₂.results = st₁.results → ∀ d ∈ st₂.dels n, d.1 ≠ 0 :=
    fun st₂ he => Removing.dels_thread fun j op num hj => hthread j op num (he ▸ hj)
  have hkeep : ∀ j, st.results j ≠ none → st₁.results j = st.results j := fun j hj => by
    simp only [hst₁, Function.update_apply]; rw [if_neg (by rintro rfl; exact hj hnone)]
  have hcount : st₁.countedSet n =
      if Removal.counted (some r) then insert i (st.countedSet n) else st.countedSet n :=
    countedSet_update hi hnone r
  -- a call back after the final callback: that callback came from an error, which stays
  have hlate : st.finished = true →
      ∃ e', st.replies = [some e', none] ∧ ∃ j, st₁.results j = some (.failed e') := fun hf => by
    rcases h.called hf with ⟨-, hall, -⟩ | ⟨e', hr, j, hj⟩
    · have := hall i hi; rw [hnone] at this; cases this
    · exact ⟨e', hr, j, by rw [hkeep j (by rw [hj]; nofun), hj]⟩
  cases r with
  | failed e =>
    simp only [Option.some.injEq] at hs
    subst hs
    have hc : st₁.countedSet n = st.countedSet n := by rw [hcount]; rfl
    by_cases hf : st.finished = true
    · rw [if_pos hf]
      exact ⟨hrange, hthread, show st.completed = (st₁.countedSet n).card by
        rw [hc]; exact h.completed, fun h' => by simp [hf] at h', fun _ => .inr (hlate hf)⟩
    · rw [if_neg hf, Removing.done_eq (hdels st₁ rfl)]
      have hw := h.waiting (by simpa using hf)
      refine ⟨hrange, hthread, show st.completed = (st₁.countedSet n).card by
        rw [hc]; exact h.completed, nofun, fun _ => .inr ⟨e, ?_, i, ?_⟩⟩
      · simp [hw.1]
      · simp [hst₁]
  | removed op num | gone num =>
    simp only [Option.some.injEq] at hs
    subst hs
    have hc : (st₁.countedSet n).card = st.completed + 1 := by
      simp only [hcount, Removal.counted, ↓reduceIte]
      rw [Finset.card_insert_of_not_mem, h.completed]
      simp [Removing.countedSet, hnone, Removal.counted]
    by_cases hdone : n ≤ st.completed + 1 ∧ st.finished = false
    · rw [if_pos hdone, Removing.done_eq (hdels { st₁ with completed := st₁.completed + 1 } rfl)]
      have hw := h.waiting hdone.2
      -- every call came back, none with an error
      have hall : ∀ j, j < n → Removal.counted (st₁.results j) = true := by
        have hcard : (st₁.countedSet n).card = (Finset.range n).card := by
          rw [hc, Finset.card_range]; omega
        intro j hj
        exact Finset.filter_card_eq hcard j (Finset.mem_range.2 hj)
      refine ⟨hrange, hthread, hc.symm, nofun, fun _ => .inl ⟨by simp [hw.1], hall, rfl⟩⟩
    · rw [if_neg hdone]
      have hcomp : st.completed + 1 = (st₁.countedSet n).card := hc.symm
      by_cases hf : st.finished = true
      · exact ⟨hrange, hthread, hcomp, fun h' => by simp [hf] at h', fun _ => .inr (hlate hf)⟩
      · have hw := h.waiting (by simpa using hf)
        have hlt : ¬n ≤ st.completed + 1 := fun hn => hdone ⟨hn, by simpa using hf⟩
        refine ⟨hrange, hthread, hcomp, fun _ => ⟨hw.1, show st.completed + 1 < n by omega, ?_⟩,
          fun h' => absurd h' hf⟩
        intro j e hj
        by_cases hji : j = i
        · subst hji; simp [hst₁] at hj
        · simp only [hst₁, Function.update_apply, if_neg hji] at hj; exact hw.2.2 j e hj

/-- A call coming back fills its slot and no other. -/
theorem Removing.step_results {st st' : Removing} {i : Nat} {r : Removal}
    (hs : st.step c n i r = some st') :
    st.results i = none ∧ st'.results = Function.update st.results i (some r) := by
  unfold Removing.step at hs
  split_ifs at hs with hg
  simp only [not_or, Option.isSome_iff_ne_none, not_not] at hg
  refine ⟨hg.2.1, ?_⟩
  cases r <;> simp only [Option.some.injEq] at hs <;> subst hs <;> (try split_ifs) <;>
    simp only [Removing.done] <;> (try split) <;> rfl

theorem Removing.start_results : (Removing.start c n).results = fun _ => none := by
  unfold Removing.start
  split_ifs
  · dsimp only [Removing.done]; split <;> rfl
  · rfl

/-- Only the calls `0 … n-1` fill a slot. -/
theorem RemovingInv.lt_of_results {st : Removing} (h : RemovingInv n st) {i : Nat} {r : Removal}
    (hi : st.results i = some r) : i < n := by
  by_contra hn
  rw [h.range i (by omega)] at hi
  cases hi

/-- **Every order of completion keeps the invariant**, and the slots are those the calls
filled: a filled slot keeps its result, each call that came back holds its result, and every
result is one a call returned. -/
theorem RemovingInv.run {st : Removing} (h : RemovingInv n st) :
    ∀ {evs : List (Nat × Removal)} {st' : Removing}, st.run c n evs = some st' →
      RemovingInv n st' ∧ (∀ i r, st.results i = some r → st'.results i = some r) ∧
        (∀ i r, (i, r) ∈ evs → st'.results i = some r) ∧
        ∀ i r, st'.results i = some r → st.results i = some r ∨ (i, r) ∈ evs
  | [], st', hr => by cases hr; exact ⟨h, fun _ _ => id, nofun, fun _ _ => .inl⟩
  | (i, r) :: evs, st', hr => by
    simp only [Removing.run, Option.bind_eq_some] at hr
    obtain ⟨st₁, h₁, hr⟩ := hr
    obtain ⟨hnone, hres⟩ := Removing.step_results h₁
    obtain ⟨hinv, hkeep, hset, horig⟩ := (h.step h₁).run hr
    refine ⟨hinv, fun j r' hj => hkeep j r' ?_, fun j r' hj => ?_, fun j r' hj => ?_⟩
    · rw [hres, Function.update_apply, if_neg]; exacts [hj, by rintro rfl; rw [hnone] at hj; cases hj]
    · rcases List.mem_cons.1 hj with hj | hj
      · cases hj; exact hkeep i r (by rw [hres, Function.update_same])
      · exact hset j r' hj
    · rcases horig j r' hj with h' | h'
      · rw [hres, Function.update_apply] at h'
        split_ifs at h' with hji
        · cases h'; subst hji; exact .inr (.head _)
        · exact .inl h'
      · exact .inr (.tail _ h')

end Invariant

/-! ## Every order of completion -/

/-- **Without errors, one reply and every removal announced.** Whatever order the calls come
back in, once all `n` have come back and none with an error, `remove_posts` has called its
callback exactly once, and each post a call removed from its thread's reply list is in the one
`DELETE_POSTS` update of that thread. -/
theorem Removing.run_complete (c : Common) (n : Nat) {evs : List (Nat × Removal)}
    {st : Removing} (hr : (Removing.start c n).run c n evs = some st)
    (hall : ∀ i, i < n → ∃ r, (i, r) ∈ evs) (hok : ∀ i e, (i, .failed e) ∉ evs) :
    st.replies = [none] ∧
      ∀ i op num, st.results i = some (.removed op num) →
        ∃ nums, st.logged.filter (fun g => g.1 = op) = [(op, nums)] ∧ num ∈ nums := by
  obtain ⟨h, -, hset, horig⟩ := removingInv_start.run hr
  -- every slot holds a result some call returned, none of them an error
  have hfrom : ∀ i r, st.results i = some r → (i, r) ∈ evs := fun i r hi => by
    rcases horig i r hi with h' | h'
    · rw [Removing.start_results] at h'; cases h'
    · exact h'
  have hcounted : ∀ i, i < n → Removal.counted (st.results i) = true := fun i hi => by
    obtain ⟨r, hr⟩ := hall i hi
    rw [hset i r hr]
    cases r with
    | failed e => exact absurd hr (hok i e)
    | removed | gone => rfl
  have hfin : st.finished = true := by
    by_contra hf
    have hw := (h.waiting (by simpa using hf)).2.1
    have hcard : (st.countedSet n).card = n := by
      rw [Removing.countedSet, Finset.filter_true_of_mem fun i hi =>
        hcounted i (Finset.mem_range.1 hi), Finset.card_range]
    have := h.completed
    omega
  rcases h.called hfin with ⟨hrep, -, hlog⟩ | ⟨e, -, i, hi⟩
  · refine ⟨hrep, fun i op num hi => ?_⟩
    -- the removal is one of the deletions the block was built from
    have hdel : (op, num) ∈ st.dels n :=
      List.mem_filterMap.2 ⟨_, List.mem_filterMap.2 ⟨i, List.mem_range.2 (h.lt_of_results hi),
        hi⟩, rfl⟩
    rw [hlog, groupByThread_filter hdel]
    exact ⟨_, rfl, List.mem_map.2 ⟨(op, num), List.mem_filter.2 ⟨hdel, by simp⟩, rfl⟩⟩
  · exact absurd (hfrom i _ hi) (hok i e)

/-- **An error makes `remove_posts` call back twice.** Whatever order the calls come back in,
once a call has come back with an error, `callback` has been called twice: first with an
error a call returned, then with the reply of `EXEC`. -/
theorem Removing.run_failed (c : Common) (n : Nat) {evs : List (Nat × Removal)}
    {st : Removing} (hr : (Removing.start c n).run c n evs = some st) {i : Nat} {e : Str}
    (he : (i, .failed e) ∈ evs) : ∃ e', st.replies = [some e', none] := by
  obtain ⟨h, -, hset, -⟩ := removingInv_start.run hr
  have hi := hset i _ he
  have hfin : st.finished = true := by
    by_contra hf
    exact (h.waiting (by simpa using hf)).2.2 i e hi
  rcases h.called hfin with ⟨-, hall, -⟩ | ⟨e', hrep, -⟩
  · have := hall i (h.lt_of_results hi)
    rw [hi] at this
    cases this
  · exact ⟨e', hrep⟩

/-- `remove_posts([5, 6])`, with post 5 unknown to `OPs` and post 6 a reply in thread 1: the
first call fails at once with 'No such post.', the second removes post 6 from the reply list
of thread 1. `callback` is called twice, and post 6 is in no `DELETE_POSTS` update. -/
theorem removePosts_error_loses_removal :
    ((Removing.start Common.sample 2).run Common.sample 2
        [(0, .failed "No such post.".toList), (1, .removed 1 6)]).map
      (fun st => (st.replies, st.logged, st.results 1)) =
      some ([some "No such post.".toList, none], [], some (.removed 1 6)) := by
  simp [Removing.start, Removing.run, Removing.step, Removing.done, Removing.dels, Removal.del?,
    removePostsBatch, groupByThread, Function.update_apply, List.range_succ, List.mapM.loop, pure, Except.pure]

end Shamichan.Db

import Shamichan.Db.Js

/-!
# Shamichan — the join of `forEachInObject`

`forEachInObject(obj, f, callback)` calls `f(k, cb)` for each own key `k` of `obj`, counting
them in `total`, and calls `callback` once `complete` has caught up with `total` after the loop
set `done`. `f` may call `cb` inside itself, before the loop goes on, or later, from the event
loop, in any order. The closure's variables are `Joining`; the final callback's calls are kept
as a ghost record, with the argument each call got.

The loop asks `obj.hasOwnProperty(k)`, which is `Object.prototype`'s method unless `obj` has a
key of that name: its value is then data, no function, and the call throws in the loop's first
turn.

* `forEachInObject_calls_back_once`: for every object that does not shadow `hasOwnProperty`,
  every choice of which keys call back at once and every order of the later calls, the final
  callback has not been called while a per-key callback is still to come, and once every own
  key called back exactly once it has been called exactly once, with `null` if no call reported
  an error and otherwise every reported error, in the order they came;
* `forEachInObject_hasOwnProperty_throws`: for an object that does, `forEachInObject` throws
  before it calls `f`, and the final callback is never called.
-/

namespace Shamichan.Db

open Js

/-- The variables of one `forEachInObject` call, and (ghost) the arguments of the final
callback's calls so far, `none` for `null`. -/
structure Joining where
  total : Nat
  complete : Nat
  done : Bool
  errors : List Str
  calls : List (Option (List Str))

/-- What the final callback gets: `errors.length ? errors : null`. -/
def joinResult (errors : List Str) : Option (List Str) :=
  if errors = [] then none else some errors

namespace Joining

/-- `callback(errors.length ? errors : null)`. -/
def fire (st : Joining) : Joining := { st with calls := st.calls ++ [joinResult st.errors] }

/-- `cb(err)`, with `err` as `if (err)` reads it: `none` for a falsy value. -/
def cb (st : Joining) (err : Option Str) : Joining :=
  let st := { st with complete := st.complete + 1, errors := st.errors ++ err.toList }
  if st.done = true ∧ st.complete = st.total then st.fire else st

/-- The `for (var k in obj)` loop over the keys of `obj`, each with whether it is an own key
(what `obj.hasOwnProperty(k)` answers when `obj` does not shadow it): for each own key,
`total++` and `f(k, cb)`, which calls `cb(err)` before it returns when `f k = some err`, and
leaves the call for later when `f k = none`. -/
def loop (f : Str → Option (Option Str)) : List (Str × Bool) → Joining → Joining
  | [], st => st
  | (k, own) :: kvs, st =>
    if own then
      let st := { st with total := st.total + 1 }
      loop f kvs (match f k with
        | some err => st.cb err
        | none => st)
    else loop f kvs st

end Joining

/-- `forEachInObject(obj, f, callback)` up to its return: the loop, `done = true`, and the call
back when every key has already completed; or the `TypeError` of `obj.hasOwnProperty(k)` in the
loop's first turn, when `obj` shadows `hasOwnProperty`. `obj` is the keys `for (var k in obj)`
visits, in its order, each with whether it is an own key. -/
def forEachInObject (obj : List (Str × Bool)) (f : Str → Option (Option Str)) :
    Except Str Joining :=
  if shadowsHasOwnProperty (obj.map Prod.fst) then .error hasOwnPropertyError else
  let st := { Joining.loop f obj ⟨0, 0, false, [], []⟩ with done := true }
  .ok (if st.complete = st.total then st.fire else st)

/-- The own keys whose callback `f` leaves for later. -/
def asyncKeys (obj : List (Str × Bool)) (f : Str → Option (Option Str)) : List Str :=
  (obj.filter fun kv => kv.2 && (f kv.1).isNone).map Prod.fst

/-- The errors the callbacks `f` calls at once report, in key order. -/
def syncErrors (obj : List (Str × Bool)) (f : Str → Option (Option Str)) : List Str :=
  obj.filterMap fun kv => if kv.2 then (f kv.1).join else none

/-- The per-key callback of `fetch_backlogs`: `cb(null)` at once for `live`, and for a thread
the callback of its `LRANGE`, later. -/
def fetchBacklogsSync (thread : Str) : Option (Option Str) :=
  if thread = "live".toList then some none else none

/-- The join after the call returned, with the keys whose callback is still to come. -/
structure Join where
  st : Joining
  pending : List Str

namespace Join

/-- The state when `forEachInObject` returns; when it throws, the closure as it was before the
loop's first turn, with no key's callback to come. -/
def init (obj : List (Str × Bool)) (f : Str → Option (Option Str)) : Join :=
  match forEachInObject obj f with
  | .ok st => ⟨st, asyncKeys obj f⟩
  | .error _ => ⟨⟨0, 0, false, [], []⟩, []⟩

/-- A later `cb(err)`, from key `k`: `none` unless `k`'s callback is still to come. -/
def step (j : Join) (k : Str) (err : Option Str) : Option Join :=
  if k ∈ j.pending then some ⟨j.st.cb err, j.pending.erase k⟩ else none

/-- The later callbacks, in the order they come. -/
def run (j : Join) : List (Str × Option Str) → Option Join
  | [] => some j
  | (k, err) :: evs => (j.step k err).bind (·.run evs)

end Join

/-! ## The loop -/

namespace Joining

@[simp] theorem cb_done (st : Joining) (err : Option Str) : (st.cb err).done = st.done := by
  simp only [cb]; split_ifs <;> rfl
@[simp] theorem cb_total (st : Joining) (err : Option Str) : (st.cb err).total = st.total := by
  simp only [cb]; split_ifs <;> rfl
@[simp] theorem cb_complete (st : Joining) (err : Option Str) :
    (st.cb err).complete = st.complete + 1 := by
  simp only [cb]; split_ifs <;> rfl
@[simp] theorem cb_errors (st : Joining) (err : Option Str) :
    (st.cb err).errors = st.errors ++ err.toList := by
  simp only [cb]; split_ifs <;> rfl
theorem cb_calls (st : Joining) (err : Option Str) :
    (st.cb err).calls = if st.done = true ∧ st.complete + 1 = st.total then
      st.calls ++ [joinResult (st.errors ++ err.toList)] else st.calls := by
  simp only [cb]; split_ifs <;> rfl

/-- Before `done` is set, `cb` counts and collects but never calls back. -/
theorem cb_of_not_done {st : Joining} (hd : st.done = false) (err : Option Str) :
    st.cb err = { st with complete := st.complete + 1, errors := st.errors ++ err.toList } := by
  simp [cb, hd]

/-- The loop counts every own key in `total`, and in `complete` every one whose callback `f`
calls at once, whose errors it collects in key order; it calls nothing back. -/
theorem loop_spec (f : Str → Option (Option Str)) :
    ∀ (obj : List (Str × Bool)) (st : Joining), st.done = false →
      (loop f obj st).done = false ∧ (loop f obj st).calls = st.calls ∧
        (loop f obj st).complete + (asyncKeys obj f).length + st.total =
          (loop f obj st).total + st.complete ∧
        (loop f obj st).errors = st.errors ++ syncErrors obj f
  | [], st, hd => by simp [loop, hd, asyncKeys, syncErrors, Nat.add_comm]
  | (k, false) :: kvs, st, hd => by
    have e2 : asyncKeys ((k, false) :: kvs) f = asyncKeys kvs f := by simp [asyncKeys]
    have e3 : syncErrors ((k, false) :: kvs) f = syncErrors kvs f := by simp [syncErrors]
    rw [e2, e3]
    exact loop_spec f kvs st hd
  | (k, true) :: kvs, st, hd => by
    cases hk : f k with
    | none =>
      -- the call is left for later: counted in `total` only
      have e1 : loop f ((k, true) :: kvs) st = loop f kvs { st with total := st.total + 1 } := by
        simp [loop, hk]
      have e2 : asyncKeys ((k, true) :: kvs) f = k :: asyncKeys kvs f := by simp [asyncKeys, hk]
      have e3 : syncErrors ((k, true) :: kvs) f = syncErrors kvs f := by simp [syncErrors, hk]
      obtain ⟨h1, h2, h3, h4⟩ := loop_spec f kvs { st with total := st.total + 1 } hd
      rw [e1, e2, e3]
      refine ⟨h1, h2, ?_, h4⟩
      simp only [List.length_cons] at h3 ⊢
      omega
    | some err =>
      -- `cb(err)` inside `f`: counted in both, its error collected
      have e1 : loop f ((k, true) :: kvs) st = loop f kvs { st with
          total := st.total + 1, complete := st.complete + 1, errors := st.errors ++ err.toList } := by
        simp [loop, hk, cb, hd]
      have e2 : asyncKeys ((k, true) :: kvs) f = asyncKeys kvs f := by simp [asyncKeys, hk]
      have e3 : syncErrors ((k, true) :: kvs) f = err.toList ++ syncErrors kvs f := by
        cases err <;> simp [syncErrors, hk]
      obtain ⟨h1, h2, h3, h4⟩ := loop_spec f kvs { st with
          total := st.total + 1, complete := st.complete + 1, errors := st.errors ++ err.toList } hd
      rw [e1, e2, e3]
      refine ⟨h1, h2, ?_, by rw [h4, List.append_assoc]⟩
      dsimp only at h3
      omega

end Joining

/-! ## Every order of the later callbacks -/

/-- What holds once `forEachInObject` has returned, after any later callbacks: `done` is set,
`total` counts the completed and the pending keys, and the final callback was called once,
with the errors collected, exactly when no key is pending, and not at all before. -/
structure JoinInv (j : Join) : Prop where
  done : j.st.done = true
  count : j.st.total = j.st.complete + j.pending.length
  calls : j.st.calls = if j.pending = [] then [joinResult j.st.errors] else []

/-- When `forEachInObject` returns, the keys `f` left for later are pending. -/
theorem Join.init_pending {obj : List (Str × Bool)}
    (ho : shadowsHasOwnProperty (obj.map Prod.fst) = false) (f : Str → Option (Option Str)) :
    (Join.init obj f).pending = asyncKeys obj f := by
  unfold Join.init forEachInObject
  simp only [ho, Bool.false_eq_true, if_false]

theorem joinInv_init (obj : List (Str × Bool)) (f : Str → Option (Option Str))
    (ho : shadowsHasOwnProperty (obj.map Prod.fst) = false) :
    JoinInv (Join.init obj f) ∧ (Join.init obj f).st.errors = syncErrors obj f := by
  obtain ⟨-, hc, hn, he⟩ := Joining.loop_spec f obj ⟨0, 0, false, [], []⟩ rfl
  simp only [Nat.add_zero] at hn
  unfold Join.init forEachInObject
  simp only [ho, Bool.false_eq_true, if_false]
  split_ifs with h
  · have hp : asyncKeys obj f = [] := List.length_eq_zero.1 (by omega)
    refine ⟨⟨rfl, by simp [Joining.fire, hp]; omega, ?_⟩, by simpa [Joining.fire] using he⟩
    simp [Joining.fire, hp, hc, he]
  · have hp : asyncKeys obj f ≠ [] := fun hp => h (by simp [hp] at hn; omega)
    exact ⟨⟨rfl, by simp; omega, by simp [hp, hc]⟩, by simpa using he⟩

/-- **One later callback keeps the invariant**: it collects its error, and the final callback
is called when it is the last key. -/
theorem JoinInv.step {j j' : Join} (h : JoinInv j) {k : Str} {err : Option Str}
    (hs : j.step k err = some j') :
    JoinInv j' ∧ j'.st.errors = j.st.errors ++ err.toList ∧ (k :: j'.pending).Perm j.pending := by
  unfold Join.step at hs
  split_ifs at hs with hk
  cases hs
  have hlen := List.length_erase_of_mem hk
  have hpos : 0 < j.pending.length := List.length_pos_of_mem hk
  have hcount := h.count
  have hcalls : j.st.calls = [] := by rw [h.calls, if_neg (List.ne_nil_of_mem hk)]
  -- the last pending key is the one whose call makes `complete` reach `total`
  have hlast : j.pending.erase k = [] ↔ j.st.complete + 1 = j.st.total := by
    rw [← List.length_eq_zero, hlen]; omega
  refine ⟨⟨by simp [h.done], by simp; omega, ?_⟩, by simp, by
    convert (List.perm_cons_erase hk).symm using 4⟩
  simp only [Joining.cb_calls, Joining.cb_errors, hcalls, h.done, true_and, ← hlast,
    List.nil_append]

/-- **Every order of later callbacks keeps the invariant**, collects their errors in order,
and takes each key it names off the pending ones. -/
theorem JoinInv.run {j : Join} (h : JoinInv j) :
    ∀ {evs : List (Str × Option Str)} {j' : Join}, j.run evs = some j' →
      JoinInv j' ∧ j'.st.errors = j.st.errors ++ evs.filterMap Prod.snd ∧
        (evs.map Prod.fst ++ j'.pending).Perm j.pending
  | [], j', hr => by cases hr; exact ⟨h, by simp, .refl _⟩
  | (k, err) :: evs, j', hr => by
    obtain ⟨j₁, h₁, hr⟩ := Option.bind_eq_some.1 hr
    obtain ⟨hinv₁, he₁, hp₁⟩ := h.step h₁
    obtain ⟨hinv, he, hp⟩ := hinv₁.run hr
    refine ⟨hinv, ?_, ?_⟩
    · rw [he, he₁]; cases err <;> simp
    · exact (hp.cons k).trans hp₁

/-- **`forEachInObject` calls back once, after every key.** For every object that does not
shadow `hasOwnProperty`, every choice of which own keys `f` calls back at once and every order of the later calls: while some own key's
callback is still to come the final callback has not been called; once every own key called
back exactly once (the later calls name each key `f` left for later once), it has been called
exactly once, with `null` if no call reported an error and otherwise with every reported error,
those of the immediate calls in key order and then those of the later calls in their order. -/
theorem forEachInObject_calls_back_once {obj : List (Str × Bool)}
    (ho : shadowsHasOwnProperty (obj.map Prod.fst) = false)
    {f : Str → Option (Option Str)} {evs : List (Str × Option Str)} {j : Join}
    (h : (Join.init obj f).run evs = some j) :
    ((evs.map Prod.fst).Perm (asyncKeys obj f) →
        j.st.calls = [joinResult (syncErrors obj f ++ evs.filterMap Prod.snd)]) ∧
      (¬(evs.map Prod.fst).Perm (asyncKeys obj f) → j.st.calls = []) := by
  obtain ⟨hinv₀, he₀⟩ := joinInv_init obj f ho
  obtain ⟨hinv, he, hp⟩ := hinv₀.run h
  rw [Join.init_pending ho] at hp
  have hcalls := hinv.calls
  rw [he, he₀] at hcalls
  -- no key is pending exactly when the later calls covered the keys left for later
  have hpend : j.pending = [] ↔ (evs.map Prod.fst).Perm (asyncKeys obj f) := by
    refine ⟨fun h0 => by simpa [h0] using hp, fun hperm => ?_⟩
    have := (hp.trans hperm.symm).length_eq
    simp only [List.length_append] at this
    exact List.length_eq_zero.1 (by omega)
  refine ⟨fun hperm => ?_, fun hperm => ?_⟩
  · rw [hcalls, if_pos (hpend.2 hperm)]
  · rw [hcalls, if_neg (mt hpend.1 hperm)]

/-! ## An object that shadows `hasOwnProperty` -/

/-- The join when `forEachInObject` threw. -/
theorem Join.init_of_shadows {obj : List (Str × Bool)}
    (ho : shadowsHasOwnProperty (obj.map Prod.fst) = true) (f : Str → Option (Option Str)) :
    Join.init obj f = ⟨⟨0, 0, false, [], []⟩, []⟩ := by
  unfold Join.init forEachInObject
  rw [if_pos ho]

/-- With no key pending, no later callback can come. -/
theorem Join.run_of_pending_nil {j j' : Join} (hp : j.pending = []) :
    ∀ {evs : List (Str × Option Str)}, j.run evs = some j' → evs = [] ∧ j' = j
  | [], h => ⟨rfl, (Option.some.inj h).symm⟩
  | (k, err) :: evs, h => by simp [Join.run, Join.step, hp] at h

/-- **An object that shadows `hasOwnProperty` breaks the join.** `obj.hasOwnProperty(k)` throws
in the loop's first turn: `f` is never called, so no per-key callback comes, and the final
callback is never called. -/
theorem forEachInObject_hasOwnProperty_throws {obj : List (Str × Bool)}
    (ho : shadowsHasOwnProperty (obj.map Prod.fst) = true) (f : Str → Option (Option Str)) :
    forEachInObject obj f = .error hasOwnPropertyError ∧
      ∀ evs j, (Join.init obj f).run evs = some j → evs = [] ∧ j.st.calls = [] := by
  refine ⟨if_pos ho, fun evs j h => ?_⟩
  rw [Join.init_of_shadows ho] at h
  obtain ⟨rfl, rfl⟩ := Join.run_of_pending_nil rfl h
  exact ⟨rfl, rfl⟩

/-- `fetch_backlogs` on `{1: 0, hasOwnProperty: 0}`. -/
theorem forEachInObject_hasOwnProperty_throws_sample :
    shadowsHasOwnProperty
        ([("1".toList, true), ("hasOwnProperty".toList, true)].map Prod.fst) = true ∧
      forEachInObject [("1".toList, true), ("hasOwnProperty".toList, true)] fetchBacklogsSync =
        .error hasOwnPropertyError ∧
      ∀ evs j, (Join.init [("1".toList, true), ("hasOwnProperty".toList, true)]
          fetchBacklogsSync).run evs = some j → evs = [] ∧ j.st.calls = [] :=
  ⟨by decide, forEachInObject_hasOwnProperty_throws (by decide) fetchBacklogsSync⟩

/-- Thread 1 not answered yet: no call back. -/
example : ((Join.init [("live".toList, true), ("1".toList, true), ("2".toList, true)]
    fetchBacklogsSync).run [("2".toList, none)]).map (·.st.calls) = some [] := by decide

/-- The empty object: `callback(null)` before `forEachInObject` returns. -/
example : (Join.init [] fetchBacklogsSync).st.calls = [none] := by decide

end Shamichan.Db

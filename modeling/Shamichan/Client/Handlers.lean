import Shamichan.Client.MeguTv

/-!
# Shamichan — the handlers of the megu-tv script

`persistMessages` installs the handler of `meguTV` messages: it sets `lastStart` and the
playlist, and renders when `options.meguTV` is on. The module's default export, on a thread page
of a board other than `all` with no `#megu-tv` yet, renders once and registers two handlers of
option changes: turning `meguTV` on renders when `#megu-tv` is missing, turning it off removes
`#megu-tv`; turning work mode on mutes every child and renders (which then only drops the
style), turning it off renders, restores the style and unmutes the first child, which throws
when `#megu-tv` has no child. Each run of the default export registers the handlers again;
`options.onChange` (not in the source) is taken to call them in order, a throw stopping the
rest.

* `Script.Inv`, `Script.Inv.step`: the page stays well formed and every child of `#megu-tv`
  but the first is muted and hidden, whatever the event;
* `script_one_audible`: so in every run of the script, at most one video is heard or seen.
-/

namespace Shamichan.Client

open Js

/-- What the script reads of the page it runs on. -/
structure PageInfo where
  /-- `page.board === "all"` -/
  boardAll : Bool
  /-- `page.thread` is set -/
  thread : Bool

/-- The script's state: the page, `playlist` and `lastStart`, the two options, how many times
the option handlers were registered, and what the handlers threw. -/
structure Script where
  page : Page
  playlist : Option (List Str)
  lastStart : Int
  meguTV : Bool
  workMode : Bool
  handlers : Nat
  thrown : List Str

/-- The script before anything ran, with the options as stored. -/
def Script.initial (meguTV workMode : Bool) : Script :=
  ⟨Page.initial, none, 0, meguTV, workMode, 0, []⟩

/-- What happens to the script, `now` being `serverNow()` at that moment. -/
inductive ScriptEvent where
  /-- the module's default export runs -/
  | init (now : Int)
  /-- a `meguTV` message with `elapsed` and the playlist's URLs -/
  | message (now elapsed : Int) (urls : List Str)
  /-- the option `meguTV` is set to `enabled` -/
  | setMeguTV (enabled : Bool) (now : Int)
  /-- the option `workModeToggle` is set to `enabled` -/
  | setWorkMode (enabled : Bool) (now : Int)

/-- `render()` in the script's state: the position is `serverNow() - lastStart`. -/
def Script.renderAt (now : Int) (cl : Script) : Page :=
  render cl.playlist cl.workMode (now - cl.lastStart) cl.page

/-- The `meguTV` handler, the option now `enabled`: render when `#megu-tv` is missing, or remove
it. -/
def Script.onMeguTV (cfg : PageInfo) (enabled : Bool) (now : Int) (cl : Script) :
    Script × Option Str :=
  if enabled && !cfg.boardAll then
    (if cl.page.container.isNone then { cl with page := cl.renderAt now } else cl, none)
  else ({ cl with page := { cl.page with container := none } }, none)

/-- The `workModeToggle` handler, the option now `enabled`, when `#megu-tv` exists: on, every child
muted, then `render()`; off, `render()`, the style back, and the first child unmuted, a
`TypeError` when there is none. -/
def Script.onWorkMode (enabled : Bool) (now : Int) (cl : Script) : Script × Option Str :=
  match cl.page.container with
  | none => (cl, none)
  | some kids =>
    if enabled then
      let videos := fun x =>
        if x ∈ kids then { cl.page.videos x with muted := true } else cl.page.videos x
      ({ cl with page := ({ cl with page := { cl.page with videos := videos } }).renderAt now },
        none)
    else
      let pg := { cl.renderAt now with styled := true }
      match pg.container.bind List.head? with
      | some x =>
        ({ cl with page := { pg with
            videos := Function.update pg.videos x { pg.videos x with muted := false } } }, none)
      | none => ({ cl with page := pg }, some "TypeError".toList)

/-- `options.onChange` calling the `n` registered handlers in order, the first that throws
stopping the others. -/
def runHandlers (handler : Script → Script × Option Str) : Nat → Script → Script × Option Str
  | 0, cl => (cl, none)
  | n + 1, cl =>
    match handler cl with
    | (cl, none) => runHandlers handler n cl
    | (cl, some e) => (cl, some e)

/-- The option set, then its handlers, what they throw recorded. -/
def Script.change (handler : Script → Script × Option Str) (cl : Script) : Script :=
  let (cl, e) := runHandlers handler cl.handlers cl
  { cl with thrown := cl.thrown ++ e.toList }

/-- One event. -/
def Script.step (cfg : PageInfo) (cl : Script) : ScriptEvent → Script
  | .init now =>
    if cl.page.container.isSome || cfg.boardAll || !cfg.thread then cl
    else { cl with page := cl.renderAt now, handlers := cl.handlers + 1 }
  | .message now elapsed urls =>
    let cl := { cl with lastStart := now - elapsed, playlist := some urls }
    if cl.meguTV then { cl with page := cl.renderAt now } else cl
  | .setMeguTV enabled now => Script.change (Script.onMeguTV cfg enabled now) { cl with meguTV := enabled }
  | .setWorkMode enabled now => Script.change (Script.onWorkMode enabled now) { cl with workMode := enabled }

/-- The events in the order they happen. -/
def Script.run (cfg : PageInfo) (cl : Script) (evs : List ScriptEvent) : Script :=
  evs.foldl (Script.step cfg) cl

/-! ## At most one video is heard or seen -/

/-- Every child of `#megu-tv` but the first is muted and hidden. -/
def Page.Quiet (pg : Page) : Prop :=
  ∀ kids, pg.container = some kids → ∀ x ∈ kids.tail,
    (pg.videos x).muted = true ∧ (pg.videos x).hidden = true

/-- Every render keeps `Page.Quiet`: out of work mode it mutes and hides every child but the
first, in work mode it changes no child. -/
theorem render_quiet {pg : Page} (hwf : pg.WF) (hq : pg.Quiet) (playlist : Option (List Str))
    (workMode : Bool) (time : Int) : (render playlist workMode time pg).Quiet := by
  cases playlist with
  | none => exact hq
  | some pl =>
    cases workMode with
    | false =>
      rw [render_eq]
      rintro kids ⟨⟩
      exact (hwf.placeFrom pl time).quiet
    | true =>
      intro kids hk
      unfold render at hk
      cases hc : pg.container <;> simp only [hc, if_true, Option.some.injEq] at hk <;> subst hk
      exacts [nofun, hq _ hc]

/-- The page well formed, and every child of `#megu-tv` but the first muted and hidden. -/
structure Page.Inv (pg : Page) : Prop where
  wf : pg.WF
  quiet : pg.Quiet

/-- What the script keeps: `Page.Inv` of its page. -/
def Script.Inv (sc : Script) : Prop := sc.page.Inv

theorem Page.Inv.render {pg : Page} (h : pg.Inv) (playlist : Option (List Str))
    (workMode : Bool) (time : Int) : (render playlist workMode time pg).Inv :=
  ⟨render_wf h.wf _ _ _, render_quiet h.wf h.quiet _ _ _⟩

theorem Script.Inv.onMeguTV (cfg : PageInfo) (enabled : Bool) (now : Int) {sc : Script}
    (h : sc.Inv) : (Script.onMeguTV cfg enabled now sc).1.Inv := by
  unfold Script.onMeguTV
  split_ifs
  exacts [h.render _ _ _, h, ⟨nofun, nofun⟩]

theorem Script.Inv.onWorkMode (enabled : Bool) (now : Int) {sc : Script} (h : sc.Inv) :
    (Script.onWorkMode enabled now sc).1.Inv := by
  unfold Script.onWorkMode
  split
  · exact h
  · next kids hc =>
    dsimp only
    split_ifs
    · -- every child muted, then a render
      show Page.Inv (render _ _ _ _)
      refine Page.Inv.render ?_ _ _ _
      refine ⟨h.wf, fun kids' hk x hx => ?_⟩
      dsimp only at hk ⊢
      rw [hc] at hk
      cases hk
      simpa [List.mem_of_mem_tail hx] using (h.quiet kids hc x hx).2
    · have h' : (sc.renderAt now).Inv := h.render _ _ _
      split
      · next x hx =>
        -- the first child unmuted: no other child is it
        refine ⟨h'.wf, fun kids' hk y hy => ?_⟩
        dsimp only at hx hk ⊢
        rw [hk, Option.some_bind] at hx
        obtain ⟨rest, rfl⟩ := List.head?_eq_some_iff.1 hx
        have hne : y ≠ x := fun he => (h'.wf _ hk).1.not_mem (he ▸ hy)
        rw [Function.update_noteq hne]
        exact h'.quiet _ hk y hy
      · exact ⟨h'.wf, h'.quiet⟩

theorem Script.Inv.runHandlers {handler : Script → Script × Option Str}
    (hh : ∀ sc, sc.Inv → (handler sc).1.Inv) : ∀ (n : Nat) {sc : Script}, sc.Inv →
      (Shamichan.Client.runHandlers handler n sc).1.Inv
  | 0, _, h => h
  | n + 1, sc, h => by
    unfold Shamichan.Client.runHandlers
    split
    · next sc' heq =>
      have h' := hh sc h
      rw [heq] at h'
      exact Script.Inv.runHandlers hh n h'
    · next sc' e heq =>
      have h' := hh sc h
      rwa [heq] at h'

/-- **Every event keeps the invariant.** -/
theorem Script.Inv.step (cfg : PageInfo) {sc : Script} (h : sc.Inv) (ev : ScriptEvent) :
    (sc.step cfg ev).Inv := by
  cases ev with
  | init now =>
    dsimp only [Script.step]
    split_ifs
    exacts [h, Page.Inv.render h _ _ _]
  | message now elapsed urls =>
    dsimp only [Script.step]
    split_ifs
    · exact Page.Inv.render h (some urls) sc.workMode _
    · exact h
  | setMeguTV enabled now =>
    exact @Script.Inv.runHandlers _ (fun _ => Script.Inv.onMeguTV cfg enabled now) sc.handlers
      { sc with meguTV := enabled } h
  | setWorkMode enabled now =>
    exact @Script.Inv.runHandlers _ (fun _ => Script.Inv.onWorkMode enabled now) sc.handlers
      { sc with workMode := enabled } h

theorem Script.Inv.run (cfg : PageInfo) : ∀ (evs : List ScriptEvent) {sc : Script}, sc.Inv →
    (sc.run cfg evs).Inv
  | [], _, h => h
  | ev :: evs, _, h => Script.Inv.run cfg evs (h.step cfg ev)

/-- **At most one video is heard or seen.** In every run of the megu-tv script, whatever
messages come, whatever the options are set to and however often the module runs, every child
of `#megu-tv` but the first is muted and hidden. -/
theorem script_one_audible (cfg : PageInfo) (meguTV workMode : Bool) (evs : List ScriptEvent) :
    ∀ x ∈ (((Script.initial meguTV workMode).run cfg evs).page.container.getD []).tail,
      (((Script.initial meguTV workMode).run cfg evs).page.videos x).muted = true ∧
        (((Script.initial meguTV workMode).run cfg evs).page.videos x).hidden = true := by
  have h : ((Script.initial meguTV workMode).run cfg evs).Inv :=
    Script.Inv.run cfg evs ⟨Page.initial_wf, fun _ hk => by cases hk⟩
  cases hc : ((Script.initial meguTV workMode).run cfg evs).page.container with
  | none => exact nofun
  | some kids => exact h.quiet kids hc

/-- A thread page with `meguTV` on: the module runs, a playlist of two videos comes, work mode
is turned on and off again. -/
def sampleEvents : List ScriptEvent :=
  [.init 0, .message 5 2 ["a".toList, "b".toList], .setWorkMode true 6, .setWorkMode false 8]

theorem script_one_audible_sample :
    1 ∈ (((Script.initial true false).run ⟨false, true⟩ sampleEvents).page.container.getD []).tail ∧
      (((Script.initial true false).run ⟨false, true⟩ sampleEvents).page.videos 1).muted = true ∧
      (((Script.initial true false).run ⟨false, true⟩ sampleEvents).page.videos 1).hidden = true :=
  ⟨by decide, script_one_audible ⟨false, true⟩ true false sampleEvents 1 (by decide)⟩

end Shamichan.Client

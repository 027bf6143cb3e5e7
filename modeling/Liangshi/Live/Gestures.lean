import Liangshi.Live.MousePage

/-!
# Gestures

A gesture is a press of the left button, moves and a release, all in one drawing mode and on a page
that is not locked.  `track` follows the gesture that is under way from the events alone.

The release of a gesture makes an element of its points, if any.  A release that ends no gesture makes
one of the points that are left from the gesture before: the second release of a double click, and one
after the mode or the lock has been changed.  Such a release adds nothing exactly when the points that
are left make no element (`addsRightly_iff`).
-/

namespace Liangshi

open Wire Ordered Transition

/-- A gesture: its mode, where it began, and the points so far. -/
structure Gesture where
  mode : DrawMode
  start : SPoint
  points : List SPoint
deriving DecidableEq

/-- The gesture that is under way after an event on a page. -/
def track (s : MousePage) (gesture : Option Gesture) : MouseEvent → Option Gesture
  | .press left pos _ =>
    if left then
      if s.page.disableDraw ∨ s.mode = .select then none else some ⟨s.mode, pos, [pos]⟩
    else gesture
  | .move _ pos _ => gesture.map fun g => { g with points := g.points ++ [pos] }
  | .release left _ _ _ => if left then none else gesture
  | .setMode mode => if s.page.disableDraw ∨ mode = s.mode then gesture else none
  | .setEnable enable => if enable then gesture else none
  | .doubleClick _ _ _ _ _ | .reviseDraw _ => gesture

namespace Gesture

/-- An element that is made of a gesture alone, when it is released at a position. -/
inductive Makes (toVector : List SPoint → List SPoint) (g : Gesture) (pos : SPoint) :
    ElementBody → Prop
  | draw (mode : g.mode = .draw) : Makes toVector g pos (.draw (toVector g.points))
  | originalDraw (mode : g.mode = .draw) : Makes toVector g pos (.originalDraw g.points)
  | line (mode : g.mode = .line) : Makes toVector g pos (.line g.start pos)
  | rect (mode : g.mode = .rect) : Makes toVector g pos (.rect g.start pos)
  | perfectRect (mode : g.mode = .perfectRect) :
    Makes toVector g pos (.rect g.start (getPerfectPoint g.start pos))
  | ellipse (mode : g.mode = .ellipse) : Makes toVector g pos (.ellipse g.start pos)
  | perfectEllipse (mode : g.mode = .perfectEllipse) :
    Makes toVector g pos (.ellipse g.start (getPerfectPoint g.start pos))

/-- The gesture that is under way on a page. -/
structure Tracks (s : MousePage) (g : Gesture) : Prop where
  isDrawing : s.isDrawing = true
  unlocked : s.page.disableDraw = false
  mode : s.mode = g.mode
  draws : g.mode ≠ .select
  movingPoints : g.mode = .draw → s.movingPoints = g.points
  clickPoint : g.mode ≠ .draw → s.clickPoint = g.start

end Gesture

/-- A page with the gesture that is under way. -/
structure Drawing where
  mouse : MousePage
  gesture : Option Gesture

namespace Drawing

/-- What an event does. -/
def next (toVector : List SPoint → List SPoint) (s : Drawing) (e : MouseEvent) : Drawing :=
  ⟨s.mouse.next toVector e, track s.mouse s.gesture e⟩

/-- A release adds nothing, or it ends a gesture and adds one element that is made of the gesture. -/
def AddsRightly (toVector : List SPoint → List SPoint) (s : Drawing) (e : MouseEvent) : Prop :=
  match e with
  | .release left pos p _ =>
    let after := (s.next toVector e).mouse.page
    after.allElements = s.mouse.page.allElements ∨
      left ∧ ∃ g body, s.gesture = some g ∧ g.Makes toVector pos body ∧
        after.allElements = s.mouse.page.allElements.insert p ∧
        (after.element p).map (·.body) = some body
  | _ => True

/-- The points that are left make no element at a position. -/
def LeavesNothing (toVector : List SPoint → List SPoint) (s : MousePage) (pos : SPoint) : Prop :=
  match s.mode with
  | .draw => s.reviseDraw ∧ toVector s.movingPoints = []
  | .line | .rect | .ellipse => s.clickPoint = pos
  | .perfectRect | .perfectEllipse => s.clickPoint = getPerfectPoint s.clickPoint pos
  | .select => True

/-- A release of the left button on a page that is not locked ends a gesture, or the points that are
left make no element. -/
def EndsGesture (toVector : List SPoint → List SPoint) (s : Drawing) (e : MouseEvent) : Prop :=
  match e with
  | .release left pos _ _ => left → s.mouse.page.disableDraw = false → s.gesture = none →
    LeavesNothing toVector s.mouse pos
  | _ => True

/-- The gesture that is tracked is the one the page keeps points of. -/
def Tracked (s : Drawing) : Prop := ∀ g, s.gesture = some g → g.Tracks s.mouse

end Drawing

/-- The histories of a page under the mouse. -/
def drawing (toVector : List SPoint → List SPoint) (uuid : Bytes) : System Drawing MouseEvent where
  init s := s = ⟨.new uuid, none⟩
  step s e t := s.mouse.Allocates e ∧ t = s.next toVector e

/-! ## Steps -/

namespace Gesture

variable {s : MousePage} {g : Gesture}

/-- A page with other elements keeps the gesture. -/
lemma Tracks.of_page (h : g.Tracks s) {page : Page}
    (hlock : page.disableDraw = s.page.disableDraw) : g.Tracks { s with page } :=
  ⟨h.isDrawing, hlock.trans h.unlocked, h.mode, h.draws, h.movingPoints, h.clickPoint⟩

/-- A press of the left button begins a gesture on a page that is not locked. -/
lemma tracks_mousePressEvent {pos : SPoint} (hit : Element → Bool)
    (hlock : s.page.disableDraw = false) (hmode : s.mode ≠ .select) :
    (⟨s.mode, pos, [pos]⟩ : Gesture).Tracks (s.mousePressEvent true pos hit) := by
  have hpress : s.mousePressEvent true pos hit = { s with
      page := s.page.setMode, isDrawing := true, clickPoint := pos, movingPoints := [pos] } := by
    simp [MousePage.mousePressEvent, MousePage.setMode, hlock, hmode]
  rw [hpress]
  exact ⟨rfl, (Page.disableDraw_setMode _).trans hlock, rfl, hmode, fun _ => rfl, fun _ => rfl⟩

/-- A move adds a point to a gesture. -/
lemma Tracks.mouseMoveEvent (h : g.Tracks s) (control : Bool) (pos : SPoint)
    (hit : Element → Bool) :
    { g with points := g.points ++ [pos] }.Tracks (s.mouseMoveEvent control pos hit) := by
  unfold MousePage.mouseMoveEvent
  rw [if_pos h.isDrawing]
  by_cases hdraw : g.mode = .draw
  · rw [if_pos (h.mode.trans hdraw)]
    refine ⟨h.isDrawing, h.unlocked, h.mode, h.draws, fun _ => ?_, fun hnot => absurd hdraw hnot⟩
    exact congrArg (· ++ [pos]) (h.movingPoints hdraw)
  · rw [if_neg fun hmode => hdraw (h.mode.symm.trans hmode)]
    exact ⟨h.isDrawing, h.unlocked, h.mode, h.draws, fun hmode => absurd hmode hdraw, h.clickPoint⟩

end Gesture

namespace Drawing

variable {toVector : List SPoint → List SPoint} {s : Drawing}

/-- An event keeps track of the gesture. -/
lemma Tracked.next (h : s.Tracked) (e : MouseEvent) : (s.next toVector e).Tracked := by
  intro g hg
  change track s.mouse s.gesture e = some g at hg
  change g.Tracks (s.mouse.next toVector e)
  cases e with
  | press left pos hit =>
    simp only [track] at hg
    split_ifs at hg with hleft hblocked
    · obtain ⟨hlock, hmode⟩ := not_or.mp hblocked
      obtain rfl := Option.some.inj hg
      rw [MousePage.next, hleft]
      exact Gesture.tracks_mousePressEvent hit (Bool.eq_false_of_not_eq_true hlock) hmode
    · have hsame : s.mouse.mousePressEvent left pos hit = s.mouse := by
        simp [MousePage.mousePressEvent, hleft]
      rw [MousePage.next, hsame]
      exact h g hg
  | move control pos hit =>
    obtain ⟨g', hg', rfl⟩ := Option.map_eq_some_iff.mp hg
    exact (h g' hg').mouseMoveEvent control pos hit
  | release left pos p uuid =>
    simp only [track] at hg
    split_ifs at hg with hleft
    have hsame : s.mouse.mouseReleaseEvent toVector left pos p uuid = s.mouse := by
      simp [MousePage.mouseReleaseEvent, hleft]
    rw [MousePage.next, hsame]
    exact h g hg
  | doubleClick left control pos p uuid =>
    have htracks := h g hg
    have hmode : s.mouse.mode ≠ .select := fun heq => htracks.draws (htracks.mode.symm.trans heq)
    have hsame : s.mouse.mouseDoubleClickEvent left control pos p uuid = s.mouse := by
      simp [MousePage.mouseDoubleClickEvent, hmode]
    rw [MousePage.next, hsame]
    exact htracks
  | setMode mode =>
    simp only [track] at hg
    split_ifs at hg with hkept
    have htracks := h g hg
    rw [MousePage.next, MousePage.setMode]
    split_ifs with hlock
    · exact htracks
    · obtain rfl := hkept.resolve_left hlock
      exact htracks.of_page (Page.disableDraw_setMode _)
  | reviseDraw ok =>
    have htracks := h g hg
    exact ⟨htracks.isDrawing, htracks.unlocked, htracks.mode, htracks.draws, htracks.movingPoints,
      htracks.clickPoint⟩
  | setEnable enable =>
    simp only [track] at hg
    split_ifs at hg with henable
    have htracks := h g hg
    refine htracks.of_page ?_
    rw [Page.disableDraw_setEnable, henable, htracks.unlocked]
    rfl

/-! ## Releases -/

/-- The element at an address is of a class. -/
def HasBody (p : Pointer) (body : ElementBody) (page : Page) : Prop :=
  (page.element p).map (·.body) = some body

/-- A change of an element that keeps its class. -/
lemma HasBody.modify {p : Pointer} {body : ElementBody} {page : Page} (h : HasBody p body page)
    (q : Pointer) {change : Element → Element} (hchange : ∀ e, e.body = body → (change e).body = body) :
    HasBody p body (page.modify q change) := by
  obtain ⟨e, he, hbody⟩ := Option.map_eq_some_iff.mp h
  unfold HasBody Page.modify
  cases hq : page.element q with
  | none => exact h
  | some d =>
    dsimp only
    rw [Page.element_setElement]
    split_ifs with heq
    · obtain rfl := heq
      obtain rfl := Option.some.inj (he.symm.trans hq)
      exact congrArg some (hchange e hbody)
    · exact h

/-- A path keeps its class when the highlight goes. -/
lemma HasBody.deHighlightElement {p : Pointer} {body : ElementBody} {page : Page}
    (h : HasBody p body page) (hpath : body.isPath) : HasBody p body page.deHighlightElement := by
  have htyped : ∀ text, body.typed text = body := by
    intro text
    cases body <;> first | rfl | cases hpath
  have hhide : ∀ e : Element, e.body = body → e.hide.1.body = body := by
    rintro e rfl
    simp only [Element.hide]
    split
    · exact htyped _
    · rfl
  have hmodify : ∀ q, (page.hide q).1 = page.modify q (·.hide.1) := by
    intro q
    unfold Page.hide Page.modify
    split <;> rfl
  unfold Page.deHighlightElement
  cases page.highlightElement with
  | none => exact h
  | some q =>
    dsimp only
    have hhidden : HasBody p body { (page.hide q).1 with highlightElement := none } := by
      rw [hmodify]
      exact h.modify q hhide
    split_ifs
    · have hlast : HasBody p body
          (Page.modify { (page.hide q).1 with highlightElement := none } q (·.setCanDelete false)) :=
        hhidden.modify q fun _ he => he
      unfold HasBody at hlast ⊢
      rwa [Page.element_takeOut]
    · exact hhidden

/-- A path that is added is one element more, with its class. -/
lemma addNew_spec (page : Page) (p : Pointer) {e : Element} (hpath : e.body.isPath) :
    (page.addNew p e true true).allElements = page.allElements.insert p ∧
      HasBody p e.body (page.addNew p e true true) := by
  have hset : HasBody p e.body (page.setElement p e) := by
    unfold HasBody
    rw [Page.element_setElement, if_pos rfl]
    rfl
  have hproperty : ∀ d : Element, d.body = e.body →
      ((page.setElement p e).deHighlightElement.addProperty true d).body = e.body := by
    intro d hd
    unfold Page.addProperty Element.setLineWidth Element.setLineStyle Element.setLineColor
    dsimp only
    split_ifs <;> (try split) <;> exact hd
  have hhighlight : ∀ d : Element, d.body = e.body → d.highlight.body = e.body := by
    intro d hd
    unfold Element.highlight
    dsimp only
    split_ifs <;> exact hd
  constructor
  · obtain ⟨mid, hsimilar, -, heq⟩ := Page.addElement_eq (page.setElement p e) p true true
    rw [Page.addNew, heq]
    dsimp only
    rw [hsimilar.allElements_eq, Page.allElements_deHighlightElement]
    rfl
  · exact ((hset.deHighlightElement hpath).modify p hproperty).modify p hhighlight

/-- A release of the left button on a page that is not locked makes nothing exactly when the points that
are left make no element. -/
lemma released_eq_none_iff (s : MousePage) (pos : SPoint) :
    s.released toVector pos = none ↔ LeavesNothing toVector s pos := by
  unfold MousePage.released LeavesNothing
  cases s.mode with
  | draw =>
    cases s.reviseDraw <;>
      simp [ElementBody.drawUpdatePoints, ElementBody.originalDrawUpdatePoints]
  | line => simp [ElementBody.lineUpdatePoints]
  | rect => simp [ElementBody.rectUpdatePoints]
  | perfectRect => simp [ElementBody.rectUpdatePoints]
  | ellipse => simp [ElementBody.ellipseUpdatePoints]
  | perfectEllipse => simp [ElementBody.ellipseUpdatePoints]
  | select => simp

/-- What is released is made of the points that the page keeps. -/
lemma makes_released {s : MousePage} {pos : SPoint} {body : ElementBody}
    (h : s.released toVector pos = some body) :
    (⟨s.mode, s.clickPoint, s.movingPoints⟩ : Gesture).Makes toVector pos body := by
  unfold MousePage.released ElementBody.drawUpdatePoints ElementBody.originalDrawUpdatePoints
    ElementBody.lineUpdatePoints ElementBody.rectUpdatePoints ElementBody.ellipseUpdatePoints at h
  split at h
  · rename_i hmode
    split_ifs at h <;> obtain rfl := Option.some.inj h
    · exact .draw hmode
    · exact .originalDraw hmode
  · rename_i hmode
    split_ifs at h
    obtain rfl := Option.some.inj h
    exact .line hmode
  · rename_i hmode
    split_ifs at h
    obtain rfl := Option.some.inj h
    exact .rect hmode
  · rename_i hmode
    split_ifs at h
    obtain rfl := Option.some.inj h
    exact .perfectRect hmode
  · rename_i hmode
    split_ifs at h
    obtain rfl := Option.some.inj h
    exact .ellipse hmode
  · rename_i hmode
    split_ifs at h
    obtain rfl := Option.some.inj h
    exact .perfectEllipse hmode
  · cases h

/-- What is made of a gesture is a path. -/
lemma isPath_of_makes {g : Gesture} {pos : SPoint} {body : ElementBody}
    (h : g.Makes toVector pos body) : body.isPath := by
  cases h <;> rfl

/-- The points that the page keeps for a gesture are the gesture's. -/
lemma makes_of_tracks {s : MousePage} {g : Gesture} {pos : SPoint} {body : ElementBody}
    (htracks : g.Tracks s)
    (h : (⟨s.mode, s.clickPoint, s.movingPoints⟩ : Gesture).Makes toVector pos body) :
    g.Makes toVector pos body := by
  have hclick : ∀ mode, s.mode = mode → mode ≠ .draw → g.mode = mode ∧ s.clickPoint = g.start := by
    rintro mode rfl hdraw
    exact ⟨htracks.mode.symm, htracks.clickPoint fun hmode => hdraw (htracks.mode.trans hmode)⟩
  have hmoving : s.mode = .draw → g.mode = .draw ∧ s.movingPoints = g.points := by
    intro hmode
    have hdraw := htracks.mode.symm.trans hmode
    exact ⟨hdraw, htracks.movingPoints hdraw⟩
  cases h with
  | draw hmode =>
    obtain ⟨hg, hpoints⟩ := hmoving hmode
    dsimp only
    rw [hpoints]
    exact .draw hg
  | originalDraw hmode =>
    obtain ⟨hg, hpoints⟩ := hmoving hmode
    dsimp only
    rw [hpoints]
    exact .originalDraw hg
  | line hmode =>
    obtain ⟨hg, hstart⟩ := hclick _ hmode nofun
    dsimp only
    rw [hstart]
    exact .line hg
  | rect hmode =>
    obtain ⟨hg, hstart⟩ := hclick _ hmode nofun
    dsimp only
    rw [hstart]
    exact .rect hg
  | perfectRect hmode =>
    obtain ⟨hg, hstart⟩ := hclick _ hmode nofun
    dsimp only
    rw [hstart]
    exact .perfectRect hg
  | ellipse hmode =>
    obtain ⟨hg, hstart⟩ := hclick _ hmode nofun
    dsimp only
    rw [hstart]
    exact .ellipse hg
  | perfectEllipse hmode =>
    obtain ⟨hg, hstart⟩ := hclick _ hmode nofun
    dsimp only
    rw [hstart]
    exact .perfectEllipse hg

/-- A set with an element more is another set. -/
lemma insert_ne_self {p : Pointer} {l : OrderedSet Pointer} (h : p ∉ l) : l.insert p ≠ l := by
  intro heq
  exact h (heq ▸ OrderedSet.mem_insert.mpr (.inl rfl))

/-- A release adds rightly exactly when it ends a gesture or the points that are left make no
element. -/
lemma addsRightly_iff (h : s.Tracked) {e : MouseEvent} (hallocates : s.mouse.Allocates e) :
    s.AddsRightly toVector e ↔ s.EndsGesture toVector e := by
  cases e with
  | release left pos p uuid =>
    have hfresh : p ∉ s.mouse.page.allElements := hallocates
    have hpage : (s.next toVector (.release left pos p uuid)).mouse.page =
        (s.mouse.mouseReleaseEvent toVector left pos p uuid).page := rfl
    unfold AddsRightly EndsGesture
    dsimp only
    rw [hpage]
    unfold MousePage.mouseReleaseEvent
    cases left with
    | false => exact iff_of_true (.inl rfl) nofun
    | true =>
      cases hlock : s.mouse.page.disableDraw with
      | true =>
        simp only [hlock, Bool.not_true, Bool.false_eq_true, if_false, if_true]
        exact iff_of_true (.inl trivial) nofun
      | false =>
        have hreleased : { s.mouse with isDrawing := false }.released toVector pos =
            s.mouse.released toVector pos := rfl
        simp only [hlock, hreleased, Bool.not_true, Bool.false_eq_true, if_false, true_and,
          forall_const]
        rw [← released_eq_none_iff]
        cases hbody : s.mouse.released toVector pos with
        | none => exact iff_of_true (.inl rfl) fun _ => rfl
        | some body =>
          have hmakes := makes_released hbody
          obtain ⟨hall, helement⟩ := addNew_spec s.mouse.page p (e := .new uuid body)
            (isPath_of_makes hmakes)
          dsimp only
          rw [or_iff_right (by rw [hall]; exact insert_ne_self hfresh)]
          constructor
          · rintro ⟨g, -, hg, -⟩ hnone
            rw [hnone] at hg
            cases hg
          · intro hended
            cases hg : s.gesture with
            | none => cases hended hg
            | some g => exact ⟨g, body, rfl, makes_of_tracks (h g hg) hmakes, hall, helement⟩
  | _ => exact Iff.rfl

/-! ## Runs -/

/-- Every release of a history adds at most one element, made of the gesture that it ends, and nothing
where it ends none, when and only when every release on a page that is not locked ends a gesture or
finds points that make no element. -/
theorem drawing_addsRightly_iff (toVector : List SPoint → List SPoint) (uuid : Bytes)
    (es : List MouseEvent) :
    (drawing toVector uuid).EveryStep (AddsRightly toVector) ⟨.new uuid, none⟩ es ↔
      (drawing toVector uuid).EveryStep (EndsGesture toVector) ⟨.new uuid, none⟩ es := by
  have hinit : Tracked ⟨.new uuid, none⟩ := by
    intro g hg
    cases hg
  have hkept : ∀ s e t, s.Tracked → (drawing toVector uuid).step s e t → t.Tracked := by
    rintro s e t h ⟨-, rfl⟩
    exact h.next e
  exact System.everyStep_congr_of_invariant hinit hkept
    (fun s e t h hstep => addsRightly_iff h hstep.1) es

/-- A double click on a new page. -/
def clicks : List MouseEvent :=
  [.press true ⟨5, 5⟩ fun _ => false, .release true ⟨5, 5⟩ 1 [1],
    .doubleClick true false ⟨5, 5⟩ 2 [2], .release true ⟨5, 5⟩ 3 [3]]

/-- The second release of a double click adds the stroke of the first one again. -/
theorem not_addsRightly_clicks :
    ¬ (drawing id [0]).EveryStep (AddsRightly id) ⟨.new [0], none⟩ clicks := by
  intro h
  have hrun : (drawing id [0]).Run ⟨.new [0], none⟩ (clicks.take 3)
      ((clicks.take 3).foldl (next id) ⟨.new [0], none⟩) :=
    .cons ⟨trivial, rfl⟩ (.cons ⟨by decide +kernel, rfl⟩ (.cons ⟨by decide +kernel, rfl⟩ (.nil _)))
  rcases h (clicks.take 3) _ [] _ _ rfl hrun ⟨by decide +kernel, rfl⟩ with heq | ⟨-, g, body, hg, -⟩
  · revert heq
    decide +kernel
  · cases hg

end Drawing

end Liangshi

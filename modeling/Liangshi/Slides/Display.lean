import Liangshi.Slides.BoardImages
import Liangshi.Slides.Stepping
import Liangshi.Transition.System

/-!
# What a board shows of a presentation

A presentation should show the background and the played shapes of its current slide and nothing of
its other slides.  Going on to the next slide hides all that the slide before has shown.  Going back
sets the counters of the slides behind back before it hides the slide it leaves, so that only the
background of that slide is hidden: `displays_iff` says that this is the only step that breaks the
display, and that it does exactly when shapes of the slide have been shown.
-/

namespace Liangshi

open Wire Ordered Transition

namespace Slide

variable {alloc : Allocator} {d : DoubleArithmetic} {slide slide' slide'' : Slide}
  {board board' board'' : Page} {image : SlideImage} {u : Bytes}

/-- The uuid of an image. -/
def uuidOf (slide : Slide) (image : SlideImage) : Option Bytes := (slide.image image).map (·.objUuid)

/-- What a slide knows about its images on a board. -/
structure Tracked (slide : Slide) (board : Page) : Prop where
  live : board.Live
  added : ∀ image u, slide.uuidOf image = some u →
    ((board.uuid, image) ∈ slide.hasAddedToBanBase ↔ board.HasElement u)
  absent : ∀ image u, slide.uuidOf image = some u → ¬ board.HasElement u → board.timesDrawn u = 0
  once : ∀ image u, slide.uuidOf image = some u → board.timesDrawn u ≤ 1
  notHighlighted : ∀ image u, slide.uuidOf image = some u → board.NotHighlighted u
  distinct : ∀ image other u, slide.uuidOf image = some u → slide.uuidOf other = some u →
    image = other

/-- The effect of an operation: images are now drawn so many times. -/
structure Effect (slide : Slide) (board : Page) (uuids : List Bytes) (times : Nat)
    (s : Slide × Page) : Prop where
  kept : slide.Kept s.1
  uuidOf_eq : ∀ image, s.1.uuidOf image = slide.uuidOf image
  wrote : Page.Wrote uuids times board s.2
  tracked : s.1.Tracked s.2

/-- What is written keeps the knowledge of a slide that notes what is new on the board. -/
lemma Tracked.of_wrote {uuids : List Bytes} {times : Nat} (h : slide.Tracked board)
    (hwrote : Page.Wrote uuids times board board') (htimes : times ≤ 1)
    (huuid : ∀ image, slide'.uuidOf image = slide.uuidOf image)
    (hadded : ∀ image u, slide.uuidOf image = some u →
      ((board.uuid, image) ∈ slide'.hasAddedToBanBase ↔
        u ∈ uuids ∨ (board.uuid, image) ∈ slide.hasAddedToBanBase)) : slide'.Tracked board' := by
  refine ⟨hwrote.live h.live, fun image u hu => ?_, fun image u hu hnot => ?_, fun image u hu => ?_,
    fun image u hu => ?_, fun image other u hu hother => ?_⟩ <;> rw [huuid] at hu
  · rw [hwrote.uuid_eq, hadded image u hu, hwrote.hasElement, h.added image u hu]
  · rw [hwrote.hasElement, not_or] at hnot
    rw [hwrote.timesDrawn u (h.notHighlighted image u hu), if_neg hnot.1]
    exact h.absent image u hu hnot.2
  · rw [hwrote.timesDrawn u (h.notHighlighted image u hu)]
    split_ifs
    · exact htimes
    · exact h.once image u hu
  · exact hwrote.notHighlighted u (h.notHighlighted image u hu)
  · rw [huuid] at hother
    exact h.distinct image other u hu hother

namespace Effect

variable {us vs : List Bytes} {m n : Nat}

/-- Nothing is done. -/
lemma refl (h : slide.Tracked board) (n : Nat) : slide.Effect board [] n (slide, board) :=
  ⟨.refl slide, fun _ => rfl, .refl board n, h⟩

/-- The same effect on one list after another. -/
lemma append {s t : Slide × Page} (h : slide.Effect board us n s) (h' : s.1.Effect s.2 vs n t) :
    slide.Effect board (us ++ vs) n t :=
  ⟨h.kept.trans h'.kept, fun image => (h'.uuidOf_eq image).trans (h.uuidOf_eq image),
    h.wrote.append h'.wrote, h'.tracked⟩

/-- The last effect counts. -/
lemma overwrite {s t : Slide × Page} (h : slide.Effect board us m s) (h' : s.1.Effect s.2 vs n t)
    (hsub : us ⊆ vs) : slide.Effect board vs n t :=
  ⟨h.kept.trans h'.kept, fun image => (h'.uuidOf_eq image).trans (h.uuidOf_eq image),
    h.wrote.overwrite h'.wrote hsub, h'.tracked⟩

/-- Lists with the same members. -/
lemma congr {s : Slide × Page} (h : slide.Effect board us n s) (hmem : ∀ u, u ∈ us ↔ u ∈ vs) :
    slide.Effect board vs n s :=
  ⟨h.kept, h.uuidOf_eq, h.wrote.congr hmem, h.tracked⟩

end Effect

/-- An image of the slide has a uuid. -/
lemma Has.exists_uuidOf (h : slide.Has image) : ∃ u, slide.uuidOf image = some u := by
  obtain ⟨e, he⟩ := h.exists_image
  exact ⟨e.objUuid, by rw [uuidOf, he, Option.map_some]⟩

/-- The element behind a uuid. -/
lemma image_of_uuidOf (h : slide.uuidOf image = some u) :
    ∃ e, slide.image image = some e ∧ e.objUuid = u :=
  Option.map_eq_some_iff.mp h

/-- An image of a slide is put on the board, once. -/
lemma effect_addToBanBase (h : slide.Tracked board) (hu : slide.uuidOf image = some u) :
    Gives (slide.addToBanBase alloc board image) (slide.Effect board [u] 1) := by
  obtain ⟨e, he, rfl⟩ := image_of_uuidOf hu
  unfold addToBanBase
  rw [he]
  refine .ite (fun hadded => .ok ?_) fun hadded => .ok ?_
  · have hwrote := Page.wrote_addToDrawing h.live ((h.added image _ hu).mp hadded)
      (h.once image _ hu)
    refine ⟨.refl slide, fun _ => rfl, hwrote, ?_⟩
    refine h.of_wrote hwrote le_rfl (fun _ => rfl) fun other v hv => ⟨.inr, ?_⟩
    rintro (hmem | hother)
    · rw [List.mem_singleton.mp hmem] at hv
      rwa [h.distinct other image _ hv hu]
    · exact hother
  · have habsent := mt (h.added image _ hu).mpr hadded
    have hwrote : Page.Wrote [e.objUuid] 1 board
        (board.addNew (alloc.fresh board) e.boardCopy false false) :=
      Page.wrote_addNew (e := e.boardCopy) h.live (alloc.free board) (h.absent image _ hu habsent)
    refine ⟨⟨rfl, rfl⟩, fun _ => rfl, hwrote, ?_⟩
    refine h.of_wrote hwrote le_rfl (fun _ => rfl) fun other v hv => ?_
    rw [List.mem_cons, Prod.mk.injEq, List.mem_singleton]
    refine or_congr_left ⟨?_, ?_⟩
    · rintro ⟨-, rfl⟩
      exact Option.some.inj (hv.symm.trans hu)
    · rintro rfl
      exact ⟨rfl, h.distinct other image _ hv hu⟩

/-- Resizing an image changes nothing that is drawn. -/
lemma effect_changeSize (h : slide.Tracked board) (hu : slide.uuidOf image = some u)
    (leftTop : SPoint) (size : SSize) (n : Nat) (hn : n ≤ 1) :
    Gives (slide.changeSize d board image leftTop size) (slide.Effect board [] n) := by
  obtain ⟨e, he, rfl⟩ := image_of_uuidOf hu
  unfold changeSize
  rw [he]
  have hwrote := Page.wrote_changeImageElementSize d board e.objUuid leftTop size.width size.height n
  exact .ok ⟨.refl slide, fun _ => rfl, hwrote, h.of_wrote hwrote hn (fun _ => rfl) (by simp)⟩

/-- An image of a slide is put on the board and resized. -/
lemma effect_addSizeAction (h : slide.Tracked board) (hu : slide.uuidOf image = some u)
    (leftTop : SPoint) (size : SSize) :
    Gives (slide.addSizeAction alloc d board image leftTop size) (slide.Effect board [u] 1) := by
  refine (effect_addToBanBase h hu).bind fun s hs => ?_
  have hu' : s.1.uuidOf image = some u := (hs.uuidOf_eq image).trans hu
  exact (effect_changeSize hs.tracked hu' _ _ 1 le_rfl).mono fun t ht => hs.append ht

/-- An image of a slide is taken off the board. -/
lemma effect_hideImageElement (h : slide.Tracked board) (hu : slide.uuidOf image = some u) :
    Gives (slide.hideImageElement alloc board image) (slide.Effect board [u] 0) := by
  refine (effect_addToBanBase h hu).bind fun s hs => ?_
  have hu' : s.1.uuidOf image = some u := (hs.uuidOf_eq image).trans hu
  obtain ⟨e, he, rfl⟩ := image_of_uuidOf hu'
  have hhas : s.2.HasElement e.objUuid :=
    (hs.wrote.hasElement _).mpr (.inl (List.mem_singleton_self _))
  have hwrote := Page.wrote_removeFromDrawing hhas (hs.tracked.once image _ hu')
  have htracked : s.1.Tracked (s.2.removeFromDrawing e.objUuid) := by
    refine hs.tracked.of_wrote hwrote (Nat.zero_le 1) (fun _ => rfl) fun other v hv => ⟨.inr, ?_⟩
    rintro (hmem | hother)
    · rw [List.mem_singleton.mp hmem] at hv
      rw [hs.tracked.distinct other image _ hv hu']
      exact (hs.tracked.added image _ hu').mpr hhas
    · exact hother
  dsimp only
  rw [he]
  exact .ok (hs.overwrite ⟨.refl s.1, fun _ => rfl, hwrote, htracked⟩ (List.Subset.refl _))

/-! ## The images of a slide -/

/-- The uuids of images. -/
def uuids (slide : Slide) (images : List SlideImage) : List Bytes := images.filterMap slide.uuidOf

/-- The shapes of actions. -/
def shapesOf (actions : List ShapeAction) : List SlideImage := actions.map fun a => .shape a.id

/-- Slides whose images have the same uuids. -/
lemma uuids_congr (h : ∀ image, slide'.uuidOf image = slide.uuidOf image)
    (images : List SlideImage) : slide'.uuids images = slide.uuids images := by
  rw [uuids, uuids, funext h]

/-- The uuids of one more image. -/
lemma uuids_cons (hu : slide.uuidOf image = some u) (images : List SlideImage) :
    slide.uuids (image :: images) = [u] ++ slide.uuids images :=
  List.filterMap_cons_some hu

/-- The shapes of some actions are taken off the board. -/
lemma effect_hideShapes {actions : List ShapeAction} {s : Slide × Page} (h : s.1.Tracked s.2)
    (hhas : ∀ action ∈ actions, s.1.Has (.shape action.id)) :
    Gives (actions.foldlM (fun (slide, board) action =>
        slide.hideImageElement alloc board (.shape action.id)) s)
      (s.1.Effect s.2 (s.1.uuids (shapesOf actions)) 0) := by
  induction actions generalizing s with
  | nil => exact .ok (.refl h 0)
  | cons action actions ih =>
    obtain ⟨hfirst, hothers⟩ := List.forall_mem_cons.mp hhas
    obtain ⟨u, hu⟩ := hfirst.exists_uuidOf
    rw [List.foldlM_cons, shapesOf, List.map_cons, uuids_cons hu]
    refine (effect_hideImageElement h hu).bind fun t ht => ?_
    refine (ih ht.tracked fun a ha => ht.kept.has (hothers a ha)).mono fun r hr => ?_
    rw [uuids_congr ht.uuidOf_eq] at hr
    exact ht.append hr

/-- Hiding a slide hides its background and the shapes it counts as shown. -/
lemma effect_hide (h : slide.Tracked board) (hle : slide.actionIndex ≤ slide.shapeActions.length) :
    Gives (slide.hide alloc board) (slide.Effect board
      (slide.uuids (.background :: shapesOf (slide.shapeActions.take slide.actionIndex.toNat))) 0) := by
  have hbackground : slide.Has .background := trivial
  obtain ⟨u, hu⟩ := hbackground.exists_uuidOf
  rw [uuids_cons hu]
  refine (effect_hideImageElement h hu).bind fun s hs => ?_
  refine (gives_firstActions (by rw [hs.kept.actionIndex, hs.kept.shapeActions]; exact hle)).bind
    fun actions hact => ?_
  rw [hs.kept.actionIndex, hs.kept.shapeActions] at hact
  have hhas : ∀ action ∈ actions, s.1.Has (.shape action.id) := by
    rw [hact]
    exact fun action hmem => hs.kept.has (has_of_mem_take hmem)
  refine (effect_hideShapes hs.tracked hhas).mono fun t ht => ?_
  rw [uuids_congr hs.uuidOf_eq, hact] at ht
  exact hs.append ht

/-- Where a shape has moved to, its images have the same uuids. -/
lemma uuidOf_updateShape (slide : Slide) (action : ShapeAction) (image : SlideImage) :
    (slide.updateShape d action).uuidOf image = slide.uuidOf image := by
  unfold updateShape
  split
  · rfl
  · rename_i e he
    cases image with
    | background => rfl
    | shape id =>
      refine (congrArg (Option.map _) (OrderedMap.find_insert _ _ _ _)).trans ?_
      split_ifs with hid
      · subst hid
        rw [uuidOf, image, he]
        rfl
      · rfl

/-- Moving a shape changes nothing that is drawn. -/
lemma effect_updateShape (h : slide.Tracked board) (action : ShapeAction) :
    slide.Effect board [] 1 (slide.updateShape d action, board) := by
  have hwrote := Page.Wrote.refl board 1
  have hadded : (slide.updateShape d action).hasAddedToBanBase = slide.hasAddedToBanBase := by
    unfold updateShape
    split <;> rfl
  refine ⟨kept_updateShape slide action, uuidOf_updateShape slide action, hwrote, ?_⟩
  exact h.of_wrote hwrote le_rfl (uuidOf_updateShape slide action) (by simp [hadded])

/-- The shape of an action is put on the board, once. -/
lemma effect_showShape {action : ShapeAction} (h : slide.Tracked board)
    (hu : slide.uuidOf (.shape action.id) = some u) (hhas : slide.Has (.shape action.id)) :
    Gives (slide.showShape alloc d board action) (slide.Effect board [u] 1) := by
  have hupdate := effect_updateShape (d := d) h action
  refine (gives_currentShape (hupdate.kept.has hhas)).bind fun _ _ => ?_
  refine (effect_addToBanBase hupdate.tracked ((hupdate.uuidOf_eq _).trans hu)).bind fun s hs => ?_
  have hboth := hupdate.append hs
  refine (effect_addSizeAction hboth.tracked ((hboth.uuidOf_eq _).trans hu) _ _).mono fun t ht => ?_
  exact hboth.overwrite ht (List.Subset.refl _)

/-- The shapes of some actions are put on the board, once. -/
lemma effect_showShapes {actions : List ShapeAction} {s : Slide × Page} (h : s.1.Tracked s.2)
    (hhas : ∀ action ∈ actions, s.1.Has (.shape action.id)) :
    Gives (showShapes alloc d actions s) (s.1.Effect s.2 (s.1.uuids (shapesOf actions)) 1) := by
  induction actions generalizing s with
  | nil => exact .ok (.refl h 1)
  | cons action later ih =>
    obtain ⟨hfirst, hothers⟩ := List.forall_mem_cons.mp hhas
    obtain ⟨u, hu⟩ := hfirst.exists_uuidOf
    rw [shapesOf, List.map_cons, uuids_cons hu]
    refine .ite (fun hagain => ?_) fun _ => ?_
    · obtain ⟨other, hother, hid⟩ := List.any_eq_true.mp hagain
      have hmem : u ∈ s.1.uuids (shapesOf later) := by
        refine List.mem_filterMap.mpr ⟨.shape other.id, List.mem_map_of_mem hother, ?_⟩
        rw [of_decide_eq_true hid, hu]
      refine (ih h hothers).mono fun t ht => ht.congr fun v => ?_
      rw [List.mem_append, List.mem_singleton]
      refine ⟨.inr, ?_⟩
      rintro (rfl | hv)
      · exact hmem
      · exact hv
    · refine (effect_showShape h hu hfirst).bind fun t ht => ?_
      refine (ih ht.tracked fun a ha => ht.kept.has (hothers a ha)).mono fun r hr => ?_
      rw [uuids_congr ht.uuidOf_eq] at hr
      exact ht.append hr

/-- The images of the step that is played next. -/
def nextImages (slide : Slide) : List SlideImage :=
  if slide.actionIndex = -1 then [.background]
  else shapesOf (slide.shapeActions.take (slide.actionIndex + 1).toNat)

/-- A slide with a step left shows the images of the step. -/
lemma effect_nextAction (h : slide.Tracked board)
    (hlt : slide.actionIndex < slide.shapeActions.length) :
    Gives (slide.nextAction alloc d board) fun r => ∃ s,
      slide.Effect board (slide.uuids slide.nextImages) 1 s ∧
        r = ({ s.1 with actionIndex := s.1.actionIndex + 1 }, s.2, true) := by
  have hbackground : slide.Has .background := trivial
  obtain ⟨u, hu⟩ := hbackground.exists_uuidOf
  refine .ite (fun heq => absurd heq (Int.ne_of_lt hlt)) fun _ =>
    .ite (fun hnone => ?_) fun hsome => ?_
  · rw [nextImages, if_pos hnone, uuids_cons hu]
    refine (effect_addToBanBase h hu).bind fun s hs => ?_
    refine (effect_addSizeAction hs.tracked ((hs.uuidOf_eq _).trans hu) _ _).bind fun t ht => ?_
    exact .ok ⟨t, hs.overwrite ht (List.Subset.refl _), rfl⟩
  · rw [nextImages, if_neg hsome]
    refine (gives_firstActions (Int.add_one_le_of_lt hlt)).bind fun actions hact => ?_
    have hhas : ∀ action ∈ actions, slide.Has (.shape action.id) := by
      rw [hact]
      exact fun action => has_of_mem_take
    refine (effect_showShapes (s := (slide, board)) h hhas).bind fun t ht => ?_
    rw [hact] at ht
    exact .ok ⟨t, ht, rfl⟩

/-- The counter does not matter for what a slide knows of its images. -/
lemma Tracked.setIndex (h : slide.Tracked board) (index : Int) :
    Tracked { slide with actionIndex := index } board :=
  ⟨h.live, h.added, h.absent, h.once, h.notHighlighted, h.distinct⟩

end Slide

/-! ## The presenter -/

namespace SlidePresenter

variable {alloc : Allocator} {d : DoubleArithmetic} {p q r : SlidePresenter}

/-- The uuid of an image of a slide. -/
def nameOf (p : SlidePresenter) (j : Nat) (image : SlideImage) : Option Bytes :=
  p.slides[j]?.bind fun slide => slide.uuidOf image

/-- The actions of the slides. -/
def plan (p : SlidePresenter) : List (List ShapeAction) := p.slides.map (·.shapeActions)

/-- Every slide knows its images on the board, and no two slides have images with the same uuid. -/
structure Tracks (p : SlidePresenter) : Prop where
  slides : ∀ (j : Nat) (slide : Slide), p.slides[j]? = some slide → slide.Tracked p.board
  apart : ∀ (j k : Nat) (image other : SlideImage) (u : Bytes), p.nameOf j image = some u →
    p.nameOf k other = some u → j = k

/-- Images of a slide are now drawn so many times. -/
structure Painted (j : Nat) (images : List SlideImage) (times : Nat) (p q : SlidePresenter) :
    Prop where
  nameOf_eq : ∀ k image, q.nameOf k image = p.nameOf k image
  plan_eq : q.plan = p.plan
  tracks : q.Tracks
  timesDrawn : ∀ k image u, p.nameOf k image = some u → q.board.timesDrawn u =
    if k = j ∧ image ∈ images then times else p.board.timesDrawn u

/-- The effect on one slide is the effect on the presenter. -/
lemma Tracks.painted (h : p.Tracks) {j : Nat} {slide : Slide} (hslide : p.slides[j]? = some slide)
    {images : List SlideImage} {n : Nat} (hn : n ≤ 1) {s : Slide × Page}
    (heffect : slide.Effect p.board (slide.uuids images) n s) (index : Int) :
    Painted j images n p { p with
      slides := p.slides.set j { s.1 with actionIndex := index }, board := s.2 } := by
  obtain ⟨hj, -⟩ := List.getElem?_eq_some_iff.mp hslide
  have hname : ∀ image, p.nameOf j image = slide.uuidOf image := by
    intro image
    rw [nameOf, hslide, Option.bind_some]
  have hmem : ∀ u, u ∈ slide.uuids images ↔ ∃ image ∈ images, p.nameOf j image = some u := by
    intro u
    simp only [Slide.uuids, List.mem_filterMap, hname]
  have hnames : ∀ k image, nameOf { p with
      slides := p.slides.set j { s.1 with actionIndex := index }, board := s.2 } k image =
      p.nameOf k image := by
    intro k image
    rw [nameOf, List.getElem?_set]
    split_ifs with hk
    · subst hk
      rw [hname]
      exact heffect.uuidOf_eq image
    · rfl
  refine ⟨hnames, ?_, ⟨fun k other hother => ?_, fun k l image other u hu hu' => ?_⟩,
    fun k image u hu => ?_⟩
  · exact map_set_eq (b := { s.1 with actionIndex := index }) (·.shapeActions) hslide
      heffect.kept.shapeActions
  · rw [List.getElem?_set] at hother
    split_ifs at hother with hk
    · obtain rfl := Option.some.inj hother
      exact heffect.tracked.setIndex index
    · refine (h.slides k other hother).of_wrote heffect.wrote hn (fun _ => rfl) fun image u hu =>
        ⟨.inr, fun hor => hor.resolve_left fun hus => hk ?_⟩
      obtain ⟨image', -, hu'⟩ := (hmem u).mp hus
      refine h.apart j k image' image u hu' ?_
      rw [nameOf, hother]
      exact hu
  · rw [hnames] at hu hu'
    exact h.apart k l image other u hu hu'
  · have hnot : p.board.NotHighlighted u := by
      obtain ⟨other, hother, huo⟩ := Option.bind_eq_some_iff.mp hu
      exact (h.slides k other hother).notHighlighted image u huo
    refine (heffect.wrote.timesDrawn u hnot).trans (if_congr ?_ rfl rfl)
    rw [hmem]
    constructor
    · rintro ⟨image', himage, hu'⟩
      obtain rfl := h.apart j k image' image u hu' hu
      rw [hname] at hu hu'
      obtain rfl := (h.slides j slide hslide).distinct image' image u hu' hu
      exact ⟨rfl, himage⟩
    · rintro ⟨rfl, himage⟩
      exact ⟨image, himage, hu⟩

/-- The images of a slide with given actions when so many of its steps have been played. -/
def imagesUpTo (actions : List ShapeAction) : Nat → List SlideImage
  | 0 => []
  | played + 1 => .background :: Slide.shapesOf (actions.take played)

/-- The actions of a slide. -/
def actionsOf (p : SlidePresenter) (j : Nat) : List ShapeAction := p.plan.getD j []

/-- The actions of a slide that is there. -/
lemma actionsOf_eq {j : Nat} {slide : Slide} (hslide : p.slides[j]? = some slide) :
    p.actionsOf j = slide.shapeActions := by
  rw [actionsOf, plan, List.getD_eq_getElem?_getD, List.getElem?_map, hslide]
  rfl

/-- Painting changes no actions. -/
lemma Painted.actionsOf_eq {j n : Nat} {images : List SlideImage} (h : Painted j images n p q)
    (k : Nat) : q.actionsOf k = p.actionsOf k := by
  rw [actionsOf, actionsOf, h.plan_eq]

/-- Nothing is painted on a slide that is not there. -/
lemma Tracks.painted_of_none (h : p.Tracks) {j : Nat} (hnone : p.slides[j]? = none)
    (images : List SlideImage) (n : Nat) : Painted j images n p p := by
  refine ⟨fun _ _ => rfl, rfl, h, fun k image u hu => (if_neg ?_).symm⟩
  rintro ⟨rfl, -⟩
  rw [nameOf, hnone] at hu
  cases hu

/-- Painting no images changes nothing. -/
lemma Tracks.painted_nil (h : p.Tracks) (j n : Nat) : Painted j [] n p p :=
  ⟨fun _ _ => rfl, rfl, h, fun _ _ _ _ => (if_neg (by simp)).symm⟩

/-- Hiding a slide. -/
lemma painted_hide (h : p.Tracks) {j : Nat} {slide : Slide} (hslide : p.slides[j]? = some slide)
    (hle : slide.actionIndex ≤ slide.shapeActions.length) :
    Gives (p.onSlide j (Slide.hide alloc)) (Painted j
      (.background :: Slide.shapesOf (slide.shapeActions.take slide.actionIndex.toNat)) 0 p) := by
  unfold onSlide
  rw [hslide]
  refine (Slide.effect_hide (h.slides j slide hslide) hle).bind fun s hs => .ok ?_
  exact h.painted hslide (Nat.zero_le 1) hs s.1.actionIndex

variable {counts : List Nat} {i played : Nat}

/-- The slide before has shown everything, and everything is hidden. -/
lemma painted_hidePrevious (h : p.OnCourse counts i played) (htracks : p.Tracks) :
    Gives (p.hidePrevious alloc) (Painted (i - 1) (if i = 0 then []
      else imagesUpTo (p.actionsOf (i - 1)) ((p.actionsOf (i - 1)).length + 1)) 0 p) := by
  unfold hidePrevious
  rw [h.current]
  by_cases hi : i = 0
  · rw [if_pos hi, if_neg (by omega)]
    exact .ok (htracks.painted_nil _ _)
  · rw [if_neg hi, if_pos (by omega)]
    obtain ⟨n, hn, -⟩ := h.inside
    obtain ⟨hlt, -⟩ := List.getElem?_eq_some_iff.mp hn
    rw [← h.length_eq] at hlt
    have hbefore : i - 1 < p.slides.length := by omega
    obtain ⟨slide, hslide⟩ : ∃ slide, p.slides[i - 1]? = some slide :=
      ⟨_, List.getElem?_eq_getElem hbefore⟩
    have hindex : slide.actionIndex = slide.shapeActions.length := by
      rw [(h.slide hslide).2, due, if_pos (by omega)]
    refine (painted_hide htracks hslide hindex.le).mono fun q hq => ?_
    rw [hindex, Int.toNat_natCast] at hq
    rwa [actionsOf_eq hslide]

/-- The slide behind counts nothing as shown, and its background is hidden. -/
lemma painted_hideFollowing (h : p.OnCourse counts i played) (htracks : p.Tracks) :
    Gives (p.hideFollowing alloc) (Painted (i + 1) [.background] 0 p) := by
  unfold hideFollowing
  rw [h.current]
  refine .ite (fun hlt => ?_) fun hnot => .ok ?_
  · obtain ⟨slide, hslide⟩ : ∃ slide, p.slides[i + 1]? = some slide :=
      ⟨_, List.getElem?_eq_getElem hlt⟩
    have hindex : slide.actionIndex = -1 := by
      rw [(h.slide hslide).2, due, if_neg (by omega), if_neg (by omega)]
    refine (painted_hide htracks hslide (h.actionIndex_le hslide).2).mono fun q hq => ?_
    rw [hindex] at hq
    exact hq
  · exact htracks.painted_of_none (List.getElem?_eq_none_iff.mpr (Nat.le_of_not_lt hnot)) _ _

/-- What a step paints: its images, and nothing of the slides around it that counts as shown. -/
lemma painted_playStep (h : p.OnCourse counts i played) (htracks : p.Tracks) (calls : Nat)
    (hplayed : played ≤ (p.actionsOf i).length) :
    Gives (p.onNextActionWithin alloc d (calls + 1)) fun q => ∃ p₁ p₂,
      Painted i (if played = 0 then [.background]
        else Slide.shapesOf ((p.actionsOf i).take played)) 1 p p₁ ∧
      Painted (i - 1) (if i = 0 then []
        else imagesUpTo (p.actionsOf (i - 1)) ((p.actionsOf (i - 1)).length + 1)) 0 p₁ p₂ ∧
      Painted (i + 1) [.background] 0 p₂ q := by
  obtain ⟨slide, hslide, hcount, hdue⟩ := h.exists_current
  have hplan : p.actionsOf i = slide.shapeActions := by
    rw [h.current] at hslide
    exact actionsOf_eq hslide
  rw [hplan] at hplayed ⊢
  have himages : slide.nextImages = if played = 0 then [.background]
      else Slide.shapesOf (slide.shapeActions.take played) := by
    unfold Slide.nextImages
    rw [hdue, Int.sub_add_cancel, Int.toNat_natCast]
    exact if_congr (by omega) rfl rfl
  unfold onNextActionWithin
  rw [hslide]
  refine (Slide.effect_nextAction (htracks.slides _ slide hslide) (by rw [hdue]; omega)).bind ?_
  rintro _ ⟨s, heffect, rfl⟩
  have hpainted := htracks.painted hslide le_rfl heffect (s.1.actionIndex + 1)
  have hafter : s.1.actionIndex + 1 = played := by
    rw [heffect.kept.actionIndex, hdue, Int.sub_add_cancel]
  have hcourse := onCourse_set h { s.1 with actionIndex := s.1.actionIndex + 1 } s.2 hslide hplayed
    heffect.kept.shapeActions hafter
  rw [himages, h.current] at hpainted
  rw [h.current] at hcourse ⊢
  dsimp only
  rw [if_pos rfl]
  have hprevious := @painted_hidePrevious alloc _ _ _ _ hcourse hpainted.tracks
  rw [hpainted.actionsOf_eq] at hprevious
  refine (hprevious.and (onCourse_hidePrevious hcourse)).bind fun p₂ hp₂ => ?_
  exact (painted_hideFollowing hp₂.2 hp₂.1.tracks).mono fun q hq => ⟨_, p₂, hpainted, hp₂.1, hq⟩

/-! ## What is shown -/

/-- The images of the first steps of a slide are drawn once, and no others of the presentation. -/
def Shown (j played : Nat) (p : SlidePresenter) : Prop :=
  ∀ k image u, p.nameOf k image = some u → p.board.timesDrawn u =
    if k = j ∧ image ∈ imagesUpTo (p.actionsOf j) played then 1 else 0

/-- A presenter that shows a slide up to a step. -/
structure Showing (counts : List Nat) (i played : Nat) (p : SlidePresenter) : Prop where
  onCourse : p.OnCourse counts i played
  tracks : p.Tracks
  shown : p.Shown i played

/-- Whether an image is among the images up to a step. -/
lemma mem_imagesUpTo_succ {actions : List ShapeAction} {m : Nat} {image : SlideImage} :
    image ∈ imagesUpTo actions (m + 1) ↔
      image ∈ (if m = 0 then [.background] else Slide.shapesOf (actions.take m)) ∨
        image ∈ imagesUpTo actions m := by
  cases m with
  | zero => simp [imagesUpTo, Slide.shapesOf]
  | succ m =>
    have hsub : image ∈ Slide.shapesOf (actions.take m) →
        image ∈ Slide.shapesOf (actions.take (m + 1)) := by
      intro hmem
      obtain ⟨a, ha, rfl⟩ := List.mem_map.mp hmem
      exact List.mem_map_of_mem ((List.take_sublist_take_left (Nat.le_succ m)).subset ha)
    rw [if_neg (Nat.succ_ne_zero m), imagesUpTo, imagesUpTo, List.mem_cons, List.mem_cons]
    tauto

/-- How often an image is drawn once a step has been painted. -/
lemma timesDrawn_playStep {p₁ p₂ : SlidePresenter} {new before : List SlideImage}
    (hnew : Painted i new 1 p p₁) (hbefore : Painted (i - 1) before 0 p₁ p₂)
    (hbehind : Painted (i + 1) [.background] 0 p₂ q) {k : Nat} {image : SlideImage} {u : Bytes}
    (hu : p.nameOf k image = some u) : q.board.timesDrawn u =
      if k = i + 1 ∧ image = .background then 0
      else if k = i - 1 ∧ image ∈ before then 0
      else if k = i ∧ image ∈ new then 1
      else p.board.timesDrawn u := by
  have hu₁ := (hnew.nameOf_eq k image).trans hu
  have hu₂ := (hbefore.nameOf_eq k image).trans hu₁
  rw [hbehind.timesDrawn k image u hu₂, hbefore.timesDrawn k image u hu₁,
    hnew.timesDrawn k image u hu]
  simp only [List.mem_singleton]

/-- A slide with a step left shows it. -/
lemma showing_playStep (h : p.Showing counts i played) (calls : Nat)
    (hplayed : played ≤ (p.actionsOf i).length) :
    Gives (p.onNextActionWithin alloc d (calls + 1)) (Showing counts i (played + 1)) := by
  have hcourse : Gives (p.onNextActionWithin alloc d (calls + 1))
      (OnCourse counts i (played + 1)) := by
    obtain ⟨slide, hslide, hcount, -⟩ := h.onCourse.exists_current
    rw [h.onCourse.current] at hslide
    rw [actionsOf_eq hslide] at hplayed
    exact onCourse_playStep h.onCourse calls hcount hplayed
  refine (hcourse.and (painted_playStep h.onCourse h.tracks calls hplayed)).mono ?_
  rintro q ⟨hq, p₁, p₂, hnew, hbefore, hbehind⟩
  refine ⟨hq, hbehind.tracks, fun k image u hu => ?_⟩
  rw [hbehind.nameOf_eq, hbefore.nameOf_eq, hnew.nameOf_eq] at hu
  rw [timesDrawn_playStep hnew hbefore hbehind hu, h.shown k image u hu, hbehind.actionsOf_eq,
    hbefore.actionsOf_eq, hnew.actionsOf_eq]
  simp only [mem_imagesUpTo_succ]
  by_cases hk : k = i
  · subst hk
    have hnot : ¬ (k = k - 1 ∧ image ∈ (if k = 0 then [] else
        imagesUpTo (p.actionsOf (k - 1)) ((p.actionsOf (k - 1)).length + 1))) := by
      rintro ⟨heq, hmem⟩
      rw [if_pos (by omega)] at hmem
      exact List.not_mem_nil hmem
    rw [if_neg fun hand => absurd hand.1 (Nat.succ_ne_self k).symm, if_neg hnot]
    simp only [true_and]
    split_ifs <;> tauto
  · simp only [hk, false_and, if_false]
    split_ifs <;> rfl

/-- The next slide shows its background, and the slide before it is hidden. -/
lemma showing_playStep_after (h : p.OnCourse counts (i + 1) 0) (htracks : p.Tracks)
    (hshown : p.Shown i ((p.actionsOf i).length + 1)) (calls : Nat) :
    Gives (p.onNextActionWithin alloc d (calls + 1)) (Showing counts (i + 1) 1) := by
  obtain ⟨n, hn, -⟩ := h.inside
  refine ((onCourse_playStep h calls hn (Nat.zero_le n)).and
    (painted_playStep h htracks calls (Nat.zero_le _))).mono ?_
  rintro q ⟨hq, p₁, p₂, hnew, hbefore, hbehind⟩
  refine ⟨hq, hbehind.tracks, fun k image u hu => ?_⟩
  rw [hbehind.nameOf_eq, hbefore.nameOf_eq, hnew.nameOf_eq] at hu
  rw [timesDrawn_playStep hnew hbefore hbehind hu, hshown k image u hu]
  simp only [Nat.add_sub_cancel, Nat.succ_ne_zero, if_false, if_true, imagesUpTo, List.take_zero,
    Slide.shapesOf, List.map_nil, List.take_length]
  split_ifs <;> simp_all

/-- The slide before shows its background again, and of the slide that is left only the background is
hidden. -/
lemma playStep_before (h : p.OnCourse counts i 0) (htracks : p.Tracks)
    (hshown : p.Shown (i + 1) played) (hplayed : played ≤ (p.actionsOf (i + 1)).length + 1)
    (hinside : i + 1 < counts.length) (calls : Nat) :
    Gives (p.onNextActionWithin alloc d (calls + 1)) fun q => OnCourse counts i 1 q ∧ q.Tracks ∧
      (q.Shown i 1 ↔ played ≤ 1) := by
  obtain ⟨n, hn, -⟩ := h.inside
  refine ((onCourse_playStep h calls hn (Nat.zero_le n)).and
    (painted_playStep h htracks calls (Nat.zero_le _))).mono ?_
  rintro q ⟨hq, p₁, p₂, hnew, hbefore, hbehind⟩
  refine ⟨hq, hbehind.tracks, fun hall => ?_, fun hle k image u hu => ?_⟩
  · by_contra hgt
    obtain ⟨m, rfl⟩ : ∃ m, played = m + 2 := ⟨played - 2, by omega⟩
    -- The first shape that the slide has shown is still drawn.
    obtain ⟨slide, hslide⟩ : ∃ slide, p.slides[i + 1]? = some slide :=
      ⟨_, List.getElem?_eq_getElem (by rw [h.length_eq]; exact hinside)⟩
    rw [actionsOf_eq hslide] at hplayed
    obtain ⟨action, others, hactions⟩ : ∃ action others, slide.shapeActions = action :: others :=
      List.exists_cons_of_length_pos (by omega)
    have hhas : slide.Has (.shape action.id) :=
      ⟨action, by rw [hactions]; exact List.mem_cons_self, rfl⟩
    obtain ⟨u, hu⟩ := hhas.exists_uuidOf
    have hname : p.nameOf (i + 1) (.shape action.id) = some u := by
      rw [nameOf, hslide]
      exact hu
    have hdrawn := hshown (i + 1) (.shape action.id) u hname
    rw [actionsOf_eq hslide, hactions, if_pos ⟨rfl, by simp [imagesUpTo, Slide.shapesOf]⟩] at hdrawn
    have hname' : q.nameOf (i + 1) (.shape action.id) = some u := by
      rw [hbehind.nameOf_eq, hbefore.nameOf_eq, hnew.nameOf_eq, hname]
    have hgone := hall (i + 1) (.shape action.id) u hname'
    rw [timesDrawn_playStep hnew hbefore hbehind hname, if_neg (by simp),
      if_neg fun hand => absurd hand.1 (by omega), if_neg fun hand => absurd hand.1 (by omega),
      hdrawn, if_neg fun hand => absurd hand.1 (by omega)] at hgone
    exact one_ne_zero hgone
  · rw [hbehind.nameOf_eq, hbefore.nameOf_eq, hnew.nameOf_eq] at hu
    rw [timesDrawn_playStep hnew hbefore hbehind hu, hshown k image u hu]
    have hsub : image ∈ imagesUpTo (p.actionsOf (i + 1)) played → image = .background := by
      obtain rfl | rfl : played = 0 ∨ played = 1 := by omega
      · exact fun hmem => absurd hmem List.not_mem_nil
      · exact List.mem_singleton.mp
    by_cases hk : k = i
    · subst hk
      have hnot : ¬ (k = k - 1 ∧ image ∈ (if k = 0 then [] else
          imagesUpTo (p.actionsOf (k - 1)) ((p.actionsOf (k - 1)).length + 1))) := by
        rintro ⟨heq, hmem⟩
        rw [if_pos (by omega)] at hmem
        exact List.not_mem_nil hmem
      rw [if_neg fun hand => absurd hand.1 (Nat.succ_ne_self k).symm, if_neg hnot]
      simp [imagesUpTo, Slide.shapesOf]
    · simp only [hk, false_and, if_false]
      split_ifs <;> tauto

/-- Setting the counters back does not change what the slides know of their images. -/
lemma Tracks.clearFrom (h : p.Tracks) {j : Nat} (hj : j < p.slides.length) :
    ({ p with currentSlideIndex := j }.clearFrom j).Tracks ∧
      (∀ k image, ({ p with currentSlideIndex := j }.clearFrom j).nameOf k image =
        p.nameOf k image) ∧
      ({ p with currentSlideIndex := j }.clearFrom j).plan = p.plan := by
  have hslides := getElem?_clearFrom { p with currentSlideIndex := j } hj.le
  have hnames : ∀ k image, ({ p with currentSlideIndex := j }.clearFrom j).nameOf k image =
      p.nameOf k image := by
    intro k image
    rw [nameOf, hslides, nameOf, Option.bind_map]
    refine congrArg (Option.bind _) (funext fun slide => ?_)
    unfold Function.comp
    split_ifs <;> rfl
  refine ⟨⟨fun k slide hslide => ?_, fun k l image other u hu hu' => ?_⟩, hnames, ?_⟩
  · rw [hslides] at hslide
    obtain ⟨before, hbefore, rfl⟩ := Option.map_eq_some_iff.mp hslide
    have htracked := h.slides k before hbefore
    split_ifs
    · exact htracked
    · exact htracked.setIndex (-1)
  · rw [hnames] at hu hu'
    exact h.apart k l image other u hu hu'
  · refine List.ext_getElem? fun k => ?_
    rw [plan, plan, List.getElem?_map, List.getElem?_map, hslides, Option.map_map]
    refine congrArg (Option.map · _) (funext fun slide => ?_)
    unfold Function.comp
    split_ifs <;> rfl

/-- The count of a slide is the number of its actions. -/
lemma OnCourse.length_actionsOf (h : p.OnCourse counts i played) {j n : Nat}
    (hn : counts[j]? = some n) : (p.actionsOf j).length = n := by
  obtain ⟨hlt, -⟩ := List.getElem?_eq_some_iff.mp hn
  rw [← h.length_eq] at hlt
  obtain ⟨slide, hslide⟩ : ∃ slide, p.slides[j]? = some slide := ⟨_, List.getElem?_eq_getElem hlt⟩
  rw [actionsOf_eq hslide]
  exact Option.some.inj ((h.slide hslide).1.symm.trans hn)

/-- The next step is shown. -/
lemma showing_onNextAction (h : p.Showing counts i (played + 1)) :
    Gives (p.onNextAction alloc d) fun q => ∃ j m, q.Showing counts j (m + 1) := by
  obtain ⟨n, hn, hle⟩ := h.onCourse.inside
  obtain ⟨hi, -⟩ := List.getElem?_eq_some_iff.mp hn
  have hlength := h.onCourse.length_actionsOf hn
  have hcalls : p.slides.length + 1 = counts.length - 1 + 2 := by
    rw [h.onCourse.length_eq]
    omega
  unfold onNextAction
  rw [hcalls]
  by_cases hplayed : played + 1 ≤ n
  · exact (showing_playStep h _ (by rw [hlength]; exact hplayed)).mono fun _ hq => ⟨i, _, hq⟩
  · have hall : played + 1 = n + 1 := by omega
    rw [onNextActionWithin_handOver h.onCourse _ hn hall]
    refine .ite (fun hnext => ?_) fun _ => .ok ⟨i, played, h⟩
    have hcourse := onCourse_following h.onCourse hn hall hnext
    have htracks : Tracks { p with currentSlideIndex := i + 1 } := ⟨h.tracks.slides, h.tracks.apart⟩
    have hshown : Shown i ((p.actionsOf i).length + 1) { p with currentSlideIndex := i + 1 } := by
      rw [hlength, ← hall]
      exact h.shown
    exact (showing_playStep_after hcourse htracks hshown _).mono fun _ hq => ⟨i + 1, 0, hq⟩

/-- Going back shows the slide before, and nothing else when no shape of the slide that is left has
been shown. -/
lemma shown_onPreviousAction (h : p.Showing counts i (played + 1)) :
    Gives (p.onPreviousAction alloc d) fun q => ∃ j m, OnCourse counts j (m + 1) q ∧ q.Tracks ∧
      (q.Shown j (m + 1) ↔ i = 0 ∨ played = 0) := by
  obtain ⟨n, hn, hle⟩ := h.onCourse.inside
  obtain ⟨hi, -⟩ := List.getElem?_eq_some_iff.mp hn
  have hlength := h.onCourse.length_actionsOf hn
  unfold onPreviousAction
  rw [h.onCourse.current, h.onCourse.length_eq]
  refine .ite (fun hfirst => .ok ?_) fun hfirst => .ite (fun _ => ?_) fun hnot => absurd hi hnot
  · exact ⟨i, played, h.onCourse, h.tracks, iff_of_true h.shown (.inl hfirst)⟩
  · obtain ⟨j, rfl⟩ := Nat.exists_eq_succ_of_ne_zero hfirst
    rw [Nat.succ_eq_add_one, Nat.add_sub_cancel]
    have hj : j < p.slides.length := by
      rw [h.onCourse.length_eq]
      omega
    have hcourse := onCourse_clearFrom hj fun k slide hk hslide => by
      rw [(h.onCourse.slide hslide).2, due, if_pos (by omega)]
    rw [← h.onCourse.counts_eq] at hcourse
    obtain ⟨htracks, hnames, hplan⟩ := h.tracks.clearFrom hj
    have hactions : ∀ k, ({ p with currentSlideIndex := j }.clearFrom j).actionsOf k =
        p.actionsOf k := fun k => by rw [actionsOf, hplan, ← actionsOf]
    have hshown : Shown (j + 1) (played + 1) ({ p with currentSlideIndex := j }.clearFrom j) := by
      intro k image u hu
      rw [hnames] at hu
      rw [hactions]
      exact h.shown k image u hu
    refine (playStep_before hcourse htracks hshown ?_ hi _).mono fun q hq =>
      ⟨j, 0, hq.1, hq.2.1, hq.2.2.trans ?_⟩
    · rw [hactions, hlength]
      exact hle
    · omega

end SlidePresenter

/-! ## Runs -/

namespace Slide

/-- The images of the steps of a slide that have been played. -/
def playedImages (slide : Slide) : List SlideImage :=
  if slide.actionIndex < 0 then []
  else .background :: shapesOf (slide.shapeActions.take slide.actionIndex.toNat)

end Slide

/-- The keys that step through a presentation. -/
inductive SlideKey where
  | next
  | previous
deriving DecidableEq

namespace SlidePresenter

variable {alloc : Allocator} {d : DoubleArithmetic} {p q : SlidePresenter} {counts : List Nat}
  {i played : Nat}

/-- The board draws the images of the current slide that have been played, each once, and no other
image of the presentation. -/
def Displays (p : SlidePresenter) : Prop :=
  ∀ j slide image u, p.slides[j]? = some slide → slide.uuidOf image = some u →
    p.board.timesDrawn u = if j = p.currentSlideIndex ∧ image ∈ slide.playedImages then 1 else 0

/-- What a key does. -/
def press (alloc : Allocator) (d : DoubleArithmetic) (p : SlidePresenter) :
    SlideKey → Except SlideFault SlidePresenter
  | .next => p.onNextAction alloc d
  | .previous => p.onPreviousAction alloc d

/-- A new presenter that can be put on a board: all images have different uuids, and none of them is
on the board. -/
structure Presentable (p : SlidePresenter) (board : Page) : Prop where
  nonempty : 0 < p.slides.length
  new : ∀ slide ∈ p.slides, slide.actionIndex = -1 ∧ slide.hasAddedToBanBase = []
  unsized : p.hasBeenSetSize = false
  distinct : ∀ j k image other u, p.nameOf j image = some u → p.nameOf k other = some u →
    j = k ∧ image = other
  live : board.Live
  unused : ∀ j image u, p.nameOf j image = some u → ∀ pointer, ¬ board.hasUuid u pointer

/-- Presenters that have been put on a board and are stepped through. -/
def presenting (alloc : Allocator) (d : DoubleArithmetic) : System SlidePresenter SlideKey where
  init s := ∃ (p : SlidePresenter) (board : Page), p.Presentable board ∧
    p.onAddSlidePresenterTriggered alloc d board = .ok s
  step s e t := s.press alloc d e = .ok t

/-- When a key keeps the display: a slide is left backwards before any of its shapes is shown. -/
def LeavesNothing (p : SlidePresenter) : SlideKey → Prop
  | .next => True
  | .previous => p.currentSlideIndex = 0 ∨
      ∀ slide, p.slides[p.currentSlideIndex]? = some slide → slide.actionIndex = 0

/-- What is displayed is what is shown. -/
lemma displays_iff_shown (h : p.OnCourse counts i (played + 1)) :
    p.Displays ↔ p.Shown i (played + 1) := by
  have himages : ∀ slide, p.slides[i]? = some slide →
      slide.playedImages = imagesUpTo (p.actionsOf i) (played + 1) := by
    intro slide hslide
    have hindex : slide.actionIndex = played := by
      rw [(h.slide hslide).2, due, if_neg (lt_irrefl i), if_pos rfl]
      omega
    rw [actionsOf_eq hslide, Slide.playedImages, hindex, if_neg (by omega), Int.toNat_natCast,
      imagesUpTo]
  have hdrawn : ∀ j slide image, p.slides[j]? = some slide →
      (j = p.currentSlideIndex ∧ image ∈ slide.playedImages ↔
        j = i ∧ image ∈ imagesUpTo (p.actionsOf i) (played + 1)) := by
    intro j slide image hslide
    rw [h.current]
    refine and_congr_right fun hj => ?_
    rw [himages slide (hj ▸ hslide)]
  constructor
  · intro hall k image u hu
    obtain ⟨slide, hslide, huo⟩ := Option.bind_eq_some_iff.mp hu
    exact (hall k slide image u hslide huo).trans (if_congr (hdrawn k slide image hslide) rfl rfl)
  · intro hall j slide image u hslide hu
    have hname : p.nameOf j image = some u := by
      rw [nameOf, hslide]
      exact hu
    exact (hall j image u hname).trans (if_congr (hdrawn j slide image hslide).symm rfl rfl)

/-! ## The beginning -/

/-- A presenter that has shown nothing. -/
structure Blank (p : SlidePresenter) : Prop where
  tracks : p.Tracks
  new : ∀ slide ∈ p.slides, slide.actionIndex = -1
  unsized : p.hasBeenSetSize = false
  blank : ∀ k image u, p.nameOf k image = some u → p.board.timesDrawn u = 0

/-- A new presenter has shown nothing on the board it is put on. -/
lemma Presentable.blank {board : Page} (h : p.Presentable board) : Blank { p with board } := by
  have hnone : ∀ j image u, p.nameOf j image = some u → board.timesDrawn u = 0 := by
    intro j image u hu
    exact List.countP_eq_zero.mpr fun pointer _ => h.unused j image u hu pointer
  have hname : ∀ j slide image u, p.slides[j]? = some slide → slide.uuidOf image = some u →
      p.nameOf j image = some u := by
    intro j slide image u hslide hu
    rw [nameOf, hslide]
    exact hu
  refine ⟨⟨fun j slide hslide => ⟨h.live, fun image u hu => ?_, fun image u hu _ => ?_,
    fun image u hu => ?_, fun image u hu pointer _ => ?_, fun image other u hu hother => ?_⟩,
    fun j k image other u hu hother => (h.distinct j k image other u hu hother).1⟩,
    fun slide hslide => (h.new slide hslide).1, h.unsized, hnone⟩
  · rw [(h.new slide (List.mem_of_getElem? hslide)).2]
    refine iff_of_false List.not_mem_nil ?_
    rintro ⟨pointer, -, hhas⟩
    exact h.unused j image u (hname j slide image u hslide hu) pointer hhas
  · exact hnone j image u (hname j slide image u hslide hu)
  · exact (hnone j image u (hname j slide image u hslide hu)).trans_le (Nat.zero_le 1)
  · exact h.unused j image u (hname j slide image u hslide hu) pointer
  · exact (h.distinct j j image other u (hname j slide image u hslide hu)
      (hname j slide other u hslide hother)).2

/-- Hiding a slide of which nothing has been shown. -/
lemma blank_onSlide (h : p.Blank) {j : Nat} (hj : j < p.slides.length) :
    Gives (p.onSlide j (Slide.hide alloc)) fun q =>
      q.Blank ∧ q.slides.length = p.slides.length := by
  obtain ⟨slide, hslide⟩ : ∃ slide, p.slides[j]? = some slide := ⟨_, List.getElem?_eq_getElem hj⟩
  have hindex := h.new slide (List.mem_of_getElem? hslide)
  unfold onSlide
  rw [hslide]
  refine (Slide.effect_hide (h.tracks.slides j slide hslide) (by rw [hindex]; omega)).bind
    fun s hs => .ok ⟨?_, List.length_set⟩
  have hpainted := h.tracks.painted hslide (Nat.zero_le 1) hs s.1.actionIndex
  refine ⟨hpainted.tracks, fun other hother => ?_, h.unsized, fun k image u hu => ?_⟩
  · rcases List.mem_or_eq_of_mem_set hother with hmem | rfl
    · exact h.new other hmem
    · exact hs.kept.actionIndex.trans hindex
  · have hname := (hpainted.nameOf_eq k image).symm.trans hu
    refine (hpainted.timesDrawn k image u hname).trans ?_
    rw [h.blank k image u hname, ite_self]

/-- A presenter that is put on a board shows its first background. -/
lemma showing_onAddSlidePresenterTriggered {board : Page} (h : p.Presentable board) :
    Gives (p.onAddSlidePresenterTriggered alloc d board) fun q => ∃ counts, q.Showing counts 0 1 := by
  have hparent : Gives (p.changeParentWidget alloc d board) fun q =>
      q.Blank ∧ q.slides.length = p.slides.length := by
    have hall : Gives ({ p with board }.setAllSlidesBanBase alloc) fun q =>
        q.Blank ∧ q.slides.length = p.slides.length := by
      refine .foldlM ⟨h.blank, rfl⟩ fun q j hmem hq => ?_
      have hj : j < q.slides.length := by
        rw [hq.2]
        exact List.mem_range.mp hmem
      exact (blank_onSlide hq.1 hj).mono fun r hr => ⟨hr.1, hr.2.trans hq.2⟩
    refine hall.bind fun q hq => ?_
    rw [if_neg (by rw [hq.1.unsized]; simp)]
    exact .ok hq
  refine hparent.bind fun q hq => ?_
  have hlength : 0 < q.slides.length := by
    rw [hq.2]
    exact h.nonempty
  unfold beginShow
  rw [if_pos hlength]
  have hcourse := onCourse_clearFrom hlength fun k slide hk => absurd hk (Nat.not_lt_zero k)
  obtain ⟨htracks, hnames, -⟩ := hq.1.tracks.clearFrom hlength
  have hshown : Shown 0 0 ({ q with currentSlideIndex := 0 }.clearFrom 0) := by
    intro k image u hu
    rw [hnames] at hu
    rw [imagesUpTo, if_neg fun hand => List.not_mem_nil hand.2]
    exact hq.1.blank k image u hu
  exact (showing_playStep ⟨hcourse, htracks, hshown⟩ _ (Nat.zero_le _)).mono fun r hr => ⟨_, hr⟩

/-- A presenter that knows its place and its images. -/
def Stepping (p : SlidePresenter) : Prop :=
  ∃ counts i played, OnCourse counts i (played + 1) p ∧ p.Tracks

/-- What a key does to the display. -/
lemma displays_press (h : p.Stepping) (hgood : p.Displays) {e : SlideKey}
    (hpress : p.press alloc d e = .ok q) :
    (LeavesNothing p e ↔ q.Displays) ∧ (LeavesNothing p e → q.Stepping) := by
  obtain ⟨counts, i, played, hcourse, htracks⟩ := h
  have hshowing : p.Showing counts i (played + 1) :=
    ⟨hcourse, htracks, (displays_iff_shown hcourse).mp hgood⟩
  cases e with
  | next =>
    obtain ⟨j, m, hq⟩ := (showing_onNextAction hshowing).of_eq hpress
    exact ⟨iff_of_true trivial ((displays_iff_shown hq.onCourse).mpr hq.shown),
      fun _ => ⟨counts, j, m, hq.onCourse, hq.tracks⟩⟩
  | previous =>
    obtain ⟨j, m, hq, htracks', hiff⟩ := (shown_onPreviousAction hshowing).of_eq hpress
    refine ⟨Iff.trans ?_ (hiff.symm.trans (displays_iff_shown hq).symm),
      fun _ => ⟨counts, j, m, hq, htracks'⟩⟩
    obtain ⟨slide, hslide, -, hindex⟩ := hcourse.exists_current
    unfold LeavesNothing
    rw [hcourse.current] at hslide ⊢
    refine or_congr_right ⟨fun hall => ?_, fun hplayed other hother => ?_⟩
    · have hzero := hall slide hslide
      omega
    · obtain rfl := Option.some.inj (hslide.symm.trans hother)
      omega

/-- Stepping through a presentation displays the played images of the current slide, and nothing of
the other slides, exactly as long as no slide is left backwards after one of its shapes is shown. -/
theorem displays_iff (alloc : Allocator) (d : DoubleArithmetic) (s : SlidePresenter)
    (h : (presenting alloc d).init s) (es : List SlideKey) :
    (presenting alloc d).EveryState Displays s es ↔
      (presenting alloc d).EveryStep LeavesNothing s es := by
  obtain ⟨p, board, hp, hs⟩ := h
  obtain ⟨counts, hshowing⟩ := (showing_onAddSlidePresenterTriggered hp).of_eq hs
  have hinit : s.Stepping ∧ s.Displays :=
    ⟨⟨counts, 0, 0, hshowing.onCourse, hshowing.tracks⟩,
      (displays_iff_shown hshowing.onCourse).mpr hshowing.shown⟩
  exact System.everyState_iff hinit (fun s e t hI hgood hstep => displays_press hI hgood hstep) es

/-- The presenter with two slides can be put on an empty board. -/
lemma presentable_twoSlides : twoSlides.Presentable (.new [9]) := by
  have hname : ∀ j image u, twoSlides.nameOf j image = some u →
      (j = 0 ∧ image = .background ∧ u = [1]) ∨ (j = 1 ∧ image = .background ∧ u = [2]) ∨
        (j = 1 ∧ image = .shape 0 ∧ u = [3]) := by
    intro j image u hu
    obtain ⟨slide, hslide, huo⟩ := Option.bind_eq_some_iff.mp hu
    match j, hslide, image with
    | 0, hslide, .background =>
      obtain rfl := Option.some.inj hslide
      exact .inl ⟨rfl, rfl, (Option.some.inj huo).symm⟩
    | 0, hslide, .shape id =>
      obtain rfl := Option.some.inj hslide
      cases huo
    | 1, hslide, .background =>
      obtain rfl := Option.some.inj hslide
      exact .inr (.inl ⟨rfl, rfl, (Option.some.inj huo).symm⟩)
    | 1, hslide, .shape id =>
      obtain rfl := Option.some.inj hslide
      obtain ⟨e, he, rfl⟩ := Slide.image_of_uuidOf huo
      have hfind := (OrderedMap.find_insert (OrderedMap.empty : OrderedMap Int Element) 0 id
        (picture [3])).symm.trans he
      split_ifs at hfind with hid
      · obtain rfl := Option.some.inj hfind
        exact .inr (.inr ⟨rfl, by rw [hid], rfl⟩)
      · cases hfind
    | j + 2, hslide, _ => cases hslide
  refine ⟨by decide, by simp [twoSlides], rfl, fun j k image other u hu hother => ?_,
    ⟨fun p hp => absurd hp List.not_mem_nil, fun p hp => absurd hp List.not_mem_nil,
      fun p hp => by cases hp⟩, fun j image u hu p hp => by cases hp⟩
  obtain ⟨rfl, rfl, rfl⟩ | ⟨rfl, rfl, rfl⟩ | ⟨rfl, rfl, rfl⟩ := hname j image u hu <;>
    obtain ⟨rfl, rfl, heq⟩ | ⟨rfl, rfl, heq⟩ | ⟨rfl, rfl, heq⟩ := hname k other _ hother <;>
    first | exact ⟨rfl, rfl⟩ | exact absurd heq (by decide)

/-- Going forwards, the presenter with two slides displays what it should. -/
theorem displays_iff_twoSlides : ∃ s, (presenting .ascending unscaled).init s ∧
    (presenting .ascending unscaled).EveryState Displays s [.next, .next, .next] := by
  obtain ⟨s, hs, -⟩ := @showing_onAddSlidePresenterTriggered .ascending unscaled _ _
    presentable_twoSlides
  have hinit : (presenting .ascending unscaled).init s := ⟨_, _, presentable_twoSlides, hs⟩
  refine ⟨s, hinit, (displays_iff .ascending unscaled s hinit _).mpr ?_⟩
  intro first e others t r hes _ _
  have hmem : e ∈ [SlideKey.next, .next, .next] := by
    rw [hes]
    exact List.mem_append_right _ List.mem_cons_self
  obtain rfl : e = .next := by simpa using hmem
  trivial

/-- Going back from a shape of the second slide leaves the shape on the board. -/
theorem not_displays_leftBackwards : ∃ s, (presenting .ascending unscaled).init s ∧
    ¬ (presenting .ascending unscaled).EveryState Displays s [.next, .next, .previous] := by
  have hlast : ((twoSlides.onAddSlidePresenterTriggered .ascending unscaled (.new [9])).toOption.bind
      fun s => [SlideKey.next, .next, .previous].foldlM
        (fun p e => (p.press .ascending unscaled e).toOption) s).any fun q =>
          q.currentSlideIndex == 0 && q.nameOf 1 (.shape 0) == some [3] &&
            q.board.timesDrawn [3] == 1 := by
    decide +kernel
  obtain ⟨q, hq, htest⟩ := (Option.any_eq_true _ _).mp hlast
  obtain ⟨s, hs, hkeys⟩ := Option.bind_eq_some_iff.mp hq
  have htoOption : ∀ (x : Except SlideFault SlidePresenter) (t : SlidePresenter),
      x.toOption = some t → x = .ok t := by
    intro x t hx
    cases x with
    | error fault => cases hx
    | ok r => exact congrArg _ (Option.some.inj hx)
  refine ⟨s, ⟨_, _, presentable_twoSlides, htoOption _ _ hs⟩, fun hall => ?_⟩
  have hrun : (presenting .ascending unscaled).Run s [.next, .next, .previous] q :=
    .foldlM (fun p e r hr => htoOption _ _ hr) hkeys
  have hdisplays := hall _ [] q (List.append_nil _).symm hrun
  simp only [Bool.and_eq_true, beq_iff_eq] at htest
  obtain ⟨⟨hcurrent, hname⟩, hdrawn⟩ := htest
  obtain ⟨slide, hslide, hu⟩ := Option.bind_eq_some_iff.mp hname
  have htimes := hdisplays 1 slide (.shape 0) [3] hslide hu
  rw [hdrawn, hcurrent, if_neg fun hand => absurd hand.1 Nat.one_ne_zero] at htimes
  exact one_ne_zero htimes

end SlidePresenter

end Liangshi

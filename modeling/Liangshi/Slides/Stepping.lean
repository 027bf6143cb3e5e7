import Liangshi.Slides.SlidePresenter
import Liangshi.Transition.Outcome

/-!
# Stepping through slides

A presenter goes through its slides step by step: the background of a slide, its actions in order,
then the background of the next slide.  The place in a presentation is the current slide and the
number of its steps that have been played; `SlideEvent.place` says where an event leads.  It follows
from an invariant over the counters of all slides, `OnCourse`: those before the current slide have
played everything and those behind it nothing.
-/

namespace Liangshi

open Wire Ordered Transition

namespace Slide

variable {alloc : Allocator} {d : DoubleArithmetic} {slide slide' : Slide} {board : Page}

/-- A slide has an image: its background, or the shape of one of its actions. -/
def Has (slide : Slide) : SlideImage → Prop
  | .background => True
  | .shape id => ∃ action ∈ slide.shapeActions, action.id = id

/-- The image can be found. -/
lemma Has.exists_image {image : SlideImage} (h : slide.Has image) :
    ∃ e, slide.image image = some e := by
  cases image with
  | background => exact ⟨_, rfl⟩
  | shape id =>
    obtain ⟨action, hmem, rfl⟩ := h
    exact Option.isSome_iff_exists.mp (slide.shaped action hmem)

/-- How far a slide has come: the number of its actions and its counter. -/
def progress (slide : Slide) : Nat × Int := (slide.shapeActions.length, slide.actionIndex)

/-- The actions and the counter of a slide are kept. -/
structure Kept (slide slide' : Slide) : Prop where
  shapeActions : slide'.shapeActions = slide.shapeActions
  actionIndex : slide'.actionIndex = slide.actionIndex

/-- Nothing is changed. -/
lemma Kept.refl (slide : Slide) : slide.Kept slide := ⟨rfl, rfl⟩

/-- One change after another. -/
lemma Kept.trans {slide'' : Slide} (h : slide.Kept slide') (h' : slide'.Kept slide'') :
    slide.Kept slide'' :=
  ⟨h'.shapeActions.trans h.shapeActions, h'.actionIndex.trans h.actionIndex⟩

/-- The images are those it had. -/
lemma Kept.has {image : SlideImage} (h : slide.Kept slide') (hhas : slide.Has image) :
    slide'.Has image := by
  cases image with
  | background => trivial
  | shape id =>
    rw [Has, h.shapeActions]
    exact hhas

/-- The slide has come as far as before. -/
lemma Kept.progress_eq (h : slide.Kept slide') : slide'.progress = slide.progress := by
  rw [progress, progress, h.shapeActions, h.actionIndex]

/-! ## Operations of one slide -/

/-- An operation keeps the actions and the counter. -/
abbrev Keeps (slide : Slide) (result : Except SlideFault (Slide × Page)) : Prop :=
  Gives result fun s => slide.Kept s.1

/-- An image of a slide is put on the board. -/
lemma keeps_addToBanBase {image : SlideImage} (h : slide.Has image) :
    slide.Keeps (slide.addToBanBase alloc board image) := by
  obtain ⟨e, he⟩ := h.exists_image
  unfold addToBanBase
  rw [he]
  exact .ite (fun _ => .ok (.refl slide)) fun _ => .ok ⟨rfl, rfl⟩

/-- An image of a slide is resized. -/
lemma keeps_changeSize {image : SlideImage} (h : slide.Has image) (leftTop : SPoint) (size : SSize) :
    slide.Keeps (slide.changeSize d board image leftTop size) := by
  obtain ⟨e, he⟩ := h.exists_image
  unfold changeSize
  rw [he]
  exact .ok (.refl slide)

/-- An image of a slide is resized with an action. -/
lemma keeps_addSizeAction {image : SlideImage} (h : slide.Has image) (leftTop : SPoint)
    (size : SSize) : slide.Keeps (slide.addSizeAction alloc d board image leftTop size) :=
  (keeps_addToBanBase h).bind fun _ hs =>
    (keeps_changeSize (hs.has h) leftTop size).mono fun _ => hs.trans

/-- An image of a slide is hidden. -/
lemma keeps_hideImageElement {image : SlideImage} (h : slide.Has image) :
    slide.Keeps (slide.hideImageElement alloc board image) := by
  refine (keeps_addToBanBase h).bind fun s hs => ?_
  obtain ⟨e, he⟩ := (hs.has h).exists_image
  dsimp only
  rw [he]
  exact .ok hs

/-- A shape of a slide is found. -/
lemma gives_currentShape {id : Int} (h : slide.Has (.shape id)) :
    Gives (slide.currentShape d id) fun _ => True := by
  obtain ⟨e, he⟩ := h.exists_image
  unfold currentShape
  rw [show slide.shapes.find id = some e from he]
  exact .ok trivial

/-- The first actions are actions of the slide. -/
lemma gives_firstActions {count : Int} (h : count ≤ slide.shapeActions.length) :
    Gives (slide.firstActions count) fun actions => actions = slide.shapeActions.take count.toNat := by
  unfold firstActions
  rw [if_pos h]
  exact .ok rfl

/-- The shapes of the first actions are there. -/
lemma has_of_mem_take {count : Nat} {action : ShapeAction}
    (h : action ∈ slide.shapeActions.take count) : slide.Has (.shape action.id) :=
  ⟨action, List.mem_of_mem_take h, rfl⟩

/-- A slide is hidden. -/
lemma keeps_hide (h : slide.actionIndex ≤ slide.shapeActions.length) :
    slide.Keeps (slide.hide alloc board) := by
  have hbackground : slide.Has .background := trivial
  refine (keeps_hideImageElement hbackground).bind fun s hs => ?_
  refine (gives_firstActions (by rw [hs.actionIndex, hs.shapeActions]; exact h)).bind fun actions hact => ?_
  refine .foldlM hs fun t action hmem ht => ?_
  have hhas : slide.Has (.shape action.id) := by
    rw [hact, hs.shapeActions] at hmem
    exact has_of_mem_take hmem
  exact (keeps_hideImageElement (ht.has hhas)).mono fun _ => ht.trans

/-- The actions that go with an image are sent or not. -/
lemma keeps_addActionsWhen {image : SlideImage} (h : slide.Has image) (withAction withShow : Bool)
    (leftTop : SPoint) (size : SSize) : slide.Keeps
      (slide.addActionsWhen alloc d withAction withShow board image leftTop size) := by
  refine .ite (fun _ => ?_) fun _ => .ok (.refl slide)
  have hshow : slide.Keeps (slide.addShowActionWhen alloc withShow board image) :=
    .ite (fun _ => keeps_addToBanBase h) fun _ => .ok (.refl slide)
  exact hshow.bind fun _ hs => (keeps_addSizeAction (hs.has h) _ _).mono fun _ => hs.trans

/-- A shape is resized. -/
lemma keeps_resizeShape {s : Slide × Page} {action : ShapeAction} {withAction withShow : Bool}
    (h : s.1.Has (.shape action.id)) :
    s.1.Keeps (resizeShape alloc d withAction withShow s action) :=
  (gives_currentShape h).bind fun _ _ => (keeps_changeSize h _ _).bind fun _ ht =>
    (keeps_addActionsWhen (ht.has h) _ _ _ _).mono fun _ => ht.trans

/-- A slide gets a new place and size. -/
lemma keeps_setNewSize (h : slide.actionIndex ≤ slide.shapeActions.length) (leftTop : SPoint)
    (size : SSize) (withAction withShow : Bool) :
    slide.Keeps (slide.setNewSize alloc d board leftTop size withAction withShow) := by
  have hsized : slide.Kept { slide with leftTop, currentSize := size } := ⟨rfl, rfl⟩
  have hbackground : Has { slide with leftTop, currentSize := size } .background := trivial
  refine (keeps_addActionsWhen hbackground _ _ _ _).bind fun s hs => ?_
  have hkept := hsized.trans hs
  refine (gives_firstActions (by rw [hkept.actionIndex, hkept.shapeActions]; exact h)).bind
    fun actions hact => ?_
  refine .foldlM hkept fun t action hmem ht => ?_
  have hhas : slide.Has (.shape action.id) := by
    rw [hact, hkept.shapeActions] at hmem
    exact has_of_mem_take hmem
  exact (keeps_resizeShape (ht.has hhas)).mono fun _ => ht.trans

/-- A slide is shown on the board. -/
lemma keeps_updateBanBase (h : slide.actionIndex ≤ slide.shapeActions.length) :
    slide.Keeps (slide.updateBanBase alloc d board) :=
  keeps_setNewSize h _ _ _ _

/-- Playing an action changes the size its shape has originally. -/
lemma kept_updateShape (slide : Slide) (action : ShapeAction) :
    slide.Kept (slide.updateShape d action) := by
  unfold updateShape
  split
  · exact .refl slide
  · exact ⟨rfl, rfl⟩

/-- The shape of an action is shown. -/
lemma keeps_showShape {action : ShapeAction} (h : slide.Has (.shape action.id)) :
    slide.Keeps (slide.showShape alloc d board action) := by
  have hupdate := slide.kept_updateShape (d := d) action
  refine (gives_currentShape (hupdate.has h)).bind fun _ _ => ?_
  exact (keeps_addToBanBase (hupdate.has h)).bind fun _ hs =>
    (keeps_addSizeAction ((hupdate.trans hs).has h) _ _).mono fun _ => (hupdate.trans hs).trans

/-- The shapes of some actions are shown, one after another. -/
lemma keeps_showShapes {actions : List ShapeAction} {s : Slide × Page}
    (h : ∀ action ∈ actions, s.1.Has (.shape action.id)) :
    s.1.Keeps (showShapes alloc d actions s) := by
  induction actions generalizing s with
  | nil => exact .ok (.refl s.1)
  | cons action later ih =>
    obtain ⟨hfirst, hlater⟩ := List.forall_mem_cons.mp h
    refine .ite (fun _ => ih hlater) fun _ => ?_
    exact (keeps_showShape hfirst).bind fun t ht =>
      (ih fun other hother => ht.has (hlater other hother)).mono fun _ => ht.trans

/-- A slide with a step left plays it. -/
lemma gives_nextAction (h : slide.actionIndex < slide.shapeActions.length) :
    Gives (slide.nextAction alloc d board) fun r => r.1.shapeActions = slide.shapeActions ∧
      r.1.actionIndex = slide.actionIndex + 1 ∧ r.2.2 = true := by
  have hbackground : slide.Has .background := trivial
  refine .ite (fun heq => absurd heq (Int.ne_of_lt h)) fun _ => .ite (fun _ => ?_) fun _ => ?_
  · refine (keeps_addToBanBase hbackground).bind fun s hs => ?_
    refine (keeps_addSizeAction (hs.has hbackground) _ _).bind fun t ht => .ok ?_
    have hkept := hs.trans ht
    exact ⟨hkept.shapeActions, by rw [hkept.actionIndex], rfl⟩
  · refine (gives_firstActions (Int.add_one_le_of_lt h)).bind fun actions hact => ?_
    have hhas : ∀ action ∈ actions, slide.Has (.shape action.id) := by
      rw [hact]
      exact fun action => has_of_mem_take
    refine (keeps_showShapes (s := (slide, board)) hhas).bind fun t ht => .ok ?_
    exact ⟨ht.shapeActions, by rw [ht.actionIndex], rfl⟩

/-- A slide without steps left plays none. -/
lemma nextAction_last (h : slide.actionIndex = slide.shapeActions.length) :
    slide.nextAction alloc d board = .ok (slide, board, false) :=
  if_pos h

/-- Showing the current step again leaves the counter where it is. -/
lemma keeps_toCurrentAction (h : slide.actionIndex ≤ slide.shapeActions.length) :
    slide.Keeps (slide.toCurrentAction alloc d board) := by
  have hbefore : ({ slide with actionIndex := slide.actionIndex - 1 } : Slide).actionIndex <
      slide.shapeActions.length := Int.sub_one_lt_of_le h
  refine (gives_nextAction hbefore).bind fun r hr => .ok ⟨hr.1, ?_⟩
  rw [hr.2.1]
  exact Int.sub_add_cancel _ _

end Slide

/-! ## The presenter -/

namespace SlidePresenter

variable {alloc : Allocator} {d : DoubleArithmetic} {p : SlidePresenter}

/-- How far the slides have come. -/
def progress (p : SlidePresenter) : List (Nat × Int) := p.slides.map Slide.progress

/-- What the counter of a slide is to be, at a slide and so many of its steps. -/
def due (i played j n : Nat) : Int := if j < i then n else if j = i then played - 1 else -1

/-- The presenter is on course: at a slide some of whose steps have been played, all steps of those
before it and none of those behind it. -/
structure OnCourse (counts : List Nat) (i played : Nat) (p : SlidePresenter) : Prop where
  current : p.currentSlideIndex = i
  inside : ∃ n, counts[i]? = some n ∧ played ≤ n + 1
  progress : ∀ j, p.progress[j]? = counts[j]?.map fun n : Nat => ((n, due i played j n) : Nat × Int)

variable {counts : List Nat} {i played : Nat}

/-- There are as many slides as counts. -/
lemma OnCourse.length_eq (h : p.OnCourse counts i played) : p.slides.length = counts.length := by
  have hprogress : p.progress =
      counts.mapIdx fun (j n : Nat) => ((n, due i played j n) : Nat × Int) := by
    refine List.ext_getElem? fun j => ?_
    rw [h.progress, List.getElem?_mapIdx]
  have hlength := congrArg List.length hprogress
  rwa [SlidePresenter.progress, List.length_map, List.length_mapIdx] at hlength

/-- The counter of every slide is as it is to be. -/
lemma OnCourse.slide (h : p.OnCourse counts i played) {j : Nat} {slide : Slide}
    (hj : p.slides[j]? = some slide) : counts[j]? = some slide.shapeActions.length ∧
      slide.actionIndex = due i played j slide.shapeActions.length := by
  have hprogress := h.progress j
  rw [SlidePresenter.progress, List.getElem?_map, hj, Option.map_some] at hprogress
  cases hcount : counts[j]? with
  | none =>
    rw [hcount] at hprogress
    cases hprogress
  | some n =>
    rw [hcount, Option.map_some, Option.some.injEq, Slide.progress, Prod.mk.injEq] at hprogress
    obtain ⟨rfl, hindex⟩ := hprogress
    exact ⟨rfl, hindex⟩

/-- The current slide. -/
lemma OnCourse.exists_current (h : p.OnCourse counts i played) : ∃ slide,
    p.slides[p.currentSlideIndex]? = some slide ∧
      counts[i]? = some slide.shapeActions.length ∧ slide.actionIndex = played - 1 := by
  obtain ⟨n, hn, -⟩ := h.inside
  obtain ⟨hi, -⟩ := List.getElem?_eq_some_iff.mp hn
  have hlt : p.currentSlideIndex < p.slides.length := by
    rw [h.current, h.length_eq]
    exact hi
  obtain ⟨slide, hslide⟩ : ∃ slide, p.slides[p.currentSlideIndex]? = some slide :=
    ⟨_, List.getElem?_eq_getElem hlt⟩
  obtain ⟨hcount, hindex⟩ := h.slide hslide
  rw [h.current] at hcount hindex
  refine ⟨slide, hslide, hcount, ?_⟩
  rw [hindex, due, if_neg (lt_irrefl i), if_pos rfl]

/-- No counter goes beyond the actions. -/
lemma OnCourse.actionIndex_le (h : p.OnCourse counts i played) {j : Nat} {slide : Slide}
    (hj : p.slides[j]? = some slide) :
    -1 ≤ slide.actionIndex ∧ slide.actionIndex ≤ slide.shapeActions.length := by
  obtain ⟨hcount, hindex⟩ := h.slide hj
  obtain ⟨n, hn, hplayed⟩ := h.inside
  rw [hindex]
  unfold due
  split_ifs with hlt heq
  · omega
  · subst heq
    obtain rfl := Option.some.inj (hcount.symm.trans hn)
    omega
  · omega

/-! ## Operations that keep the place -/

/-- The place and the counters are kept. -/
structure Kept (p q : SlidePresenter) : Prop where
  progress : q.progress = p.progress
  current : q.currentSlideIndex = p.currentSlideIndex

/-- A presenter stays on course. -/
lemma OnCourse.of_kept {q : SlidePresenter} (h : p.OnCourse counts i played) (hkept : p.Kept q) :
    q.OnCourse counts i played :=
  ⟨hkept.current.trans h.current, h.inside, fun j => by rw [hkept.progress, h.progress]⟩

/-- Replacing an item by one with the same image. -/
lemma map_set_eq {α β : Type} (f : α → β) {l : List α} {j : Nat} {a b : α} (hj : l[j]? = some a)
    (hf : f b = f a) : (l.set j b).map f = l.map f := by
  obtain ⟨hlt, rfl⟩ := List.getElem?_eq_some_iff.mp hj
  rw [List.map_set, hf, ← List.getElem_map f (h := by rwa [List.length_map]), List.set_getElem_self]

/-- What an operation that keeps a slide does to the presenter. -/
lemma keeps_onSlide {j : Nat} {operation : Slide → Page → Except SlideFault (Slide × Page)}
    (hj : j < p.slides.length)
    (h : ∀ slide, p.slides[j]? = some slide → slide.Keeps (operation slide p.board)) :
    Gives (p.onSlide j operation) p.Kept := by
  have hslide : p.slides[j]? = some p.slides[j] := List.getElem?_eq_getElem hj
  unfold onSlide
  rw [hslide]
  refine (h _ hslide).bind fun s hs => .ok ⟨?_, rfl⟩
  exact map_set_eq Slide.progress hslide hs.progress_eq

/-- What is done to every slide in turn. -/
lemma onCourse_foldlM {operation : SlidePresenter → Nat → Except SlideFault SlidePresenter}
    (h : p.OnCourse counts i played)
    (hop : ∀ (q : SlidePresenter) (j : Nat), q.OnCourse counts i played → j < q.slides.length →
      Gives (operation q j) q.Kept) :
    Gives ((List.range p.slides.length).foldlM operation p) (OnCourse counts i played) := by
  refine .foldlM h fun q j hmem hq => ?_
  have hj : j < q.slides.length := by
    rw [hq.length_eq, ← h.length_eq]
    exact List.mem_range.mp hmem
  exact (hop q j hq hj).mono fun _ => hq.of_kept

variable (h : p.OnCourse counts i played)

include h

/-- A slide of a presentation is hidden. -/
lemma keeps_hide {j : Nat} (hj : j < p.slides.length) :
    Gives (p.onSlide j (Slide.hide alloc)) p.Kept :=
  keeps_onSlide hj fun _ hslide => Slide.keeps_hide (h.actionIndex_le hslide).2

/-- All slides are hidden. -/
lemma onCourse_setAllSlidesBanBase :
    Gives (p.setAllSlidesBanBase alloc) (OnCourse counts i played) :=
  onCourse_foldlM h fun _ _ hq hj => keeps_hide hq hj

/-- The slide before is hidden. -/
lemma onCourse_hidePrevious : Gives (p.hidePrevious alloc) (OnCourse counts i played) := by
  refine .ite (fun _ => ?_) fun _ => .ok h
  have hj : p.currentSlideIndex - 1 < p.slides.length := by
    obtain ⟨n, hn, -⟩ := h.inside
    obtain ⟨hi, -⟩ := List.getElem?_eq_some_iff.mp hn
    rw [h.current, h.length_eq]
    omega
  exact (keeps_hide h hj).mono fun _ => h.of_kept

/-- The slide behind is hidden. -/
lemma onCourse_hideFollowing : Gives (p.hideFollowing alloc) (OnCourse counts i played) :=
  .ite (fun hj => (keeps_hide h hj).mono fun _ => h.of_kept) fun _ => .ok h

/-- All slides get a new place and size. -/
lemma onCourse_sendSizeAnimation (leftTop : SPoint) (size : SSize) :
    Gives (p.sendSizeAnimation alloc d leftTop size) (OnCourse counts i played) := by
  have hsized : OnCourse counts i played { p with hasBeenSetSize := true, leftTop, size } :=
    h.of_kept ⟨rfl, rfl⟩
  exact onCourse_foldlM hsized fun _ _ hq hj =>
    keeps_onSlide hj fun _ hslide => Slide.keeps_setNewSize (hq.actionIndex_le hslide).2 _ _ _ _

/-- Showing the current slide again. -/
lemma onCourse_showCurrentSlide : Gives (p.showCurrentSlide alloc d) (OnCourse counts i played) :=
  .ite (fun hj => (keeps_onSlide hj fun _ hslide =>
    Slide.keeps_toCurrentAction (h.actionIndex_le hslide).2).mono fun _ => h.of_kept) fun _ => .ok h

/-- Going to another board. -/
lemma onCourse_changeParent (board : Page) :
    Gives (p.changeParent alloc d board) (OnCourse counts i played) := by
  have hboard : OnCourse counts i played { p with board } := h.of_kept ⟨rfl, rfl⟩
  have hparent : Gives (p.changeParentWidget alloc d board) (OnCourse counts i played) := by
    refine (onCourse_setAllSlidesBanBase hboard).bind fun q hq => ?_
    refine .ite (fun hset => ?_) fun _ => .ok hq
    exact (keeps_onSlide hset.2 fun _ hslide =>
      Slide.keeps_updateBanBase (hq.actionIndex_le hslide).2).mono fun _ => hq.of_kept
  exact hparent.bind fun _ hq => onCourse_showCurrentSlide hq

/-! ## Steps -/

/-- The current slide has played one step more. -/
lemma onCourse_set {slide : Slide} (slide' : Slide) (board : Page)
    (hslide : p.slides[p.currentSlideIndex]? = some slide) (hplayed : played ≤ slide.shapeActions.length)
    (hactions : slide'.shapeActions = slide.shapeActions) (hindex : slide'.actionIndex = played) :
    OnCourse counts i (played + 1)
      { p with slides := p.slides.set p.currentSlideIndex slide', board } := by
  have hn := (h.slide hslide).1
  rw [h.current] at hn
  refine ⟨h.current, ⟨_, hn, Nat.succ_le_succ hplayed⟩, fun j => ?_⟩
  have hbefore := h.progress j
  rw [progress, List.getElem?_map] at hbefore ⊢
  rw [List.getElem?_set, h.current]
  split_ifs with hj hlt
  · subst hj
    rw [hn, Option.map_some, Option.map_some, Slide.progress, hactions, hindex, due,
      if_neg (lt_irrefl i), if_pos rfl, Int.natCast_add]
    congr 2
    omega
  · obtain ⟨hi, -⟩ := List.getElem?_eq_some_iff.mp hn
    rw [← h.length_eq] at hi
    exact absurd hi hlt
  · rw [hbefore]
    congr 1
    funext m
    rw [due, due, if_neg (Ne.symm hj), if_neg (Ne.symm hj)]

/-- A slide with a step left plays it. -/
lemma onCourse_playStep {n : Nat} (calls : Nat) (hn : counts[i]? = some n) (hplayed : played ≤ n) :
    Gives (p.onNextActionWithin alloc d (calls + 1)) (OnCourse counts i (played + 1)) := by
  obtain ⟨slide, hslide, hcount, hdue⟩ := h.exists_current
  obtain rfl := Option.some.inj (hn.symm.trans hcount)
  unfold onNextActionWithin
  rw [hslide]
  refine (Slide.gives_nextAction (by rw [hdue]; omega)).bind fun r hr => ?_
  obtain ⟨hactions, hafter, hwas⟩ := hr
  dsimp only
  rw [if_pos hwas]
  have hcourse := onCourse_set h r.1 r.2.1 hslide hplayed hactions (by rw [hafter, hdue]; omega)
  exact (onCourse_hidePrevious hcourse).bind fun _ hq => onCourse_hideFollowing hq

/-- A slide whose steps have all been played hands over to the next one, if there is one. -/
lemma onNextActionWithin_handOver {n : Nat} (calls : Nat) (hn : counts[i]? = some n)
    (hplayed : played = n + 1) : p.onNextActionWithin alloc d (calls + 2) =
      if i + 1 < counts.length then
        onNextActionWithin alloc d (calls + 1) { p with currentSlideIndex := i + 1 }
      else .ok p := by
  obtain ⟨slide, hslide, hcount, hdue⟩ := h.exists_current
  obtain rfl := Option.some.inj (hn.symm.trans hcount)
  have hlast : slide.actionIndex = slide.shapeActions.length := by
    rw [hdue, hplayed]
    omega
  have hset : p.slides.set p.currentSlideIndex slide = p.slides := by
    obtain ⟨hlt, rfl⟩ := List.getElem?_eq_some_iff.mp hslide
    exact List.set_getElem_self hlt
  conv_lhs => unfold onNextActionWithin
  rw [hslide]
  dsimp only
  rw [Slide.nextAction_last hlast]
  dsimp only [bind, Except.bind]
  rw [if_neg Bool.false_ne_true, hset, ← h.current, h.length_eq]
  rfl

/-- Then none of the steps of the next slide has been played. -/
lemma onCourse_following {n : Nat} (hn : counts[i]? = some n) (hplayed : played = n + 1)
    (hi : i + 1 < counts.length) :
    OnCourse counts (i + 1) 0 { p with currentSlideIndex := i + 1 } := by
  refine ⟨rfl, ⟨_, List.getElem?_eq_getElem hi, Nat.zero_le _⟩, fun j => ?_⟩
  refine (h.progress j).trans ?_
  cases hc : counts[j]? with
  | none => rfl
  | some m =>
    have hm : j = i → m = n := by
      rintro rfl
      exact Option.some.inj (hc.symm.trans hn)
    refine congrArg (fun index => some (m, index)) ?_
    unfold due
    split_ifs <;> omega

end SlidePresenter

/-! ## The place in a presentation -/

/-- Where an event leads, from a slide and the number of its steps that have been played; a slide has
a step for its background and one for every action. -/
def SlideEvent.place (counts : List Nat) (place : Nat × Nat) : SlideEvent → Nat × Nat
  | .next =>
    if place.2 ≤ counts.getD place.1 0 then (place.1, place.2 + 1)
    else if place.1 + 1 < counts.length then (place.1 + 1, 1)
    else place
  | .previous => if place.1 = 0 then place else (place.1 - 1, 1)
  | .changeParent _ | .sendSizeAnimation _ _ => place

namespace SlidePresenter

variable {alloc : Allocator} {d : DoubleArithmetic} {p : SlidePresenter} {counts : List Nat}
  {i played : Nat}

/-- The counts are the numbers of actions. -/
lemma OnCourse.counts_eq (h : p.OnCourse counts i played) :
    counts = p.slides.map (·.shapeActions.length) := by
  refine List.ext_getElem? fun j => ?_
  have hlength : j < counts.length ↔ j < p.slides.length := by rw [h.length_eq]
  rw [List.getElem?_map]
  cases hslide : p.slides[j]? with
  | some slide => exact (h.slide hslide).1
  | none =>
    rw [Option.map_none, List.getElem?_eq_none_iff, ← not_lt, hlength, not_lt]
    exact List.getElem?_eq_none_iff.mp hslide

/-- The slides when the counters are set back from one on. -/
lemma getElem?_clearFrom (p : SlidePresenter) {j : Nat} (hj : j ≤ p.slides.length) (k : Nat) :
    (p.clearFrom j).slides[k]? =
      p.slides[k]?.map fun slide => if k < j then slide else slide.clearActions := by
  have htake : (p.slides.take j).length = j := by rw [List.length_take, min_eq_left hj]
  unfold clearFrom
  dsimp only
  rcases lt_or_ge k j with hk | hk
  · rw [List.getElem?_append_left (by rw [htake]; exact hk), List.getElem?_take_of_lt hk]
    simp only [if_pos hk, Option.map_id']
  · rw [List.getElem?_append_right (by rw [htake]; exact hk), htake, List.getElem?_map,
      List.getElem?_drop, Nat.add_sub_cancel' hk]
    simp only [if_neg (not_lt.mpr hk)]

/-- When the counters are set back from a slide on, none of its steps has been played. -/
lemma onCourse_clearFrom {j : Nat} (hj : j < p.slides.length)
    (hbefore : ∀ k slide, k < j → p.slides[k]? = some slide →
      slide.actionIndex = slide.shapeActions.length) :
    OnCourse (p.slides.map (·.shapeActions.length)) j 0
      ({ p with currentSlideIndex := j }.clearFrom j) := by
  have hcount : (p.slides.map (·.shapeActions.length))[j]? =
      some p.slides[j].shapeActions.length := by
    rw [List.getElem?_map, List.getElem?_eq_getElem hj, Option.map_some]
  refine ⟨rfl, ⟨_, hcount, Nat.zero_le _⟩, fun k => ?_⟩
  have hk := getElem?_clearFrom { p with currentSlideIndex := j } hj.le k
  rw [progress, List.getElem?_map, hk, List.getElem?_map]
  cases hslide : p.slides[k]? with
  | none => rfl
  | some slide =>
    simp only [Option.map_some, Slide.progress, due]
    split_ifs with hlt heq
    · rw [hbefore k slide hlt hslide]
    · rfl
    · rfl

/-- Beginning shows the first background. -/
lemma onCourse_beginShow (h : 0 < p.slides.length) : Gives (p.beginShow alloc d)
    (OnCourse (p.slides.map (·.shapeActions.length)) 0 1) := by
  unfold beginShow
  rw [if_pos h]
  have hcourse := onCourse_clearFrom h fun k slide hk => absurd hk (Nat.not_lt_zero k)
  obtain ⟨n, hn, hplayed⟩ := hcourse.inside
  exact onCourse_playStep hcourse _ hn (Nat.zero_le n)

/-- The step before is the background of the slide before. -/
lemma onCourse_onPreviousAction (h : p.OnCourse counts i (played + 1)) :
    Gives (p.onPreviousAction alloc d) (if i = 0 then OnCourse counts i (played + 1)
      else OnCourse counts (i - 1) 1) := by
  obtain ⟨n, hn, -⟩ := h.inside
  obtain ⟨hi, -⟩ := List.getElem?_eq_some_iff.mp hn
  unfold onPreviousAction
  rw [h.current, h.length_eq]
  split_ifs with hfirst
  · exact .ok h
  · have hj : i - 1 < p.slides.length := by
      rw [h.length_eq]
      omega
    have hcourse := onCourse_clearFrom hj fun k slide hk hslide => by
      rw [(h.slide hslide).2, due, if_pos (hk.trans_le (Nat.sub_le i 1))]
    rw [← h.counts_eq] at hcourse
    obtain ⟨m, hm, hplayed⟩ := hcourse.inside
    exact onCourse_playStep hcourse _ hm (Nat.zero_le m)

/-- The next step. -/
lemma onCourse_onNextAction (h : p.OnCourse counts i (played + 1)) :
    Gives (p.onNextAction alloc d) fun q =>
      let place := SlideEvent.next.place counts (i, played + 1)
      0 < place.2 ∧ OnCourse counts place.1 place.2 q := by
  obtain ⟨n, hn, hle⟩ := h.inside
  obtain ⟨hi, -⟩ := List.getElem?_eq_some_iff.mp hn
  have hcalls : p.slides.length + 1 = counts.length - 1 + 2 := by
    rw [h.length_eq]
    omega
  unfold onNextAction SlideEvent.place
  rw [hcalls]
  dsimp only
  rw [List.getD_eq_getElem?_getD, hn, Option.getD_some]
  by_cases hplayed : played + 1 ≤ n
  · rw [if_pos hplayed]
    exact (onCourse_playStep h _ hn hplayed).mono fun _ hq => ⟨Nat.succ_pos _, hq⟩
  · have hall : played + 1 = n + 1 := by omega
    rw [if_neg hplayed, onNextActionWithin_handOver h _ hn hall]
    split_ifs with hnext
    · exact (onCourse_playStep (onCourse_following h hn hall hnext) _ (List.getElem?_eq_getElem hnext)
        (Nat.zero_le _)).mono fun _ hq => ⟨Nat.one_pos, hq⟩
    · exact .ok ⟨Nat.succ_pos _, h⟩

/-- An event leads to its place. -/
lemma onCourse_next (h : p.OnCourse counts i (played + 1)) (e : SlideEvent) :
    Gives (p.next alloc d e) fun q =>
      let place := e.place counts (i, played + 1)
      0 < place.2 ∧ OnCourse counts place.1 place.2 q := by
  cases e with
  | next => exact onCourse_onNextAction h
  | previous =>
    refine (onCourse_onPreviousAction h).mono fun q hq => ?_
    unfold SlideEvent.place
    dsimp only
    split_ifs at hq ⊢ with hfirst
    · exact ⟨Nat.succ_pos _, hq⟩
    · exact ⟨Nat.one_pos, hq⟩
  | changeParent board =>
    exact (onCourse_changeParent h board).mono fun q hq => ⟨Nat.succ_pos _, hq⟩
  | sendSizeAnimation leftTop size =>
    exact (onCourse_sendSizeAnimation h leftTop size).mono fun q hq => ⟨Nat.succ_pos _, hq⟩

/-- The presenter is at a place: so many steps of the current slide have been played, and no counter
goes beyond the actions of its slide. -/
structure At (place : Nat × Nat) (p : SlidePresenter) : Prop where
  current : p.currentSlideIndex = place.1
  played : ∃ slide, p.slides[place.1]? = some slide ∧ slide.actionIndex + 1 = place.2
  bounded : ∀ slide ∈ p.slides,
    -1 ≤ slide.actionIndex ∧ slide.actionIndex ≤ slide.shapeActions.length

/-- On course, the presenter is at its place. -/
lemma OnCourse.atPlace (h : p.OnCourse counts i played) : p.At (i, played) := by
  obtain ⟨slide, hslide, -, hdue⟩ := h.exists_current
  refine ⟨h.current, ⟨slide, ?_, ?_⟩, fun other hother => ?_⟩
  · rwa [h.current] at hslide
  · rw [hdue]
    exact Int.sub_add_cancel _ _
  · obtain ⟨j, hj⟩ := List.mem_iff_getElem?.mp hother
    exact h.actionIndex_le hj

/-- After `BeginShow`, whatever happens to a presenter with slides leads without a fault to its place
in the presentation. -/
theorem at_of_beginShow (alloc : Allocator) (d : DoubleArithmetic) (p : SlidePresenter)
    (h : 0 < p.slides.length) (es : List SlideEvent) :
    Gives (p.beginShow alloc d >>= es.foldlM (next alloc d))
      (At (es.foldl (SlideEvent.place (p.slides.map (·.shapeActions.length))) (0, 1))) := by
  have hrun : ∀ (es : List SlideEvent) (q : SlidePresenter) (place : Nat × Nat),
      0 < place.2 ∧ OnCourse (p.slides.map (·.shapeActions.length)) place.1 place.2 q →
      Gives (es.foldlM (next alloc d) q)
        (At (es.foldl (SlideEvent.place (p.slides.map (·.shapeActions.length))) place)) := by
    intro es
    induction es with
    | nil => exact fun q place hq => .ok hq.2.atPlace
    | cons e es ih =>
      rintro q ⟨i, played⟩ ⟨hpos, hq⟩
      obtain ⟨k, rfl⟩ := Nat.exists_eq_succ_of_ne_zero hpos.ne'
      rw [List.foldlM_cons, List.foldl_cons]
      exact (onCourse_next hq e).bind fun r hr => ih r _ hr
  exact (onCourse_beginShow h).bind fun q hq => hrun es q (0, 1) ⟨Nat.one_pos, hq⟩

/-- Arithmetic that is right for a slide in its original size. -/
def unscaled : DoubleArithmetic := ⟨fun _ _ => SMatrix.one, fun n _ => n⟩

/-- A small picture with a uuid. -/
def picture (uuid : Bytes) : Element := .new uuid (.image ⟨0, 0⟩ 4 3 .null)

/-- A presenter with an empty slide and one on which a shape is shown. -/
def twoSlides : SlidePresenter where
  slides := [
    ⟨picture [1], .empty, [], by simp, -1, [], ⟨0, 0⟩, ⟨4, 3⟩, ⟨4, 3⟩⟩,
    ⟨picture [2], OrderedMap.empty.insert 0 (picture [3]), [⟨0, ⟨0, 0⟩, 4, 3⟩], by decide +kernel, -1, [],
      ⟨0, 0⟩, ⟨4, 3⟩, ⟨4, 3⟩⟩]
  currentSlideIndex := 0
  hasBeenSetSize := false
  leftTop := ⟨0, 0⟩
  size := ⟨4, 3⟩
  board := .new [9]

/-- Two steps on, the shape of the second slide is the next to be shown; another page does not change
that, and one step back leads to the background of the first. -/
theorem at_of_beginShow_twoSlides :
    Gives (twoSlides.beginShow .ascending unscaled >>=
      [SlideEvent.next, .changeParent (.new [8]), .next, .previous].foldlM
        (next .ascending unscaled)) (At (0, 1)) :=
  at_of_beginShow .ascending unscaled twoSlides (by decide) _

end SlidePresenter

end Liangshi

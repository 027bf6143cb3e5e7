import Liangshi.Slides.Slide

/-!
# Slide presenters

`SlidePresenter` of `Client/src/hera` with the board it shows its slides on: one index for the slide
and one counter in every slide.  `OnNextAction` calls itself for the next slide when the current one
has no more actions; a call that never ended would be a fault.
-/

namespace Liangshi

/-- `SlidePresenter`, with the board it is on.  Until `BeginShow` the index holds anything. -/
structure SlidePresenter where
  slides : List Slide
  currentSlideIndex : Nat
  hasBeenSetSize : Bool
  leftTop : SPoint
  size : SSize
  board : Page

/-- What happens to a presenter: the keys for the next and the previous step, the change to another
page by `SlidePresenterManager`, and a move or a change of size. -/
inductive SlideEvent where
  | next
  | previous
  | changeParent (board : Page)
  | sendSizeAnimation (leftTop : SPoint) (size : SSize)

namespace SlidePresenter

variable (alloc : Allocator) (d : DoubleArithmetic)

/-- An operation on one slide and the board. -/
def onSlide (presenter : SlidePresenter) (i : Nat)
    (operation : Slide → Page → Except SlideFault (Slide × Page)) :
    Except SlideFault SlidePresenter :=
  match presenter.slides[i]? with
  | none => .error .outsideSlides
  | some slide => do
    let (slide, board) ← operation slide presenter.board
    return { presenter with slides := presenter.slides.set i slide, board }

/-- `ClearActions` of the slides from a place on. -/
def clearFrom (presenter : SlidePresenter) (i : Nat) : SlidePresenter :=
  { presenter with
    slides := presenter.slides.take i ++ (presenter.slides.drop i).map Slide.clearActions }

/-- `SetAllSlidesBanBase`. -/
def setAllSlidesBanBase (presenter : SlidePresenter) : Except SlideFault SlidePresenter :=
  (List.range presenter.slides.length).foldlM
    (fun presenter i => presenter.onSlide i (Slide.hide alloc)) presenter

/-- The slide before the current one is hidden. -/
def hidePrevious (presenter : SlidePresenter) : Except SlideFault SlidePresenter :=
  if 1 ≤ presenter.currentSlideIndex then
    presenter.onSlide (presenter.currentSlideIndex - 1) (Slide.hide alloc)
  else
    .ok presenter

/-- The slide behind the current one is hidden. -/
def hideFollowing (presenter : SlidePresenter) : Except SlideFault SlidePresenter :=
  if presenter.currentSlideIndex + 1 < presenter.slides.length then
    presenter.onSlide (presenter.currentSlideIndex + 1) (Slide.hide alloc)
  else
    .ok presenter

/-- `OnNextAction`, with a bound on how often it calls itself. -/
def onNextActionWithin : Nat → SlidePresenter → Except SlideFault SlidePresenter
  | 0, _ => .error .endless
  | calls + 1, presenter =>
    match presenter.slides[presenter.currentSlideIndex]? with
    | none => .ok presenter
    | some slide => do
      let (slide, board, played) ← slide.nextAction alloc d presenter.board
      let presenter := { presenter with
        slides := presenter.slides.set presenter.currentSlideIndex slide, board }
      if played then do
        let presenter ← presenter.hidePrevious alloc
        presenter.hideFollowing alloc
      else if presenter.currentSlideIndex + 1 < presenter.slides.length then
        onNextActionWithin calls
          { presenter with currentSlideIndex := presenter.currentSlideIndex + 1 }
      else
        return presenter

/-- `OnNextAction`. -/
def onNextAction (presenter : SlidePresenter) : Except SlideFault SlidePresenter :=
  presenter.onNextActionWithin alloc d (presenter.slides.length + 1)

/-- `BeginShow`. -/
def beginShow (presenter : SlidePresenter) : Except SlideFault SlidePresenter :=
  if 0 < presenter.slides.length then
    ({ presenter with currentSlideIndex := 0 }.clearFrom 0).onNextAction alloc d
  else
    .ok presenter

/-- `ShowCurrentSlide`. -/
def showCurrentSlide (presenter : SlidePresenter) : Except SlideFault SlidePresenter :=
  if presenter.currentSlideIndex < presenter.slides.length then
    presenter.onSlide presenter.currentSlideIndex (Slide.toCurrentAction alloc d)
  else
    .ok presenter

/-- `OnPreviousAction`. -/
def onPreviousAction (presenter : SlidePresenter) : Except SlideFault SlidePresenter :=
  if presenter.currentSlideIndex = 0 then
    .ok presenter
  else if presenter.currentSlideIndex < presenter.slides.length then
    let i := presenter.currentSlideIndex - 1
    ({ presenter with currentSlideIndex := i }.clearFrom i).onNextAction alloc d
  else
    .ok presenter

/-- `ChangeParentWidget`. -/
def changeParentWidget (presenter : SlidePresenter) (board : Page) :
    Except SlideFault SlidePresenter := do
  let presenter ← { presenter with board }.setAllSlidesBanBase alloc
  if presenter.hasBeenSetSize ∧ presenter.currentSlideIndex < presenter.slides.length then
    presenter.onSlide presenter.currentSlideIndex (Slide.updateBanBase alloc d)
  else
    return presenter

/-- `SlidePresenterManager::ChangeParent`, for one presenter. -/
def changeParent (presenter : SlidePresenter) (board : Page) : Except SlideFault SlidePresenter := do
  let presenter ← presenter.changeParentWidget alloc d board
  presenter.showCurrentSlide alloc d

/-- `SendSizeAnimation`. -/
def sendSizeAnimation (presenter : SlidePresenter) (leftTop : SPoint) (size : SSize) :
    Except SlideFault SlidePresenter :=
  (List.range presenter.slides.length).foldlM
    (fun presenter i => presenter.onSlide i fun slide board =>
      slide.setNewSize alloc d board leftTop size (i == presenter.currentSlideIndex) false)
    { presenter with hasBeenSetSize := true, leftTop, size }

/-- `OnAddSlidePresenterTriggered`: a presenter is put on a board and begins. -/
def onAddSlidePresenterTriggered (presenter : SlidePresenter) (board : Page) :
    Except SlideFault SlidePresenter := do
  let presenter ← presenter.changeParentWidget alloc d board
  presenter.beginShow alloc d

/-- What an event does. -/
def next (presenter : SlidePresenter) : SlideEvent → Except SlideFault SlidePresenter
  | .next => presenter.onNextAction alloc d
  | .previous => presenter.onPreviousAction alloc d
  | .changeParent board => presenter.changeParent alloc d board
  | .sendSizeAnimation leftTop size => presenter.sendSizeAnimation alloc d leftTop size

end SlidePresenter

end Liangshi

import Liangshi.Live.PageHistory

/-!
# The lock of a page

Of what happens to a page only `SetEnableCurrentPage` changes whether it can be edited.  A page is
locked and unlocked as a whole, so `disableDraw` stands for the four flags of the source.
-/

namespace Liangshi

open Wire Ordered

namespace Page

variable (page : Page) (p : Pointer)

/-- Putting an element at an address leaves the lock. -/
@[simp] lemma disableDraw_setElement (e : Element) :
    (page.setElement p e).disableDraw = page.disableDraw := rfl

/-- Changing an element leaves the lock. -/
@[simp] lemma disableDraw_modify (f : Element → Element) :
    (page.modify p f).disableDraw = page.disableDraw := by
  unfold modify
  split <;> rfl

/-- Taking an element out of the drawing leaves the lock. -/
@[simp] lemma disableDraw_takeOut : (page.takeOut p).disableDraw = page.disableDraw := by
  unfold takeOut
  split_ifs <;> rfl

/-- Hiding a helper leaves the lock. -/
@[simp] lemma disableDraw_hide : (page.hide p).1.disableDraw = page.disableDraw := by
  unfold hide
  split <;> rfl

/-- Ending the highlight leaves the lock. -/
@[simp] lemma disableDraw_deHighlightElement :
    page.deHighlightElement.disableDraw = page.disableDraw := by
  unfold deHighlightElement
  split
  · rfl
  · dsimp only
    split_ifs <;> simp

/-- Removing an element leaves the lock. -/
@[simp] lemma disableDraw_removeDrawingElementTriggered :
    (page.removeDrawingElementTriggered p).disableDraw = page.disableDraw := by
  simp [removeDrawingElementTriggered]

/-- Hiding a helper, with the removal it asks for, leaves the lock. -/
@[simp] lemma disableDraw_unhighlight : (page.unhighlight p).disableDraw = page.disableDraw := by
  unfold unhighlight
  dsimp only
  split_ifs <;> simp

/-- Setting the mode leaves the lock. -/
@[simp] lemma disableDraw_setMode : page.setMode.disableDraw = page.disableDraw := by
  unfold setMode
  split_ifs <;> simp

/-- A page is locked exactly when it is disabled. -/
@[simp] lemma disableDraw_setEnable (enable : Bool) :
    (page.setEnable enable).disableDraw = !enable := by
  simp [setEnable]

/-- A loop leaves the lock when its turns do. -/
lemma disableDraw_foldl {α : Type} {f : Page → α → Page}
    (hf : ∀ page a, (f page a).disableDraw = page.disableDraw) (l : List α) :
    (l.foldl f page).disableDraw = page.disableDraw := by
  induction l generalizing page with
  | nil => rfl
  | cons a l ih => exact (ih (f page a)).trans (hf page a)

/-- Selecting an element leaves the lock. -/
@[simp] lemma disableDraw_highlightElementAt (hit : Element → Bool) :
    (page.highlightElementAt hit).disableDraw = page.disableDraw := by
  have hnext : ∀ (s : Page × Bool) (p : Pointer),
      (highlightNext hit s p).1.disableDraw = s.1.disableDraw := by
    intro s p
    unfold highlightNext
    split_ifs <;> simp
  have hall : ∀ (l : List Pointer) (s : Page × Bool),
      (l.foldl (highlightNext hit) s).1.disableDraw = s.1.disableDraw := by
    intro l
    induction l with
    | nil => exact fun s => rfl
    | cons p l ih => exact fun s => (ih _).trans (hnext s p)
  unfold highlightElementAt
  rw [hall]
  exact disableDraw_deHighlightElement page

/-- Adding an element leaves the lock. -/
@[simp] lemma disableDraw_addElement (updateProperty highlight addToDrawing : Bool) :
    (page.addElement p updateProperty highlight addToDrawing).disableDraw = page.disableDraw := by
  unfold addElement
  dsimp only
  split_ifs <;> simp

/-- Changing a line attribute leaves the lock. -/
@[simp] lemma disableDraw_lineChanged (change : Element → Element) (all : Bool) :
    (page.lineChanged change all).disableDraw = page.disableDraw := by
  have hfirst : ∀ page' : Page, page'.disableDraw = page.disableDraw →
      (if all then page'.drawingElements.foldl (fun page p => page.modify p fun e =>
        if !e.body.isBan && e.canPaint then change e else e) page' else page').disableDraw =
      page.disableDraw := by
    intro page' h
    split_ifs
    · exact (disableDraw_foldl page' (fun page p => disableDraw_modify page p _) _).trans h
    · exact h
  unfold lineChanged
  refine hfirst _ ?_
  split
  · rfl
  · split_ifs <;> simp

/-- Changing the line width leaves the lock. -/
@[simp] lemma disableDraw_lineWidthChanged (width : Int32) (all : Bool) :
    (page.lineWidthChanged width all).disableDraw = page.disableDraw := by
  simp [lineWidthChanged]

/-- Changing the line style leaves the lock. -/
@[simp] lemma disableDraw_lineStyleChanged (style : Int32) (all : Bool) :
    (page.lineStyleChanged style all).disableDraw = page.disableDraw := by
  simp [lineStyleChanged]

/-- Changing the line colour leaves the lock. -/
@[simp] lemma disableDraw_lineColorChanged (color : SColor) (all : Bool) :
    (page.lineColorChanged color all).disableDraw = page.disableDraw := by
  simp [lineColorChanged]

/-- Moving an element to the top leaves the lock. -/
@[simp] lemma disableDraw_onTopMostElementTriggered :
    (page.onTopMostElementTriggered p).disableDraw = page.disableDraw := by
  unfold onTopMostElementTriggered
  split_ifs <;> rfl

/-- Moving an element to the bottom leaves the lock. -/
@[simp] lemma disableDraw_onBottomMostElementTriggered :
    (page.onBottomMostElementTriggered p).disableDraw = page.disableDraw := by
  unfold onBottomMostElementTriggered
  split_ifs <;> rfl

/-- Undoing leaves the lock. -/
@[simp] lemma disableDraw_onUndoTriggered : page.onUndoTriggered.disableDraw = page.disableDraw := by
  unfold onUndoTriggered
  split_ifs
  · rfl
  · split <;> simp

/-- Redoing leaves the lock. -/
@[simp] lemma disableDraw_onRedoTriggered : page.onRedoTriggered.disableDraw = page.disableDraw := by
  unfold onRedoTriggered
  split_ifs
  · rfl
  · split <;> simp

/-- Typing leaves the lock. -/
@[simp] lemma disableDraw_typeText (text : Bytes) :
    (page.typeText text).disableDraw = page.disableDraw := by
  unfold typeText
  split <;> simp

/-- Adding an element to the drawing by its uuid leaves the lock. -/
@[simp] lemma disableDraw_addToDrawing (uuid : Bytes) :
    (page.addToDrawing uuid).disableDraw = page.disableDraw := by
  unfold addToDrawing
  split_ifs
  · rfl
  · split <;> rfl

/-- Changing the size of an image leaves the lock. -/
@[simp] lemma disableDraw_changeImageElementSize (d : DoubleArithmetic) (uuid : Bytes)
    (leftTop : SPoint) (width height : Int32) :
    (page.changeImageElementSize d uuid leftTop width height).disableDraw = page.disableDraw := by
  unfold changeImageElementSize
  split <;> simp

/-- A `HideAction` leaves the lock. -/
@[simp] lemma disableDraw_playHideAction (uuid : Bytes) :
    (page.playHideAction uuid).disableDraw = page.disableDraw := by
  unfold playHideAction
  split <;> rfl

/-- A `TopMostAction` leaves the lock. -/
@[simp] lemma disableDraw_playTopMostAction (uuid : Bytes) :
    (page.playTopMostAction uuid).disableDraw = page.disableDraw := by
  unfold playTopMostAction
  split <;> simp

/-- A `BottomMostAction` leaves the lock. -/
@[simp] lemma disableDraw_playBottomMostAction (uuid : Bytes) :
    (page.playBottomMostAction uuid).disableDraw = page.disableDraw := by
  unfold playBottomMostAction
  split <;> simp

/-- An action that changes an element leaves the lock. -/
@[simp] lemma disableDraw_playChange (uuid : Bytes) (change : Element → Element) :
    (page.playChange uuid change).disableDraw = page.disableDraw := by
  unfold playChange
  split <;> simp

/-- An element from the network is put on the page behind the others. -/
lemma disableDraw_playNetworkShowAction {env : Surroundings} {type : Int32} {bytes : Bytes}
    {page' : Page} (h : page.playNetworkShowAction env type bytes = .ok page') :
    page'.disableDraw = page.disableDraw := by
  unfold playNetworkShowAction at h
  split at h
  · cases h
  · obtain rfl := Except.ok.inj h
    rfl
  · obtain rfl := Except.ok.inj h
    rfl

end Page

/-- What happens to a page while it is shown: everything but the lock itself and the load of another
page. -/
def PageEvent.IsEdit : PageEvent → Prop
  | .setEnable _ | .load _ _ | .playSwitchPage _ _ _ _ => False
  | _ => True

/-- An edit leaves the lock of the page. -/
lemma Page.disableDraw_next {page page' : Page} {e : PageEvent} (h : e.IsEdit)
    (hnext : page.next e = some page') : page'.disableDraw = page.disableDraw := by
  cases e with
  | setEnable enable => exact h.elim
  | load env bytes => exact h.elim
  | playSwitchPage env width color bytes => exact h.elim
  | playShow env type bytes =>
    exact page.disableDraw_playNetworkShowAction (toOption_eq_some.mp hnext)
  | copy =>
    replace hnext : page.onCopyTriggered = some page' := hnext
    unfold onCopyTriggered at hnext
    split at hnext
    · obtain rfl := Option.some.inj hnext
      rfl
    · obtain ⟨h, -, rfl⟩ := Option.map_eq_some_iff.mp hnext
      simp
  | _ =>
    obtain rfl := Option.some.inj hnext
    simp [addNew, getMsgPackData, playSizeAction, playLineWidthAction, playLineStyleAction,
      playLineColorAction, playTextChangedAction, clearAll, removeFromDrawing]

end Liangshi

import Liangshi.Live.BoardGeometry
import Mathlib.Data.List.Nodup

/-!
# Elements painted in the same places

Where an element is painted on a page, in parts of the page, is its matrix applied to its points in
parts of the standard page: the size of the page plays no role (`Screen.paint_eq`).  Two boards paint an
element alike as long as both keep one matrix for it.

A helper clears the matrix of its element on the controller's board, and the action it sends leaves the
matrix of the copy alone.  `samePlaces` says that this is the one way to lose a place: it asks of every
move that the matrix of the copy maps the corners as they are.  Adding an element once and moving it does
so (`samePlaces_of_shownOnce`), adding it again by a redo does not.
-/

namespace Liangshi

open Wire Plane Transition

/-! ## Painting -/

/-- The world matrix of a painter comes last. -/
lemma Placed.map_painter (android : Bool) (e : Placed) (world : Affine ℚ) (p : Point ℚ) :
    (e.painter android world).map p = world.map ((e.painter android .identity).map p) := by
  unfold painter
  cases e.shape with
  | text => cases android <;> simp
  | ban leftTop leftTopInSc size zoom content => split_ifs <;> simp
  | _ => simp

/-- A point of the standard page, in parts of its width and height. -/
def standardPart (p : Point ℚ) : Point ℚ := (p.1 / standardSize.1, p.2 / standardSize.2)

namespace Screen

/-- The world matrix takes the standard page to the page. -/
lemma relative_worldMatrix (screen : Screen) (p : Point ℚ) :
    screen.relative (screen.worldMatrix.map p) = standardPart p := by
  have hw := screen.width_ne
  have hh := screen.height_ne
  rw [screen.worldMatrix_eq, Affine.map_scaling]
  simp only [relative, standardPart, Prod.mk.injEq]
  constructor <;> field_simp

/-- Where an element is painted, without the size of the page. -/
lemma paint_eq (screen : Screen) (e : Placed) :
    screen.paint e = e.shape.points.map fun p =>
      standardPart ((e.painter screen.android .identity).map p) := by
  unfold paint
  refine List.map_congr_left fun p _ => ?_
  rw [e.map_painter, relative_worldMatrix]

/-- A new page size leaves the kind of the screen. -/
@[simp] lemma android_onPageSizeChange (screen : Screen) (size : ℤ × ℤ) :
    (screen.onPageSizeChange size).android = screen.android := by
  unfold onPageSizeChange
  split_ifs <;> rfl

/-- A page of another size paints an element in the same place. -/
@[simp] lemma paint_onPageSizeChange (screen : Screen) (size : ℤ × ℤ) (e : Placed) :
    (screen.onPageSizeChange size).paint e = screen.paint e := by
  rw [paint_eq, paint_eq, android_onPageSizeChange]

end Screen

/-- The coordinates of the standard page determine a point. -/
lemma standardPart_injective : Function.Injective standardPart := by
  intro p q h
  have hw : standardSize.1 ≠ 0 := by norm_num [standardSize]
  have hh : standardSize.2 ≠ 0 := by norm_num [standardSize]
  rw [standardPart, standardPart, Prod.mk.injEq, div_left_inj' hw, div_left_inj' hh] at h
  exact Prod.ext h.1 h.2

/-- Where the matrix of an element that is no `BanElement` takes a point. -/
def Placed.through (android : Bool) (e : Placed) (p : Point ℚ) : Point ℚ :=
  if e.shape.isText && android then e.matrix.map (e.matrix.map p) else e.matrix.map p

/-- An image or a text is painted through its matrix alone. -/
lemma Placed.painter_of_isMoved {e : Placed} (h : e.shape.isMoved) (android : Bool) (p : Point ℚ) :
    (e.painter android .identity).map p = e.through android p := by
  unfold painter through
  cases hshape : e.shape with
  | text => cases android <;> simp [Shape.isText]
  | image => simp [Shape.isText]
  | htmlText => simp [Shape.isText]
  | path => rw [hshape] at h; cases h
  | ban => rw [hshape] at h; cases h

/-- Only a text is painted otherwise on Android. -/
lemma Placed.painter_of_not_isText {e : Placed} (h : e.shape.isText = false) (a b : Bool)
    (world : Affine ℚ) : e.painter a world = e.painter b world := by
  unfold painter
  cases hshape : e.shape with
  | text => rw [hshape] at h; cases h
  | _ => rfl

/-- Two screens paint images and texts alike exactly when they take the points to the same points. -/
lemma paint_eq_iff {s t : Screen} {e f : Placed} (he : e.shape.isMoved) (hf : f.shape.isMoved) :
    s.paint e = t.paint f ↔
      e.shape.points.map (e.through s.android) = f.shape.points.map (f.through t.android) := by
  have hmap : ∀ (u : Screen) {x : Placed}, x.shape.isMoved →
      u.paint x = (x.shape.points.map (x.through u.android)).map standardPart := by
    intro u x hx
    rw [u.paint_eq, List.map_map]
    exact List.map_congr_left fun p _ => by rw [Function.comp_apply, x.painter_of_isMoved hx]
  rw [hmap s he, hmap t hf]
  exact (List.map_injective_iff.mpr standardPart_injective).eq_iff

/-! ## Boards that agree -/

namespace SharedBoard

/-- The copies of an element that are drawn. -/
def drawnCopies (copies : List PeerCopy) (uuid : Bytes) : List Placed :=
  (copies.filter fun c => c.drawn && c.element.uuid == uuid).map (·.element)

/-- Every drawn element is drawn once on the other board, in the same place. -/
def SamePlaces (board : SharedBoard) : Prop :=
  ∀ e ∈ board.drawing,
    (drawnCopies board.copies e.uuid).map board.peer.paint = [board.controller.paint e]

/-- A text that is shown without an event of its helper keeps the matrix of the page: both boards are
compiled for Android or none is, or a second application of the matrix makes no difference. -/
def TextShows (board : SharedBoard) (e : Placed) (shown : List HelperEvent) : Prop :=
  e.shape.isText → shown = [] → board.controller.android ≠ board.peer.android →
    ∀ p ∈ e.shape.points, board.controller.elementMatrix.map
      (board.controller.elementMatrix.map p) = board.controller.elementMatrix.map p

/-- The corners that the action of a helper carries. -/
def reported (e : Placed) (event : HelperEvent) : List (Point ℚ) :=
  (e.shape.updateSize event.corner event.size).points

/-- The corners at which the controller's board paints the element after an event of its helper. -/
def cornersAfter (e : Placed) (event : HelperEvent) : List (Point ℚ) :=
  if e.shape.isText then [e.matrix.inverted.map event.corner] else reported e event

/-- A move that shows on the other board: the copy that is found first is the one that is drawn, and its
matrix takes the corners in the action to where the controller's board paints them.  Where another copy
is found, the one that is drawn stays where it is, and so must the element. -/
def MovesAlike (board : SharedBoard) (e : Placed) (event : HelperEvent) : Prop :=
  ∃ c, board.copies.find? (fun c => c.element.uuid == e.uuid) = some c ∧
    if c.drawn then
      (reported e event).map (c.element.through board.peer.android) = cornersAfter e event
    else
      e.shape.points.map (e.through board.controller.android) = cornersAfter e event

/-- An event that keeps the places: a redo also finds no copy of its element left in the drawing. -/
def KeepsPlaces (board : SharedBoard) : BoardEvent → Prop
  | .add e shown _ => board.TextShows e shown
  | .redo shown _ => ∀ e ∈ board.undos.getLast?,
      board.TextShows e shown ∧ drawnCopies board.copies e.uuid = []
  | .move uuid event => ∀ e ∈ board.drawn uuid, board.MovesAlike e event
  | _ => True

/-! ## The copies -/

section Copies

variable {α β : Type} {test keep : α → Bool} {change : α → α} {l : List α}

/-- What the change keeps of an item, it keeps of a list. -/
lemma map_onFirst {f : α → β} (h : ∀ a, f (change a) = f a) (l : List α) :
    (onFirst test change l).map f = l.map f := by
  induction l with
  | nil => rfl
  | cons a l ih =>
    unfold onFirst
    split_ifs
    · rw [List.map_cons, List.map_cons, h]
    · rw [List.map_cons, List.map_cons, ih]

/-- A change of what is filtered out, before and after, does not show. -/
lemma filter_onFirst (hbefore : ∀ a, test a → keep a = false)
    (hafter : ∀ a, test a → keep (change a) = false) :
    (onFirst test change l).filter keep = l.filter keep := by
  induction l with
  | nil => rfl
  | cons a l ih =>
    unfold onFirst
    split_ifs with ha
    · rw [List.filter_cons_of_neg (by simp [hafter a ha]),
        List.filter_cons_of_neg (by simp [hbefore a ha])]
    · rw [List.filter_cons, List.filter_cons, ih]

/-- The item that is found first is the one that is kept: it is changed where it stands alone. -/
lemma filter_onFirst_of_find? {c d : α} (hkeep : ∀ a, keep a → test a)
    (hchange : ∀ a, keep (change a) = keep a) (hfind : l.find? test = some c) (hc : keep c)
    (hfilter : l.filter keep = [d]) :
    d = c ∧ (onFirst test change l).filter keep = [change c] := by
  induction l with
  | nil => cases hfind
  | cons a l ih =>
    unfold onFirst
    by_cases ha : test a
    · rw [List.find?_cons_of_pos ha] at hfind
      obtain rfl := Option.some.inj hfind
      rw [List.filter_cons_of_pos hc] at hfilter
      obtain ⟨rfl, hrest⟩ := List.cons.inj hfilter
      rw [if_pos ha, List.filter_cons_of_pos (by rwa [hchange]), hrest]
      exact ⟨rfl, rfl⟩
    · have hka : ¬ keep a := fun hk => ha (hkeep a hk)
      rw [List.find?_cons_of_neg ha] at hfind
      rw [List.filter_cons_of_neg hka] at hfilter
      rw [if_neg ha, List.filter_cons_of_neg hka]
      exact ih hfind hfilter

/-- The item that is found first is not kept: nothing that is kept changes. -/
lemma filter_onFirst_of_not_keep {c : α} (hfind : l.find? test = some c) (hc : ¬ keep c)
    (hchange : ∀ a, keep (change a) = keep a) :
    (onFirst test change l).filter keep = l.filter keep := by
  induction l with
  | nil => cases hfind
  | cons a l ih =>
    unfold onFirst
    by_cases ha : test a
    · rw [List.find?_cons_of_pos ha] at hfind
      obtain rfl := Option.some.inj hfind
      rw [if_pos ha, List.filter_cons_of_neg (by rwa [hchange]), List.filter_cons_of_neg hc]
    · rw [List.find?_cons_of_neg ha] at hfind
      rw [if_neg ha, List.filter_cons, List.filter_cons, ih hfind]

end Copies

variable {copies : List PeerCopy} {uuid : Bytes}

/-- A size action leaves the copies of other elements alone. -/
lemma drawnCopies_playSize_of_ne {action : SizeAction} (h : action.targetElementUuid ≠ uuid) :
    drawnCopies (playSize copies action) uuid = drawnCopies copies uuid := by
  have hne : ∀ c : PeerCopy, (c.element.uuid == action.targetElementUuid) = true →
      (c.drawn && c.element.uuid == uuid) = false := by
    intro c hc
    rw [beq_iff_eq] at hc
    simp [hc, h]
  have hafter : ∀ c : PeerCopy, (c.element.uuid == action.targetElementUuid) = true →
      ((c.updateSize action).drawn && (c.updateSize action).element.uuid == uuid) = false := hne
  unfold drawnCopies playSize
  rw [filter_onFirst hne hafter]

/-- A size action draws and hides no copy. -/
lemma length_drawnCopies_playSize (action : SizeAction) :
    (drawnCopies (playSize copies action) uuid).length = (drawnCopies copies uuid).length := by
  have hcount : ∀ l : List PeerCopy, (drawnCopies l uuid).length =
      (l.map fun c => c.drawn && c.element.uuid == uuid).count true := by
    intro l
    rw [drawnCopies, List.length_map, List.count, List.countP_map, List.countP_eq_length_filter]
    congr 2
    funext c
    simp
  have hmap : (playSize copies action).map (fun c => c.drawn && c.element.uuid == uuid) =
      copies.map fun c => c.drawn && c.element.uuid == uuid := by
    refine map_onFirst (fun c => ?_) copies
    rfl
  rw [hcount, hcount, hmap]

/-- Hiding an element leaves the copies of other elements alone. -/
lemma drawnCopies_playHide_of_ne {uuid' : Bytes} (h : uuid' ≠ uuid) :
    drawnCopies (playHide copies uuid') uuid = drawnCopies copies uuid := by
  have hne : ∀ c : PeerCopy, (c.element.uuid == uuid') = true →
      (c.drawn && c.element.uuid == uuid) = false := by
    intro c hc
    rw [beq_iff_eq] at hc
    simp [hc, h]
  have hafter : ∀ c : PeerCopy, (c.element.uuid == uuid') = true →
      (c.hide.drawn && c.hide.element.uuid == uuid) = false := fun _ _ => rfl
  unfold drawnCopies playHide
  rw [filter_onFirst hne hafter]

/-- A shown element leaves the copies of other elements alone. -/
lemma drawnCopies_playShow_of_ne {e : Placed} (h : e.uuid ≠ uuid) (place : Nat) :
    drawnCopies (playShow copies place e) uuid = drawnCopies copies uuid := by
  unfold drawnCopies playShow
  rw [List.filter_append, List.filter_cons_of_neg (by simp [h]), ← List.filter_append,
    List.take_append_drop]

/-- A shown element is drawn once more. -/
lemma drawnCopies_playShow (copies : List PeerCopy) (e : Placed) (place : Nat) :
    (drawnCopies (playShow copies place e) e.uuid).length =
        (drawnCopies copies e.uuid).length + 1 ∧
      (drawnCopies copies e.uuid = [] → drawnCopies (playShow copies place e) e.uuid = [e]) := by
  unfold drawnCopies playShow
  have hsplit : ((copies.take place).filter fun c => c.drawn && c.element.uuid == e.uuid) ++
      ((copies.drop place).filter fun c => c.drawn && c.element.uuid == e.uuid) =
      copies.filter fun c => c.drawn && c.element.uuid == e.uuid := by
    rw [← List.filter_append, List.take_append_drop]
  rw [List.filter_append, List.filter_cons_of_pos (by simp)]
  constructor
  · rw [← hsplit]
    simp only [List.length_map, List.length_append, List.length_cons]
    omega
  · intro hnil
    rw [List.map_eq_nil_iff, ← hsplit, List.append_eq_nil_iff] at hnil
    rw [hnil.1, hnil.2]
    rfl

/-! ## Helpers -/

end SharedBoard

namespace Shape

/-- The class of a shape, as a shape without members. -/
def bare : Shape → Shape
  | path _ => path []
  | image _ _ => image (0, 0) (0, 0)
  | text _ _ => text (0, 0) (0, 0)
  | htmlText _ _ => htmlText (0, 0) (0, 0)
  | ban _ _ _ _ _ => ban (0, 0) (0, 0) (0, 0) (0, 0) []

/-- A new place and size leave the rest of a shape. -/
@[simp] lemma bare_updateSize (leftTop size : Point ℚ) (shape : Shape) :
    (shape.updateSize leftTop size).bare = shape.bare := by
  cases shape <;> rfl

/-- Shapes of one class are moved alike. -/
lemma isMoved_eq_of_bare {s t : Shape} (h : s.bare = t.bare) : s.isMoved = t.isMoved := by
  cases s <;> cases t <;> first | rfl | cases h

/-- Whether a shape is a text does not depend on its place and size. -/
lemma isText_eq_of_bare {s t : Shape} (h : s.bare = t.bare) : s.isText = t.isText := by
  cases s <;> cases t <;> first | rfl | cases h

/-- Shapes of one class that are moved have the same points after the same update. -/
lemma updateSize_eq_of_bare {s t : Shape} (h : s.bare = t.bare) (hmoved : s.isMoved)
    (leftTop size : Point ℚ) : s.updateSize leftTop size = t.updateSize leftTop size := by
  cases s with
  | path => cases hmoved
  | ban => cases hmoved
  | _ => cases t <;> first | rfl | cases h

end Shape

namespace Placed

/-- An event of a helper keeps the uuid and the class, and so do its actions. -/
lemma sendSizeAnimation_spec (e : Placed) (event : HelperEvent) :
    (e.sendSizeAnimation event).1.uuid = e.uuid ∧
      (e.sendSizeAnimation event).1.shape.bare = e.shape.bare ∧
      ∀ action ∈ (e.sendSizeAnimation event).2, action.targetElementUuid = e.uuid := by
  unfold sendSizeAnimation
  cases hshape : e.shape <;> simp [Shape.bare, Shape.updateSize, hshape]

/-- The events of a helper keep the uuid and the class, and so do their actions. -/
lemma showHelper_spec (e : Placed) (events : List HelperEvent) :
    (e.showHelper events).1.uuid = e.uuid ∧ (e.showHelper events).1.shape.bare = e.shape.bare ∧
      ∀ action ∈ (e.showHelper events).2, action.targetElementUuid = e.uuid := by
  induction events generalizing e with
  | nil => exact ⟨rfl, rfl, by simp [showHelper]⟩
  | cons event events ih =>
    obtain ⟨huuid, hbare, hactions⟩ := e.sendSizeAnimation_spec event
    obtain ⟨huuid', hbare', hactions'⟩ := ih (e.sendSizeAnimation event).1
    refine ⟨huuid'.trans huuid, hbare'.trans hbare, fun action haction => ?_⟩
    rcases List.mem_append.mp haction with h | h
    · exact hactions action h
    · exact (hactions' action h).trans huuid

/-- An event of a helper clears the matrix of an image or a text. -/
lemma matrix_sendSizeAnimation (e : Placed) (h : e.shape.isMoved) (event : HelperEvent) :
    (e.sendSizeAnimation event).1.matrix = .identity := by
  unfold sendSizeAnimation
  cases hshape : e.shape with
  | path => rw [hshape] at h; cases h
  | ban => rw [hshape] at h; cases h
  | _ => rfl

/-- Once it has had an event, the helper of an image or a text leaves it without a matrix. -/
lemma matrix_showHelper (e : Placed) (h : e.shape.isMoved) {events : List HelperEvent}
    (hevents : events ≠ []) : (e.showHelper events).1.matrix = .identity := by
  induction events generalizing e with
  | nil => exact absurd rfl hevents
  | cons event events ih =>
    have hmoved : (e.sendSizeAnimation event).1.shape.isMoved := by
      rw [Shape.isMoved_eq_of_bare (e.sendSizeAnimation_spec event).2.1]
      exact h
    cases events with
    | nil => exact e.matrix_sendSizeAnimation h event
    | cons other others => exact ih _ hmoved (by simp)

end Placed

namespace SharedBoard

variable {board : SharedBoard} {copies : List PeerCopy} {uuid : Bytes}

/-- Every element has a uuid of its own, and its copies are of its class. -/
structure Kept (board : SharedBoard) : Prop where
  uuids : ((board.drawing ++ board.undos).map (·.uuid)).Nodup
  classes : ∀ e ∈ board.drawing ++ board.undos, ∀ c ∈ board.copies, c.element.uuid = e.uuid →
    c.element.shape.bare = e.shape.bare

/-- The drawn elements have different uuids. -/
lemma Kept.nodup_drawing (h : board.Kept) : (board.drawing.map (·.uuid)).Nodup := by
  have huuids := h.uuids
  rw [List.map_append] at huuids
  exact (List.nodup_append.mp huuids).1

/-- Size actions for one element leave the copies of other elements alone. -/
lemma drawnCopies_foldl_of_ne {actions : List SizeAction} {uuid' : Bytes}
    (hactions : ∀ action ∈ actions, action.targetElementUuid = uuid') (h : uuid' ≠ uuid) :
    drawnCopies (actions.foldl playSize copies) uuid = drawnCopies copies uuid := by
  induction actions generalizing copies with
  | nil => rfl
  | cons action actions ih =>
    rw [List.foldl_cons, ih fun a ha => hactions a (List.mem_cons_of_mem action ha)]
    exact drawnCopies_playSize_of_ne (hactions action List.mem_cons_self ▸ h)

/-- Size actions draw and hide no copy. -/
lemma length_drawnCopies_foldl (actions : List SizeAction) :
    (drawnCopies (actions.foldl playSize copies) uuid).length = (drawnCopies copies uuid).length := by
  induction actions generalizing copies with
  | nil => rfl
  | cons action actions ih => rw [List.foldl_cons, ih, length_drawnCopies_playSize]

/-- An element as it is when `AddElement` shows it on the other board. -/
def added (board : SharedBoard) (e : Placed) (shown : List HelperEvent) : Placed :=
  ({ e with matrix := board.controller.elementMatrix }.showHelper shown).1

/-- The actions that the helper of an added element sends before the element is shown. -/
def addedActions (board : SharedBoard) (e : Placed) (shown : List HelperEvent) : List SizeAction :=
  ({ e with matrix := board.controller.elementMatrix }.showHelper shown).2

/-- An element that is added is drawn last. -/
lemma addElement_eq (e : Placed) (shown : List HelperEvent) (place : Nat) :
    board.addElement e shown place = { board with
      drawing := board.drawing ++ [board.added e shown]
      copies := playShow ((board.addedActions e shown).foldl playSize board.copies) place
        (board.added e shown) } := rfl

/-- An added element keeps its uuid and its class. -/
lemma added_spec (board : SharedBoard) (e : Placed) (shown : List HelperEvent) :
    (board.added e shown).uuid = e.uuid ∧ (board.added e shown).shape.bare = e.shape.bare ∧
      ∀ action ∈ board.addedActions e shown, action.targetElementUuid = e.uuid :=
  Placed.showHelper_spec _ shown

/-- An added element is painted alike on both boards exactly when a text shows. -/
lemma paint_added_iff (board : SharedBoard) (e : Placed) (shown : List HelperEvent) :
    board.peer.paint (board.added e shown) = board.controller.paint (board.added e shown) ↔
      board.TextShows e shown := by
  obtain ⟨-, hbare, -⟩ := board.added_spec e shown
  unfold TextShows
  by_cases htext : e.shape.isText
  · have hmoved : e.shape.isMoved := by
      cases hshape : e.shape <;> first | rfl | (rw [hshape] at htext; cases htext)
    have haddedMoved : (board.added e shown).shape.isMoved := by
      rwa [Shape.isMoved_eq_of_bare hbare]
    have haddedText : (board.added e shown).shape.isText := by
      rwa [Shape.isText_eq_of_bare hbare]
    rw [paint_eq_iff haddedMoved haddedMoved]
    by_cases hshown : shown = []
    · subst hshown
      have hadded : board.added e [] = { e with matrix := board.controller.elementMatrix } := rfl
      rw [hadded, List.map_inj_left]
      simp only [Placed.through, htext, Bool.true_and, true_imp_iff]
      cases board.controller.android <;> cases board.peer.android <;> simp [eq_comm]
    · have hmatrix : (board.added e shown).matrix = .identity :=
        Placed.matrix_showHelper { e with matrix := board.controller.elementMatrix } hmoved hshown
      simp [Placed.through, hmatrix, hshown]
  · have hother : (board.added e shown).shape.isText = false := by
      rw [Shape.isText_eq_of_bare hbare]
      simpa using htext
    simp only [Screen.paint_eq, htext, Bool.false_eq_true, false_imp_iff, iff_true]
    rw [Placed.painter_of_not_isText hother board.peer.android board.controller.android]

/-- An element that is added keeps the places exactly when a text shows and no copy of the element is
drawn. -/
lemma samePlaces_addElement_iff (hsame : board.SamePlaces) {e : Placed}
    (hnew : ∀ x ∈ board.drawing, x.uuid ≠ e.uuid) (shown : List HelperEvent) (place : Nat) :
    (board.addElement e shown place).SamePlaces ↔
      board.TextShows e shown ∧ drawnCopies board.copies e.uuid = [] := by
  obtain ⟨huuid, -, hactions⟩ := board.added_spec e shown
  have hothers : ∀ x ∈ board.drawing,
      drawnCopies (board.addElement e shown place).copies x.uuid =
        drawnCopies board.copies x.uuid := by
    intro x hx
    have hne : e.uuid ≠ x.uuid := (hnew x hx).symm
    rw [addElement_eq, drawnCopies_playShow_of_ne (huuid.trans_ne hne),
      drawnCopies_foldl_of_ne hactions hne]
  obtain ⟨hlength, hone⟩ := drawnCopies_playShow
    ((board.addedActions e shown).foldl playSize board.copies) (board.added e shown) place
  rw [huuid] at hlength hone
  rw [length_drawnCopies_foldl] at hlength
  have hnil : drawnCopies board.copies e.uuid = [] →
      drawnCopies ((board.addedActions e shown).foldl playSize board.copies) e.uuid = [] := by
    intro h
    rw [← List.length_eq_zero_iff, length_drawnCopies_foldl, h, List.length_nil]
  rw [← paint_added_iff]
  constructor
  · intro h
    have hadded := h (board.added e shown) (by rw [addElement_eq]; simp)
    rw [huuid] at hadded
    have hempty : drawnCopies board.copies e.uuid = [] := by
      have hcount := congrArg List.length hadded
      rw [addElement_eq, List.length_map, hlength] at hcount
      rw [← List.length_eq_zero_iff]
      simpa using hcount
    rw [addElement_eq, hone (hnil hempty)] at hadded
    exact ⟨(List.cons.inj hadded).1, hempty⟩
  · rintro ⟨hpaint, hempty⟩ x hx
    rw [addElement_eq, List.mem_append, List.mem_singleton] at hx
    rcases hx with hx | rfl
    · rw [hothers x hx]
      exact hsame x hx
    · rw [huuid, addElement_eq, hone (hnil hempty), List.map_singleton]
      exact congrArg ([·]) hpaint

/-! ## Moving an element -/

/-- What an event of a helper does to an image or a text: the action carries the corner as it is, and
the points are the corners without a matrix. -/
lemma sendSizeAnimation_of_isMoved {e : Placed} (h : e.shape.isMoved) (event : HelperEvent) :
    (e.sendSizeAnimation event).2 = [⟨e.uuid, event.corner, event.size⟩] ∧
      (e.sendSizeAnimation event).1.shape.points = cornersAfter e event := by
  unfold Placed.sendSizeAnimation cornersAfter reported
  cases hshape : e.shape with
  | path => rw [hshape] at h; cases h
  | ban => rw [hshape] at h; cases h
  | text => simp [Shape.isText, Shape.points]
  | _ => exact ⟨rfl, rfl⟩

/-- Where the controller's board paints an element after an event of its helper. -/
lemma paint_moved_iff {e f : Placed} (he : e.shape.isMoved) (hf : f.shape.isMoved) (s t : Screen)
    (event : HelperEvent) :
    s.paint f = t.paint (e.sendSizeAnimation event).1 ↔
      f.shape.points.map (f.through s.android) = cornersAfter e event := by
  have hmoved : (e.sendSizeAnimation event).1.shape.isMoved := by
    rwa [Shape.isMoved_eq_of_bare (e.sendSizeAnimation_spec event).2.1]
  have hid : (e.sendSizeAnimation event).1.through t.android = id := by
    funext p
    simp [Placed.through, e.matrix_sendSizeAnimation he event]
  rw [paint_eq_iff hf hmoved, hid, List.map_id, (sendSizeAnimation_of_isMoved he event).2]

/-- The one copy of an element that is drawn, before and after an event of the element's helper. -/
lemma drawnCopies_move {e : Placed} (event : HelperEvent) {c : PeerCopy} {d : Placed}
    (hfind : copies.find? (fun c => c.element.uuid == e.uuid) = some c)
    (hdrawn : drawnCopies copies e.uuid = [d]) :
    drawnCopies (playSize copies ⟨e.uuid, event.corner, event.size⟩) e.uuid =
      if c.drawn then [(c.updateSize ⟨e.uuid, event.corner, event.size⟩).element] else [d] := by
  have hkeep : ∀ a : PeerCopy, (a.drawn && a.element.uuid == e.uuid) = true →
      (a.element.uuid == e.uuid) = true := fun a ha => (Bool.and_eq_true_iff.mp ha).2
  have hchange : ∀ a : PeerCopy, ((a.updateSize ⟨e.uuid, event.corner, event.size⟩).drawn &&
      (a.updateSize ⟨e.uuid, event.corner, event.size⟩).element.uuid == e.uuid) =
        (a.drawn && a.element.uuid == e.uuid) := fun _ => rfl
  have hc := List.find?_some hfind
  obtain ⟨copy, hcopy, hd⟩ := List.map_eq_singleton_iff.mp hdrawn
  split_ifs with h
  · have hkept : (c.drawn && c.element.uuid == e.uuid) = true := by rw [h, hc]; rfl
    rw [drawnCopies, playSize, (filter_onFirst_of_find? hkeep hchange hfind hkept hcopy).2]
    rfl
  · have hkept : ¬ (c.drawn && c.element.uuid == e.uuid) = true := by simp [h]
    rw [drawnCopies, playSize, filter_onFirst_of_not_keep hfind hkept hchange, hcopy,
      List.map_singleton, hd]

/-- A drawn element has a drawn copy, so that a copy is found. -/
lemma exists_copy (hsame : board.SamePlaces) {e : Placed} (he : e ∈ board.drawing) :
    ∃ d copy c, drawnCopies board.copies e.uuid = [d] ∧
      board.peer.paint d = board.controller.paint e ∧
      copy ∈ board.copies ∧ copy.drawn ∧ copy.element.uuid = e.uuid ∧
      board.copies.find? (fun c => c.element.uuid == e.uuid) = some c := by
  obtain ⟨d, hd, hpaint⟩ := List.map_eq_singleton_iff.mp (hsame e he)
  have hmem : d ∈ drawnCopies board.copies e.uuid := by rw [hd]; exact List.mem_singleton_self d
  obtain ⟨copy, hcopy, -⟩ := List.mem_map.mp hmem
  rw [List.mem_filter, Bool.and_eq_true_iff] at hcopy
  obtain ⟨c, hc⟩ : ∃ c, board.copies.find? (fun c => c.element.uuid == e.uuid) = some c :=
    Option.isSome_iff_exists.mp (List.find?_isSome.mpr ⟨copy, hcopy.1, hcopy.2.2⟩)
  exact ⟨d, copy, c, hd, hpaint, hcopy.1, hcopy.2.1, by simpa using hcopy.2.2, hc⟩

/-- An event of the helper of an element keeps the places exactly when the other board moves its copy
alike. -/
lemma samePlaces_moveElement_iff (hsame : board.SamePlaces) (hkept : board.Kept) {e : Placed}
    (he : e ∈ board.drawing) (hmoved : e.shape.isMoved) (event : HelperEvent) :
    (board.moveElement e event).SamePlaces ↔ board.MovesAlike e event := by
  have huuid : (e.sendSizeAnimation event).1.uuid = e.uuid := (e.sendSizeAnimation_spec event).1
  have hcopies : (board.moveElement e event).copies =
      playSize board.copies ⟨e.uuid, event.corner, event.size⟩ := by
    simp only [moveElement, (sendSizeAnimation_of_isMoved hmoved event).1, List.foldl_cons,
      List.foldl_nil]
  have hmem : ∀ x, x ∈ (board.moveElement e event).drawing ↔
      x = (e.sendSizeAnimation event).1 ∨ x ∈ board.drawing ∧ x ≠ e := by
    intro x
    simp only [moveElement, List.mem_map]
    constructor
    · rintro ⟨y, hy, rfl⟩
      split_ifs with hye
      · exact .inl rfl
      · exact .inr ⟨hy, hye⟩
    · rintro (rfl | ⟨hx, hxe⟩)
      · exact ⟨e, he, if_pos rfl⟩
      · exact ⟨x, hx, if_neg hxe⟩
  have hothers : ∀ x ∈ board.drawing, x ≠ e →
      (drawnCopies (board.moveElement e event).copies x.uuid).map board.peer.paint =
        [board.controller.paint x] := by
    intro x hx hxe
    have hne : e.uuid ≠ x.uuid := fun h =>
      hxe (List.inj_on_of_nodup_map hkept.nodup_drawing hx he h.symm)
    rw [hcopies, drawnCopies_playSize_of_ne hne]
    exact hsame x hx
  obtain ⟨d, -, c, hd, hpaint, -, -, -, hfind⟩ := exists_copy hsame he
  have hcuuid : c.element.uuid = e.uuid := by simpa using List.find?_some hfind
  have hbare : c.element.shape.bare = e.shape.bare :=
    hkept.classes e (List.mem_append_left _ he) c (List.mem_of_find?_eq_some hfind) hcuuid
  have hupdated := drawnCopies_move event hfind hd
  have hgoal : (board.moveElement e event).SamePlaces ↔
      (drawnCopies (board.moveElement e event).copies e.uuid).map board.peer.paint =
        [board.controller.paint (e.sendSizeAnimation event).1] := by
    constructor
    · intro h
      have hlast := h _ ((hmem _).mpr (.inl rfl))
      rwa [huuid] at hlast
    · intro h x hx
      rcases (hmem x).mp hx with rfl | ⟨hx, hxe⟩
      · rw [huuid]
        exact h
      · exact hothers x hx hxe
  have hmoves : board.MovesAlike e event ↔ if c.drawn then
      (reported e event).map (c.element.through board.peer.android) = cornersAfter e event
    else e.shape.points.map (e.through board.controller.android) = cornersAfter e event := by
    simp only [MovesAlike, hfind, Option.some.injEq, exists_eq_left']
  rw [hgoal, hmoves, hcopies, hupdated]
  split_ifs with hc
  · have hcmoved : (c.updateSize ⟨e.uuid, event.corner, event.size⟩).element.shape.isMoved := by
      show (c.element.shape.updateSize _ _).isMoved
      rw [Shape.isMoved_eq_of_bare (Shape.bare_updateSize _ _ _), Shape.isMoved_eq_of_bare hbare]
      exact hmoved
    have hpoints : (c.updateSize ⟨e.uuid, event.corner, event.size⟩).element.shape.points =
        reported e event := by
      rw [reported, ← Shape.updateSize_eq_of_bare hbare]
      · rfl
      · rwa [Shape.isMoved_eq_of_bare hbare]
    have hthrough : (c.updateSize ⟨e.uuid, event.corner, event.size⟩).element.through
        board.peer.android = c.element.through board.peer.android := by
      funext p
      unfold Placed.through
      have htext : (c.updateSize ⟨e.uuid, event.corner, event.size⟩).element.shape.isText =
          c.element.shape.isText := Shape.isText_eq_of_bare (Shape.bare_updateSize _ _ _)
      rw [htext]
      rfl
    rw [List.map_singleton, List.singleton_injective.eq_iff, paint_moved_iff hmoved hcmoved, hpoints,
      hthrough]
  · rw [List.map_singleton, List.singleton_injective.eq_iff, hpaint, paint_moved_iff hmoved hmoved]

/-! ## Other events -/

/-- An element that is taken out of the drawing keeps the places of the others. -/
lemma samePlaces_removeElement (hsame : board.SamePlaces) (hkept : board.Kept) {e : Placed}
    (he : e ∈ board.drawing) : (board.removeElement e).SamePlaces := by
  intro x hx
  have hnodup : board.drawing.Nodup := hkept.nodup_drawing.of_map _
  obtain ⟨hxe, hx⟩ := (hnodup.mem_erase_iff).mp hx
  have hne : e.uuid ≠ x.uuid := fun h =>
    hxe (List.inj_on_of_nodup_map hkept.nodup_drawing hx he h.symm)
  show (drawnCopies (playHide board.copies e.uuid) x.uuid).map board.peer.paint = _
  rw [drawnCopies_playHide_of_ne hne]
  exact hsame x hx

/-- Pages of other sizes keep the places. -/
lemma samePlaces_of_paint {board' : SharedBoard} (hsame : board.SamePlaces)
    (hdrawing : board'.drawing = board.drawing) (hcopies : board'.copies = board.copies)
    (hcontroller : board'.controller.paint = board.controller.paint)
    (hpeer : board'.peer.paint = board.peer.paint) : board'.SamePlaces := by
  intro e he
  rw [hcopies, hcontroller, hpeer]
  exact hsame e (hdrawing ▸ he)

/-! ## What every event keeps -/

/-- A change that keeps uuids and classes of copies. -/
lemma mem_onFirst {α : Type} {test : α → Bool} {change : α → α} {l : List α} {c : α}
    (h : c ∈ onFirst test change l) : c ∈ l ∨ ∃ a ∈ l, c = change a := by
  induction l with
  | nil => cases h
  | cons a l ih =>
    unfold onFirst at h
    split_ifs at h
    · rcases List.mem_cons.mp h with rfl | h
      · exact .inr ⟨a, List.mem_cons_self, rfl⟩
      · exact .inl (List.mem_cons_of_mem a h)
    · rcases List.mem_cons.mp h with rfl | h
      · exact .inl List.mem_cons_self
      · rcases ih h with h | ⟨b, hb, rfl⟩
        · exact .inl (List.mem_cons_of_mem a h)
        · exact .inr ⟨b, List.mem_cons_of_mem a hb, rfl⟩

/-- After size actions every copy comes from one of the same uuid, class and matrix. -/
lemma mem_foldl_playSize {actions : List SizeAction} {c : PeerCopy}
    (h : c ∈ actions.foldl playSize copies) : ∃ c' ∈ copies, c'.element.uuid = c.element.uuid ∧
      c'.element.shape.bare = c.element.shape.bare ∧ c'.element.matrix = c.element.matrix := by
  induction actions generalizing copies with
  | nil => exact ⟨c, h, rfl, rfl, rfl⟩
  | cons action actions ih =>
    obtain ⟨a, ha, huuid, hbare, hmatrix⟩ := ih h
    rcases mem_onFirst ha with ha | ⟨b, hb, rfl⟩
    · exact ⟨a, ha, huuid, hbare, hmatrix⟩
    · exact ⟨b, hb, huuid, (Shape.bare_updateSize _ _ _).symm.trans hbare, hmatrix⟩

/-- Boards whose elements and copies come from those of others. -/
lemma Kept.of_copies {board' : SharedBoard} (hkept : board.Kept)
    (huuids : ((board'.drawing ++ board'.undos).map (·.uuid)).Sublist
      ((board.drawing ++ board.undos).map (·.uuid)) ∨
      ((board'.drawing ++ board'.undos).map (·.uuid)).Perm
        ((board.drawing ++ board.undos).map (·.uuid)))
    (helements : ∀ e ∈ board'.drawing ++ board'.undos, ∃ e' ∈ board.drawing ++ board.undos,
      e'.uuid = e.uuid ∧ e'.shape.bare = e.shape.bare)
    (hcopies : ∀ c ∈ board'.copies, ∃ c' ∈ board.copies, c'.element.uuid = c.element.uuid ∧
      c'.element.shape.bare = c.element.shape.bare) : board'.Kept := by
  constructor
  · rcases huuids with h | h
    · exact hkept.uuids.sublist h
    · exact h.nodup_iff.mpr hkept.uuids
  · intro e he c hc huuid
    obtain ⟨e', he', heuuid, hebare⟩ := helements e he
    obtain ⟨c', hc', hcuuid, hcbare⟩ := hcopies c hc
    rw [← hebare, ← hcbare]
    exact hkept.classes e' he' c' hc' (hcuuid.trans (huuid.trans heuuid.symm))

/-- An element that is added keeps its copies. -/
lemma Kept.addElement (hkept : board.Kept) {e : Placed}
    (hnew : ∀ x ∈ board.drawing ++ board.undos, x.uuid ≠ e.uuid)
    (hclass : ∀ c ∈ board.copies, c.element.uuid = e.uuid → c.element.shape.bare = e.shape.bare)
    (shown : List HelperEvent) (place : Nat) : (board.addElement e shown place).Kept := by
  obtain ⟨huuid, hbare, -⟩ := board.added_spec e shown
  rw [addElement_eq]
  constructor
  · have hperm : ((board.drawing ++ [board.added e shown]) ++ board.undos).map (·.uuid) |>.Perm
        ((board.added e shown :: (board.drawing ++ board.undos)).map (·.uuid)) := by
      rw [List.append_assoc]
      exact List.perm_middle.map _
    rw [hperm.nodup_iff, List.map_cons, List.nodup_cons, huuid]
    refine ⟨fun hmem => ?_, hkept.uuids⟩
    obtain ⟨x, hx, hxuuid⟩ := List.mem_map.mp hmem
    exact hnew x hx hxuuid
  · have hplayed : ∀ c ∈ (board.addedActions e shown).foldl playSize board.copies,
        ∃ c' ∈ board.copies, c'.element.uuid = c.element.uuid ∧
          c'.element.shape.bare = c.element.shape.bare := by
      intro c hc
      obtain ⟨c', hc', hcuuid, hcbare, -⟩ := mem_foldl_playSize hc
      exact ⟨c', hc', hcuuid, hcbare⟩
    intro x hx c hc hcx
    have hx' : x = board.added e shown ∨ x ∈ board.drawing ++ board.undos := by
      simp only [List.mem_append, List.mem_singleton] at hx ⊢
      tauto
    have hc' : c.element = board.added e shown ∨ ∃ c' ∈ board.copies,
        c'.element.uuid = c.element.uuid ∧ c'.element.shape.bare = c.element.shape.bare := by
      rcases List.mem_append.mp hc with hc | hc
      · exact .inr (hplayed c (List.mem_of_mem_take hc))
      · rcases List.mem_cons.mp hc with rfl | hc
        · exact .inl rfl
        · exact .inr (hplayed c (List.mem_of_mem_drop hc))
    rcases hc' with hc' | ⟨c', hc', hcuuid, hcbare⟩
    · rcases hx' with rfl | hx'
      · rw [hc']
      · rw [hc', huuid] at hcx
        exact absurd hcx.symm (hnew x hx')
    · rw [← hcbare]
      rcases hx' with rfl | hx'
      · rw [hbare]
        exact hclass c' hc' ((hcuuid.trans hcx).trans huuid)
      · exact hkept.classes x hx' c' hc' (hcuuid.trans hcx)

/-- A move keeps uuids and classes. -/
lemma Kept.moveElement (hkept : board.Kept) (e : Placed) (event : HelperEvent) :
    (board.moveElement e event).Kept := by
  obtain ⟨huuid, hbare, -⟩ := e.sendSizeAnimation_spec event
  have hmoved : ∀ x : Placed, (if x = e then (e.sendSizeAnimation event).1 else x).uuid = x.uuid := by
    intro x
    split_ifs with h
    · rw [huuid, h]
    · rfl
  refine hkept.of_copies (.inl ?_) ?_ fun c hc => by
    obtain ⟨c', hc', hcuuid, hcbare, -⟩ := mem_foldl_playSize hc
    exact ⟨c', hc', hcuuid, hcbare⟩
  · have hmap : (board.moveElement e event).drawing.map (·.uuid) = board.drawing.map (·.uuid) := by
      rw [SharedBoard.moveElement, List.map_map]
      exact List.map_congr_left fun x _ => hmoved x
    rw [List.map_append, List.map_append, hmap]
    exact .refl _
  · intro x hx
    rcases List.mem_append.mp hx with hx | hx
    · obtain ⟨y, hy, rfl⟩ := List.mem_map.mp hx
      refine ⟨y, List.mem_append_left _ hy, (hmoved y).symm, ?_⟩
      split_ifs with h
      · rw [hbare, h]
      · rfl
    · exact ⟨x, List.mem_append_right _ hx, rfl, rfl⟩

/-- Taking an element out of the drawing keeps uuids and classes. -/
lemma Kept.removeElement (hkept : board.Kept) {e : Placed} (he : e ∈ board.drawing) :
    (board.removeElement e).Kept := by
  have hperm : ((board.drawing.erase e) ++ (board.undos ++ [e])).Perm (board.drawing ++ board.undos) := by
    calc (board.drawing.erase e) ++ (board.undos ++ [e])
        _ |>.Perm ((board.undos ++ [e]) ++ board.drawing.erase e) := List.perm_append_comm
        _ |>.Perm (board.undos ++ board.drawing) := by
          rw [List.append_assoc]
          exact (List.perm_cons_erase he).symm.append_left board.undos
        _ |>.Perm (board.drawing ++ board.undos) := List.perm_append_comm
  refine hkept.of_copies (.inr (hperm.map _)) (fun x hx => ⟨x, hperm.mem_iff.mp hx, rfl, rfl⟩) ?_
  intro c hc
  rcases mem_onFirst hc with hc | ⟨b, hb, rfl⟩
  · exact ⟨c, hc, rfl, rfl⟩
  · exact ⟨b, hb, rfl, rfl⟩

/-- A drawn element that is found by its uuid. -/
lemma of_drawn {e : Placed} (h : board.drawn uuid = some e) : e ∈ board.drawing :=
  List.mem_of_find?_eq_some h

/-- What redo adds was undone last. -/
lemma Kept.of_getLast? (hkept : board.Kept) {e : Placed} (h : board.undos.getLast? = some e) :
    { board with undos := board.undos.dropLast }.Kept ∧ e ∈ board.undos ∧
      ∀ x ∈ board.drawing ++ board.undos.dropLast, x.uuid ≠ e.uuid := by
  have hundos : board.undos = board.undos.dropLast ++ [e] :=
    (List.dropLast_append_getLast? e h).symm
  have hmem : e ∈ board.undos := List.mem_of_getLast? h
  have huuids := hkept.uuids
  rw [hundos, ← List.append_assoc, List.map_append, List.nodup_append] at huuids
  refine ⟨⟨huuids.1, fun x hx => hkept.classes x ?_⟩, hmem, fun x hx => ?_⟩
  · rcases List.mem_append.mp hx with hx | hx
    · exact List.mem_append_left _ hx
    · exact List.mem_append_right _ (List.dropLast_subset _ hx)
  · exact huuids.2.2 _ (List.mem_map_of_mem hx) _ (by simp)

/-- An event keeps uuids and classes. -/
lemma Kept.next (hkept : board.Kept) {event : BoardEvent} (henabled : board.Enabled event) :
    (board.next event).Kept := by
  cases event with
  | add e shown place =>
    have hadded := hkept.addElement henabled.1
      (fun c hc huuid => absurd huuid (henabled.2 c hc)) shown place
    refine hadded.of_copies (.inl ?_) (fun x hx => ⟨x, ?_, rfl, rfl⟩) fun c hc => ⟨c, hc, rfl, rfl⟩
    · simp only [SharedBoard.next, List.append_nil, List.map_append]
      exact List.sublist_append_left _ _
    · exact List.mem_append_left _ (by simpa [SharedBoard.next] using hx)
  | delete uuid =>
    cases h : board.drawn uuid with
    | none => simpa only [SharedBoard.next, h] using hkept
    | some e => simpa only [SharedBoard.next, h] using hkept.removeElement (of_drawn h)
  | undo =>
    cases h : board.drawing.getLast? with
    | none => simpa only [SharedBoard.next, h] using hkept
    | some e => simpa only [SharedBoard.next, h] using hkept.removeElement (List.mem_of_getLast? h)
  | redo shown place =>
    cases h : board.undos.getLast? with
    | none => simpa only [SharedBoard.next, h] using hkept
    | some e =>
      obtain ⟨hkept', hmem, hnew⟩ := hkept.of_getLast? h
      simpa only [SharedBoard.next, h] using hkept'.addElement hnew
        (fun c hc huuid => hkept.classes e (List.mem_append_right _ hmem) c hc huuid) shown place
  | move uuid event =>
    cases h : board.drawn uuid with
    | none => simpa only [SharedBoard.next, h] using hkept
    | some e => simpa only [SharedBoard.next, h] using hkept.moveElement e event
  | controllerResized size => exact ⟨hkept.uuids, hkept.classes⟩
  | peerResized size => exact ⟨hkept.uuids, hkept.classes⟩

/-- An event keeps the places exactly when it meets the condition. -/
lemma samePlaces_next_iff (hsame : board.SamePlaces) (hkept : board.Kept) {event : BoardEvent}
    (henabled : board.Enabled event) :
    board.KeepsPlaces event ↔ (board.next event).SamePlaces := by
  cases event with
  | add e shown place =>
    have hnone : drawnCopies board.copies e.uuid = [] := by
      rw [drawnCopies, List.map_eq_nil_iff, List.filter_eq_nil_iff]
      intro c hc
      simp [henabled.2 c hc]
    have hiff := samePlaces_addElement_iff hsame
      (fun x hx => henabled.1 x (List.mem_append_left _ hx)) shown place
    rw [and_iff_left hnone] at hiff
    exact hiff.symm
  | delete uuid =>
    refine iff_of_true trivial ?_
    cases h : board.drawn uuid with
    | none => simpa only [SharedBoard.next, h] using hsame
    | some e => simpa only [SharedBoard.next, h] using samePlaces_removeElement hsame hkept (of_drawn h)
  | undo =>
    refine iff_of_true trivial ?_
    cases h : board.drawing.getLast? with
    | none => simpa only [SharedBoard.next, h] using hsame
    | some e =>
      simpa only [SharedBoard.next, h] using
        samePlaces_removeElement hsame hkept (List.mem_of_getLast? h)
  | redo shown place =>
    cases h : board.undos.getLast? with
    | none => simpa only [KeepsPlaces, SharedBoard.next, h, Option.mem_def, reduceCtorEq,
        false_imp_iff, implies_true, true_iff] using hsame
    | some e =>
      obtain ⟨-, -, hnew⟩ := hkept.of_getLast? h
      simp only [KeepsPlaces, SharedBoard.next, h, Option.mem_some_iff, forall_eq']
      have hsame' : { board with undos := board.undos.dropLast }.SamePlaces := hsame
      exact (samePlaces_addElement_iff hsame'
        (fun x hx => hnew x (List.mem_append_left _ hx)) shown place).symm
  | move uuid event =>
    cases h : board.drawn uuid with
    | none => simpa only [KeepsPlaces, SharedBoard.next, h, Option.mem_def, reduceCtorEq,
        false_imp_iff, implies_true, true_iff] using hsame
    | some e =>
      simp only [KeepsPlaces, SharedBoard.next, h, Option.mem_some_iff, forall_eq']
      exact (samePlaces_moveElement_iff hsame hkept (of_drawn h) (henabled e h) event).symm
  | controllerResized size =>
    exact iff_of_true trivial (samePlaces_of_paint hsame rfl rfl
      (funext fun e => board.controller.paint_onPageSizeChange size e) rfl)
  | peerResized size =>
    exact iff_of_true trivial (samePlaces_of_paint hsame rfl rfl rfl
      (funext fun e => board.peer.paint_onPageSizeChange size e))

/-- In the runs of two boards every drawn element is painted in the same place on both, in every state,
exactly when every event keeps the places. -/
theorem samePlaces_iff (controller peer : Screen) (events : List BoardEvent) :
    sharing.EveryState SamePlaces (start controller peer) events ↔
      sharing.EveryStep KeepsPlaces (start controller peer) events := by
  have hstart : (start controller peer).Kept ∧ (start controller peer).SamePlaces :=
    ⟨⟨List.nodup_nil, by simp [start]⟩, by simp [SamePlaces, start]⟩
  refine System.everyState_iff hstart (fun board event board' hkept hsame hstep => ?_) events
  obtain ⟨henabled, rfl⟩ := hstep
  exact ⟨samePlaces_next_iff hsame hkept henabled, fun _ => hkept.next henabled⟩

/-! ## Elements that are shown once -/

/-- No element is added again, and the helper of an image or a text has an event when it is shown. -/
def ShownOnce : BoardEvent → Prop
  | .add e shown _ => e.shape.isMoved → shown ≠ []
  | .redo _ _ => False
  | _ => True

/-- No image and no text has a matrix, and every element has one copy at most. -/
structure Cleared (board : SharedBoard) : Prop where
  drawing : ∀ e ∈ board.drawing, e.shape.isMoved → e.matrix = .identity
  copies : ∀ c ∈ board.copies, c.element.shape.isMoved → c.element.matrix = .identity
  nodup : (board.copies.map (·.element.uuid)).Nodup

/-- Without matrices an event keeps the places. -/
lemma Cleared.keepsPlaces (h : board.Cleared) (hsame : board.SamePlaces) (hkept : board.Kept)
    {event : BoardEvent} (henabled : board.Enabled event) (honce : ShownOnce event) : board.KeepsPlaces event := by
  cases event with
  | add e shown place =>
    intro htext hshown
    refine absurd hshown (honce ?_)
    cases hshape : e.shape <;> first | rfl | (rw [hshape] at htext; cases htext)
  | redo shown place => exact honce.elim
  | move uuid event =>
    intro e he
    have hmem : e ∈ board.drawing := of_drawn he
    have hmoved := henabled e he
    obtain ⟨d, copy, c, hd, -, hcopy, hdrawn, huuid, hfind⟩ := exists_copy hsame hmem
    have hc := List.mem_of_find?_eq_some hfind
    have hcuuid : c.element.uuid = e.uuid := by simpa using List.find?_some hfind
    obtain rfl : c = copy :=
      List.inj_on_of_nodup_map h.nodup hc hcopy (hcuuid.trans huuid.symm)
    have hcmoved : c.element.shape.isMoved := by
      rwa [Shape.isMoved_eq_of_bare
        (hkept.classes e (List.mem_append_left _ hmem) c hc hcuuid)]
    have hid : c.element.through board.peer.android = id := by
      funext p
      simp [Placed.through, h.copies c hc hcmoved]
    refine ⟨c, hfind, ?_⟩
    rw [if_pos hdrawn, hid, List.map_id, cornersAfter, h.drawing e hmem hmoved, reported]
    cases hshape : e.shape with
    | text => simp [Shape.isText, Shape.updateSize, Shape.points]
    | _ => rfl
  | _ => trivial

/-- Size actions keep the uuids of the copies. -/
lemma map_uuid_foldl_playSize (actions : List SizeAction) :
    (actions.foldl playSize copies).map (·.element.uuid) = copies.map (·.element.uuid) := by
  induction actions generalizing copies with
  | nil => rfl
  | cons action actions ih =>
    rw [List.foldl_cons, ih]
    refine map_onFirst (fun c => ?_) copies
    rfl

/-- Copies after size actions have no matrix when the copies had none. -/
lemma Cleared.foldl_playSize (h : board.Cleared) {actions : List SizeAction} {c : PeerCopy}
    (hc : c ∈ actions.foldl playSize board.copies) (hmoved : c.element.shape.isMoved) :
    c.element.matrix = .identity := by
  obtain ⟨c', hc', -, hbare, hmatrix⟩ := mem_foldl_playSize hc
  rw [← hmatrix]
  exact h.copies c' hc' (by rwa [Shape.isMoved_eq_of_bare hbare])

/-- An element whose helper has an event when it is shown is added without a matrix. -/
lemma Cleared.addElement (h : board.Cleared) {e : Placed}
    (hnew : ∀ c ∈ board.copies, c.element.uuid ≠ e.uuid) {shown : List HelperEvent}
    (hshown : e.shape.isMoved → shown ≠ []) (place : Nat) :
    (board.addElement e shown place).Cleared := by
  obtain ⟨huuid, hbare, -⟩ := board.added_spec e shown
  have hadded : (board.added e shown).shape.isMoved → (board.added e shown).matrix = .identity := by
    intro hmoved
    rw [Shape.isMoved_eq_of_bare hbare] at hmoved
    exact Placed.matrix_showHelper { e with matrix := board.controller.elementMatrix } hmoved
      (hshown hmoved)
  rw [addElement_eq]
  constructor
  · intro x hx hmoved
    rcases List.mem_append.mp hx with hx | hx
    · exact h.drawing x hx hmoved
    · obtain rfl := List.mem_singleton.mp hx
      exact hadded hmoved
  · intro c hc hmoved
    rcases List.mem_append.mp hc with hc | hc
    · exact h.foldl_playSize (List.mem_of_mem_take hc) hmoved
    · rcases List.mem_cons.mp hc with rfl | hc
      · exact hadded hmoved
      · exact h.foldl_playSize (List.mem_of_mem_drop hc) hmoved
  · have hperm : ((playShow ((board.addedActions e shown).foldl playSize board.copies) place
        (board.added e shown)).map (·.element.uuid)).Perm
          (e.uuid :: board.copies.map (·.element.uuid)) := by
      refine (List.perm_middle.map _).trans ?_
      rw [List.take_append_drop, List.map_cons, map_uuid_foldl_playSize, huuid]
    rw [hperm.nodup_iff, List.nodup_cons]
    refine ⟨fun hmem => ?_, h.nodup⟩
    obtain ⟨c, hc, hcuuid⟩ := List.mem_map.mp hmem
    exact hnew c hc hcuuid

/-- An element that is taken out of the drawing leaves the others as they are. -/
lemma Cleared.removeElement (h : board.Cleared) (e : Placed) : (board.removeElement e).Cleared := by
  refine ⟨fun x hx => h.drawing x (List.mem_of_mem_erase hx), fun c hc => ?_, ?_⟩
  · rcases mem_onFirst hc with hc | ⟨b, hb, rfl⟩
    · exact h.copies c hc
    · exact h.copies b hb
  · have huuids : (playHide board.copies e.uuid).map (·.element.uuid) =
        board.copies.map (·.element.uuid) := by
      refine map_onFirst (fun c => ?_) board.copies
      rfl
    exact huuids ▸ h.nodup

/-- A moved element has no matrix. -/
lemma Cleared.moveElement (h : board.Cleared) {e : Placed} (hmoved : e.shape.isMoved)
    (event : HelperEvent) : (board.moveElement e event).Cleared := by
  refine ⟨fun x hx hxmoved => ?_, fun c hc => h.foldl_playSize hc, ?_⟩
  · obtain ⟨y, hy, rfl⟩ := List.mem_map.mp hx
    split_ifs at hxmoved ⊢ with hye
    · exact e.matrix_sendSizeAnimation hmoved event
    · exact h.drawing y hy hxmoved
  · rw [SharedBoard.moveElement, map_uuid_foldl_playSize]
    exact h.nodup

/-- An event that shows an element once leaves images and texts without a matrix. -/
lemma Cleared.next (h : board.Cleared) {event : BoardEvent} (henabled : board.Enabled event)
    (honce : ShownOnce event) : (board.next event).Cleared := by
  cases event with
  | add e shown place =>
    have hadded := h.addElement henabled.2 honce place
    exact ⟨hadded.drawing, hadded.copies, hadded.nodup⟩
  | delete uuid =>
    cases hdrawn : board.drawn uuid with
    | none => simpa only [SharedBoard.next, hdrawn] using h
    | some e => simpa only [SharedBoard.next, hdrawn] using h.removeElement e
  | undo =>
    cases hlast : board.drawing.getLast? with
    | none => simpa only [SharedBoard.next, hlast] using h
    | some e => simpa only [SharedBoard.next, hlast] using h.removeElement e
  | redo shown place => exact honce.elim
  | move uuid event =>
    cases hdrawn : board.drawn uuid with
    | none => simpa only [SharedBoard.next, hdrawn] using h
    | some e =>
      simpa only [SharedBoard.next, hdrawn] using h.moveElement (henabled e hdrawn) event
  | controllerResized size => exact ⟨h.drawing, h.copies, h.nodup⟩
  | peerResized size => exact ⟨h.drawing, h.copies, h.nodup⟩

/-- As long as no element is added again and every image and text has an event of its helper when it is
shown, every element is painted in the same place on both boards. -/
theorem samePlaces_of_shownOnce {controller peer : Screen} {events : List BoardEvent}
    (h : ∀ event ∈ events, ShownOnce event) :
    sharing.EveryState SamePlaces (start controller peer) events := by
  have honce : sharing.EveryStep (fun _ event => ShownOnce event) (start controller peer) events :=
    fun first event others _ _ hevents _ _ => h event (by rw [hevents]; simp)
  have hstart : (start controller peer).SamePlaces ∧ (start controller peer).Kept ∧
      (start controller peer).Cleared :=
    ⟨by simp [SamePlaces, start], ⟨List.nodup_nil, by simp [start]⟩,
      ⟨by simp [start], by simp [start], List.nodup_nil⟩⟩
  have hstate : sharing.EveryState (fun board => board.SamePlaces ∧ board.Kept ∧ board.Cleared)
      (start controller peer) events := by
    refine honce.everyState hstart fun board event board' hboard hevent hstep => ?_
    obtain ⟨hsame, hkept, hcleared⟩ := hboard
    obtain ⟨henabled, rfl⟩ := hstep
    have hkeeps := hcleared.keepsPlaces hsame hkept henabled hevent
    exact ⟨(samePlaces_next_iff hsame hkept henabled).mp hkeeps, hkept.next henabled,
      hcleared.next henabled hevent⟩
  exact fun first others board hevents hrun => (hstate first others board hevents hrun).1

/-- An image is inserted, undone, redone and moved. -/
def redoneAndMoved : List BoardEvent :=
  [.add ⟨[1], .image (100, 50) (10, 10), .identity⟩ [⟨(100, 50), (10, 10)⟩] 0, .undo, .redo [] 0,
    .move [1] ⟨(200, 100), (10, 10)⟩]

/-- On a page of half the standard size the image is redone with the matrix of the page, and moved
without it: the copy on a page of the standard size keeps the matrix. -/
theorem not_samePlaces_redoneAndMoved :
    ¬ sharing.EveryState SamePlaces
      (start (desktop (639, 366) (by decide) (by decide))
        (desktop (1278, 732) (by decide) (by decide))) redoneAndMoved := by
  intro h
  have hlast := h redoneAndMoved [] _ (List.append_nil _).symm
    (.cons ⟨⟨by decide, by decide⟩, rfl⟩ (.cons ⟨trivial, rfl⟩ (.cons ⟨trivial, rfl⟩
      (.cons ⟨by unfold Enabled; decide +kernel, rfl⟩ (.nil _)))))
  revert hlast
  unfold SamePlaces
  decide +kernel

end SharedBoard

end Liangshi

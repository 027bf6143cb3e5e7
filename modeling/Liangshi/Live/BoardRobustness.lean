import Liangshi.Live.LiveBoard
import Liangshi.Board.PageDecoding
import Mathlib.Logic.Equiv.List

/-!
# Board data that a live widget withstands

What `OnBoardDataTriggered` does with any bytes.  The bytes must be board data with the record of a
known action; the record of an element must unpack, and the data of a page must load: else an
exception escapes or a null pointer is dereferenced.  An element that does not convert changes
nothing, but data that loads without being the data of a page replaces the page, which was cleared
first.

`withstands_iff` is the whole condition.
-/

namespace Liangshi

open Wire MessagePack

namespace LiveBoard

/-- The action that board data holds, where it holds one. -/
def boardAction (u : Uninitialised) (data : LokiBuffer) : Option AnimationAction := do
  let boardData ← BoardData.fromLokiBuffer u data
  let msg ← unpackOne boardData.data.data
  let type ← AnimationType.ofInt? boardData.type
  AnimationAction.convert u msg type

/-- The element or page in an action decodes. -/
def EmbeddedDecodes (env : Surroundings) (unzip : Bytes → Bytes) : AnimationKind → Prop
  | .networkShow elementType elementData =>
    ElementSound env (unzip elementData.data).length [] elementType (unzip elementData.data) ∧
      (Element.ofRecord env [] elementType (unzip elementData.data)).isSome
  | .networkSwitchPage pageData => Page.DataDecodes env (unzip pageData.data)
  | _ => True

/-- Board data that decodes to a known action, with the element or page in it. -/
def Decodes (env : Surroundings) (unzip : Bytes → Bytes) (data : LokiBuffer) : Prop :=
  ∃ action, boardAction env.uninitialised data = some action ∧
    EmbeddedDecodes env unzip action.kind

/-- A board with the pages, the drawing and the current page of another one. -/
structure Unchanged (board board' : LiveBoard) : Prop where
  pages : List.Forall₂ Page.Unchanged board.allPages board'.allPages
  currentPage : (board'.currentPage : Nat) = board.currentPage

/-- No exception escapes and no null pointer is dereferenced, and data that does not decode leaves
the board as it was. -/
def Withstands (env : Surroundings) (unzip : Bytes → Bytes) (board : LiveBoard)
    (data : LokiBuffer) : Prop :=
  ∃ board', board.onBoardDataTriggered env unzip data = .ok board' ∧
    (¬ Decodes env unzip data → board.Unchanged board')

/-- Data that puts nothing new on the page that is shown: the page has no elements, and of the data no
record converts and the head is the page's own. -/
structure Repeats (env : Surroundings) (board : LiveBoard) (uuid bytes : Bytes) : Prop where
  shown : board.findPage uuid = some board.currentPage
  header : board.current.header env.quuid bytes = board.current.own
  allElements : board.current.allElements = .empty
  drawingElements : board.current.drawingElements = []
  bodies : ∀ body ∈ bodies 0 (unpackAll bytes).1, Element.ofRecord env [0] body.1 body.2 = none

/-- The element or page in an action does no harm to the board. -/
def Harmless (env : Surroundings) (unzip : Bytes → Bytes) (board : LiveBoard)
    (action : AnimationAction) : Prop :=
  match action.kind with
  | .networkShow elementType elementData =>
    ElementSound env (unzip elementData.data).length [] elementType (unzip elementData.data)
  | .networkSwitchPage pageData =>
    Page.DataSound env (unzip pageData.data) ∧
      (Page.DataDecodes env (unzip pageData.data) ∨
        board.Repeats env action.targetScUuid (unzip pageData.data))
  | _ => True

variable {env : Surroundings} {unzip : Bytes → Bytes} {board : LiveBoard}

/-- Board data without an action is a fault, any other is the action that is played. -/
lemma onBoardDataTriggered_eq (data : LokiBuffer) (board' : LiveBoard) :
    board.onBoardDataTriggered env unzip data = .ok board' ↔
      ∃ action, boardAction env.uninitialised data = some action ∧
        board.playAction env unzip action = .ok board' := by
  unfold onBoardDataTriggered boardAction BoardData.fromLokiBuffer
  cases unpackOne data.data with
  | none => simp
  | some msg =>
    simp only [Option.bind_eq_bind, Option.bind_some]
    cases (BoardData.codec env.uninitialised).convert msg with
    | none => simp
    | some boardData =>
      simp only [Option.bind_some, AnimationAction.createFromType]
      cases unpackOne boardData.data.data with
      | none => simp
      | some record =>
        simp only [Option.bind_some]
        cases (AnimationType.ofInt? boardData.type).bind
            (AnimationAction.convert env.uninitialised record) <;> simp

/-! ## Showing an element -/

/-- An element is shown exactly when its record can be created. -/
lemma playNetworkShowAction_ok_iff (hinjective : Function.Injective env.address) (page : Page)
    (type : Int32) (bytes : Bytes) :
    (∃ page', page.playNetworkShowAction env type bytes = .ok page') ↔
      ElementSound env bytes.length [] type bytes := by
  rw [← Element.createFromType_ok_iff hinjective]
  unfold Page.playNetworkShowAction
  cases Element.createFromType env bytes.length [] type bytes with
  | error fault => simp
  | ok r => cases r <;> simp

/-- A record that converts to no element leaves the page as it was. -/
lemma playNetworkShowAction_eq {page page' : Page} {type : Int32} {bytes : Bytes}
    (hplay : page.playNetworkShowAction env type bytes = .ok page')
    (hrecord : Element.ofRecord env [] type bytes = none) : page' = page := by
  unfold Page.playNetworkShowAction at hplay
  cases hcreate : Element.createFromType env bytes.length [] type bytes with
  | error fault => rw [hcreate] at hplay; cases hplay
  | ok r =>
    have hfrom := Element.createdFrom_createFromType hcreate
    rw [hrecord] at hfrom
    cases r with
    | some e => exact hfrom.elim
    | none =>
      rw [hcreate] at hplay
      cases hplay
      rfl

/-! ## Switching the page -/

/-- Putting a page in the place of one that shows the same changes no board. -/
lemma unchanged_showPage_iff (board : LiveBoard) (i : Fin board.allPages.length) (page : Page) :
    board.Unchanged (board.showPage i page i.isLt) ↔
      i = board.currentPage ∧ (board.allPages.get i).Unchanged page := by
  have hpages : List.Forall₂ Page.Unchanged board.allPages (board.allPages.set i page) ↔
      (board.allPages.get i).Unchanged page := by
    rw [List.forall₂_iff_get]
    constructor
    · rintro ⟨-, h⟩
      simpa using h i i.isLt (by simp)
    · intro h
      refine ⟨by simp, fun j hj hj' => ?_⟩
      rw [List.get_eq_getElem, List.get_eq_getElem, List.getElem_set]
      split_ifs with hij
      · subst hij
        exact h
      · exact .refl _
  constructor
  · rintro ⟨h, hcurrent⟩
    exact ⟨Fin.ext hcurrent, hpages.mp h⟩
  · rintro ⟨rfl, h⟩
    exact ⟨hpages.mpr h, rfl⟩

/-- A board with one more page is changed. -/
lemma not_unchanged_appendPage (page : Page) : ¬ board.Unchanged (board.appendPage page) := by
  intro h
  have hlength := h.pages.length_eq
  simp [appendPage] at hlength

/-- A page is switched to exactly when its data loads. -/
lemma playNetworkSwitchPageAction_ok_iff (hinjective : Function.Injective env.address)
    (uuid bytes : Bytes) :
    (∃ board', board.playNetworkSwitchPageAction env uuid bytes = .ok board') ↔
      Page.DataSound env bytes := by
  unfold playNetworkSwitchPageAction
  dsimp only
  split
  · rename_i i hfind
    unfold Page.playNetworkSwitchPageAction
    simp only [map_eq_ok]
    rw [← Page.setMsgPackData_ok_iff hinjective]
    constructor
    · rintro ⟨_, _, ⟨page, hload, -⟩, -⟩
      exact ⟨page, hload⟩
    · rintro ⟨page, hload⟩
      exact ⟨_, _, ⟨page, hload, rfl⟩, rfl⟩
  · rename_i hfind
    simp only [map_eq_ok]
    rw [← Page.setMsgPackData_ok_iff hinjective]
    constructor
    · rintro ⟨_, page, hload, -⟩
      exact ⟨page, hload⟩
    · rintro ⟨page, hload⟩
      exact ⟨_, page, hload, rfl⟩

/-- Who controls the board does not count. -/
lemma unchanged_controlingBoard_iff (control : Bool) (board' : LiveBoard) :
    { board with controlingBoard := control }.Unchanged board' ↔ board.Unchanged board' :=
  ⟨fun h => ⟨h.pages, h.currentPage⟩, fun h => ⟨h.pages, h.currentPage⟩⟩

/-- A page that is switched to leaves the board as it was exactly when its data repeats the page that
is shown. -/
lemma unchanged_playNetworkSwitchPageAction_iff (hinjective : Function.Injective env.address)
    (hfresh : ∀ page ∈ board.allPages, ∀ place, env.address place ∉ page.allElements)
    {uuid bytes : Bytes} {board' : LiveBoard}
    (hplay : board.playNetworkSwitchPageAction env uuid bytes = .ok board') :
    board.Unchanged board' ↔ board.Repeats env uuid bytes := by
  unfold playNetworkSwitchPageAction at hplay
  dsimp only at hplay
  have hfindEq : { board with controlingBoard := false }.findPage uuid = board.findPage uuid := rfl
  rw [hfindEq] at hplay
  cases hfind : board.findPage uuid with
  | none =>
    simp only [hfind] at hplay
    obtain ⟨page, -, rfl⟩ := map_eq_ok.mp hplay
    refine iff_of_false (fun h => ?_) (fun h => ?_)
    · exact not_unchanged_appendPage _ ((unchanged_controlingBoard_iff false _).mpr h)
    · rw [h.shown] at hfind
      cases hfind
  | some i =>
    simp only [hfind] at hplay
    obtain ⟨page, hpage, rfl⟩ := map_eq_ok.mp hplay
    obtain ⟨loaded, hload, rfl⟩ := map_eq_ok.mp hpage
    have hshow : { board with controlingBoard := false }.Unchanged
        ({ board with controlingBoard := false }.showPage i (loaded.setEnable false) i.isLt) ↔
        i = board.currentPage ∧ (board.allPages.get i).Unchanged (loaded.setEnable false) :=
      unchanged_showPage_iff { board with controlingBoard := false } i _
    rw [← unchanged_controlingBoard_iff false, hshow]
    have hfreshPage : ∀ place, env.address place ∉ (board.allPages.get i).allElements :=
      hfresh _ (List.get_mem _ _)
    have hiff := Page.unchanged_iff hinjective hfreshPage hload
    have hheader : ((((board.allPages.get i).setMode.lineWidthChanged board.cachedWidth
        false).lineColorChanged board.cachedColor false).header env.quuid bytes) =
        (board.allPages.get i).header env.quuid bytes := by
      unfold Page.header
      rw [Page.own_lineColorChanged, Page.own_lineWidthChanged, Page.own_setMode]
    rw [hheader] at hiff
    constructor
    · rintro ⟨rfl, h⟩
      obtain ⟨hown, hall, hdrawing, hbodies⟩ := hiff.mp h
      exact ⟨hfind, hown, hall, hdrawing, hbodies⟩
    · intro h
      obtain rfl : i = board.currentPage := Option.some.inj (hfind.symm.trans h.shown)
      exact ⟨rfl, hiff.mpr ⟨h.header, h.allElements, h.drawingElements, h.bodies⟩⟩

/-! ## Any data -/

/-- The board withstands data exactly when it withstands the action in it. -/
lemma withstands_iff_action (data : LokiBuffer) :
    board.Withstands env unzip data ↔
      ∃ action, boardAction env.uninitialised data = some action ∧
        ∃ board', board.playAction env unzip action = .ok board' ∧
          (¬ EmbeddedDecodes env unzip action.kind → board.Unchanged board') := by
  have hdecodes : ∀ {action}, boardAction env.uninitialised data = some action →
      (Decodes env unzip data ↔ EmbeddedDecodes env unzip action.kind) := by
    intro action haction
    simp [Decodes, haction]
  constructor
  · rintro ⟨board', hdata, hunchanged⟩
    obtain ⟨action, haction, hplay⟩ := (onBoardDataTriggered_eq data board').mp hdata
    rw [hdecodes haction] at hunchanged
    exact ⟨action, haction, board', hplay, hunchanged⟩
  · rintro ⟨action, haction, board', hplay, hunchanged⟩
    refine ⟨board', (onBoardDataTriggered_eq data board').mpr ⟨action, haction, hplay⟩, ?_⟩
    rwa [hdecodes haction]

/-- Setting the page that is shown to itself changes no board. -/
lemma unchanged_setCurrent_self : board.Unchanged (board.setCurrent board.current) :=
  (unchanged_showPage_iff board board.currentPage _).mpr ⟨rfl, .refl _⟩

/-- A board withstands data exactly when the data holds a known action whose element can be created or
whose page loads, and a page that loads without being decoded repeats the page that is shown. -/
theorem withstands_iff (env : Surroundings) (unzip : Bytes → Bytes) (board : LiveBoard)
    (hinjective : Function.Injective env.address)
    (hfresh : ∀ page ∈ board.allPages, ∀ place, env.address place ∉ page.allElements)
    (data : LokiBuffer) :
    board.Withstands env unzip data ↔
      ∃ action, boardAction env.uninitialised data = some action ∧
        board.Harmless env unzip action := by
  rw [withstands_iff_action]
  refine exists_congr fun action => and_congr_right fun _ => ?_
  unfold playAction Harmless EmbeddedDecodes
  cases action.kind with
  | networkShow elementType elementData =>
    simp only [map_eq_ok]
    rw [← playNetworkShowAction_ok_iff hinjective board.current]
    constructor
    · rintro ⟨_, ⟨page, hplay, -⟩, -⟩
      exact ⟨page, hplay⟩
    · rintro ⟨page, hplay⟩
      refine ⟨_, ⟨page, hplay, rfl⟩, fun hdecodes => ?_⟩
      have hrecord : Element.ofRecord env [] elementType (unzip elementData.data) = none := by
        by_contra hne
        exact hdecodes ⟨⟨page, hplay⟩, Option.isSome_iff_ne_none.mpr hne⟩
      rw [playNetworkShowAction_eq hplay hrecord]
      exact unchanged_setCurrent_self
  | networkSwitchPage pageData =>
    dsimp only
    constructor
    · rintro ⟨board', hplay, hunchanged⟩
      refine ⟨(playNetworkSwitchPageAction_ok_iff hinjective _ _).mp ⟨board', hplay⟩, ?_⟩
      rw [unchanged_playNetworkSwitchPageAction_iff hinjective hfresh hplay] at hunchanged
      exact or_iff_not_imp_left.mpr hunchanged
    · rintro ⟨hsound, hor⟩
      obtain ⟨board', hplay⟩ := (playNetworkSwitchPageAction_ok_iff hinjective
        action.targetScUuid (unzip pageData.data)).mpr hsound
      refine ⟨board', hplay, fun hdecodes => ?_⟩
      rw [unchanged_playNetworkSwitchPageAction_iff hinjective hfresh hplay]
      exact hor.resolve_left hdecodes
  | _ => simp

/-- Surroundings in which every object has an address of its own. -/
def plainSurroundings : Surroundings where
  uninitialised := ⟨0, false⟩
  doubles := ⟨fun _ _ => SMatrix.one, fun i _ => i⟩
  quuid := id
  unitedRect _ := (⟨0, 0⟩, 0, 0)
  newUuid place := place.map UInt8.ofNat
  address := Encodable.encode

/-- A board with one page that has nothing on it. -/
def blankBoard : LiveBoard := ⟨[.new []], 0, 0, false, .identity, 2, 1, 0xffffffff⟩

/-- Surroundings whose addresses are even. -/
def evenSurroundings : Surroundings :=
  { plainSurroundings with address := fun place => 2 * Encodable.encode place }

/-- A page with one element, at an odd address. -/
def pageWith (uuid : Bytes) (e : Element) : Page := (Page.new uuid).addNew 1 e false false

/-- A board with one page that has a line on it. -/
def linedBoard : LiveBoard :=
  ⟨[pageWith [1] (.new [2] (.line ⟨0, 0⟩ ⟨10, 10⟩))], 0, 0, false, .identity, 2, 1, 0xffffffff⟩

/-- An ellipse to be shown. -/
def shownEllipse : Element := .new [3] (.ellipse ⟨0, 0⟩ ⟨5, 5⟩)

/-- The action that shows it on the page. -/
def showingEllipse : AnimationAction :=
  ⟨[1], [3], 0, .networkShow shownEllipse.getType.toInt (.ofData shownEllipse.getMsgPackData), false⟩

/-- The data of the page with the ellipse on it. -/
def ellipsePage : Bytes := (pageWith [1] shownEllipse).getMsgPackData.2

/-- The action that brings them to the page. -/
def switchingToEllipse : AnimationAction := ⟨[1], [], 0, .networkSwitchPage (.ofData ellipsePage), false⟩

/-- The board data of an action. -/
def boardDataOf (action : AnimationAction) : LokiBuffer :=
  (BoardData.mk action.getType.toInt (.ofData action.getMsgPackData)).getMsgPackData ⟨0, false⟩

/-- A board with a line withstands data that shows an ellipse and data that brings another drawing. -/
theorem withstands_ellipse : linedBoard.Withstands evenSurroundings id (boardDataOf showingEllipse) ∧
    linedBoard.Withstands evenSurroundings id (boardDataOf switchingToEllipse) := by
  have hinjective : Function.Injective evenSurroundings.address := fun place place' h =>
    Encodable.encode_injective (Nat.eq_of_mul_eq_mul_left Nat.two_pos h)
  have hfresh : ∀ page ∈ linedBoard.allPages, ∀ place,
      evenSurroundings.address place ∉ page.allElements := by
    intro page hpage place hmem
    obtain rfl := List.mem_singleton.mp hpage
    have hone : 2 * Encodable.encode place = 1 := List.mem_singleton.mp hmem
    omega
  have hwithstands := withstands_iff evenSurroundings id linedBoard hinjective hfresh
  constructor
  · refine (hwithstands _).mpr ⟨showingEllipse, by decide +kernel, ?_⟩
    have hcreate : (Element.createFromType evenSurroundings shownEllipse.getMsgPackData.length []
        shownEllipse.getType.toInt shownEllipse.getMsgPackData).toOption.map (·.isSome) = some true := by
      decide +kernel
    obtain ⟨r, hr, -⟩ := exists_ok_of_map hcreate
    exact (Element.createFromType_ok_iff hinjective _ _ _ _).mp ⟨r, hr⟩
  · refine (hwithstands _).mpr ⟨switchingToEllipse, by decide +kernel, ?_⟩
    have hload : ((Page.new [1]).setMsgPackData evenSurroundings ellipsePage).toOption.map
        (·.uuid) = some [1] := by decide +kernel
    obtain ⟨page, hpage, -⟩ := exists_ok_of_map hload
    have hsound := (Page.setMsgPackData_ok_iff hinjective _ _).mp ⟨page, hpage⟩
    exact ⟨hsound, .inl ⟨hsound, by decide +kernel, by decide +kernel, by decide +kernel⟩⟩

/-- An action of a type that is not known yet is dereferenced as a null pointer. -/
theorem not_withstands_unknownType : ¬ blankBoard.Withstands plainSurroundings id
    (.ofData [0x92, 0xcd, 0x03, 0xf5, 0x91, 0x91, 0xd0, 0xc0]) := by
  rintro ⟨board', hdata, -⟩
  obtain ⟨action, haction, -⟩ := (onBoardDataTriggered_eq _ board').mp hdata
  have hnone : boardAction plainSurroundings.uninitialised
      (.ofData [0x92, 0xcd, 0x03, 0xf5, 0x91, 0x91, 0xd0, 0xc0]) = none := by decide +kernel
  rw [hnone] at haction
  cases haction

end LiveBoard

end Liangshi

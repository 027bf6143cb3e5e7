import Liangshi.Board.InitState
import Liangshi.Board.SavedElements

/-!
# What the init state of an element gives back

An element and what a sequence of changes makes of it: the class stays, with the members that no change
touches (`Element.follows_changes`).  Putting the init state on the changed element and taking it off
again leaves it as it is exactly when it has what it works out from its state
(`Element.setState_state_iff`), and putting the init state on it gives back its data exactly when also
what the state does not keep is as it was (`Element.toObj_setState_state_iff`).
-/

namespace Liangshi

open Wire MessagePack Ordered

/-! ## What changes leave alone -/

/-- The members of a body that changes touch. -/
structure Adjustable where
  leftTop : SPoint
  width : Int32
  height : Int32
  fontSize : Int32
  text : Bytes
  xZoom : UInt64
  yZoom : UInt64

namespace BanMembers

/-- Members with other values where changes touch them. -/
def adjust (b : BanMembers) (a : Adjustable) : BanMembers :=
  ⟨a.leftTop, b.leftTopInSc, b.width, b.height, a.xZoom, a.yZoom, a.width, a.height, b.data⟩

/-- The members that changes touch. -/
def adjustable (b : BanMembers) : Adjustable :=
  ⟨b.leftTop, b.zoomWidth, b.zoomHeight, 0, [], b.xZoom, b.yZoom⟩

/-- The zoomed width after an adjustment. -/
@[simp] lemma zoomWidth_adjust (b : BanMembers) (a : Adjustable) :
    (b.adjust a).zoomWidth = a.width := rfl

/-- The zoomed height after an adjustment. -/
@[simp] lemma zoomHeight_adjust (b : BanMembers) (a : Adjustable) :
    (b.adjust a).zoomHeight = a.height := rfl

end BanMembers

namespace ElementBody

/-- A body with other values where changes touch it. -/
def adjust (a : Adjustable) : ElementBody → ElementBody
  | text _ _ _ _ fontWeight _ => .text a.leftTop a.width a.height a.fontSize fontWeight a.text
  | htmlText _ _ _ _ fontWeight _ =>
    .htmlText a.leftTop a.width a.height a.fontSize fontWeight a.text
  | image _ _ _ imageBuffer => .image a.leftTop a.width a.height imageBuffer
  | compressedImage _ _ _ imageBuffer => .compressedImage a.leftTop a.width a.height imageBuffer
  | ban b => .ban (b.adjust a)
  | banWithLabel b label => .banWithLabel (b.adjust a) label
  | testBan b => .testBan (b.adjust a)
  | testBanWithLabel b label => .testBanWithLabel (b.adjust a) label
  | banState _ _ _ uuid => .banState a.leftTop a.width a.height uuid
  | imageState _ _ _ uuid => .imageState a.leftTop a.width a.height uuid
  | body => body

/-- The values where changes touch a body. -/
def adjustable : ElementBody → Adjustable
  | text leftTop w h fontSize _ t | htmlText leftTop w h fontSize _ t =>
    ⟨leftTop, w, h, fontSize, t, 0, 0⟩
  | image leftTop w h _ | compressedImage leftTop w h _ => ⟨leftTop, w, h, 0, [], 0, 0⟩
  | ban b | banWithLabel b _ | testBan b | testBanWithLabel b _ => b.adjustable
  | banState leftTop w h _ | imageState leftTop w h _ => ⟨leftTop, w, h, 0, [], 0, 0⟩
  | _ => ⟨⟨0, 0⟩, 0, 0, 0, [], 0, 0⟩

/-- The last adjustment counts. -/
lemma adjust_adjust (a a' : Adjustable) (body : ElementBody) :
    (body.adjust a).adjust a' = body.adjust a' := by
  cases body <;> rfl

/-- A body has its own adjustment. -/
lemma adjust_adjustable (body : ElementBody) : body.adjust body.adjustable = body := by
  cases body <;> rfl

end ElementBody

namespace Element

/-- A change touches nothing else of the body. -/
lemma body_change (k : ElementToolkit) (e : Element) (c : AttributeChange) :
    (e.change k c).body = e.body.adjust (e.change k c).body.adjustable := by
  unfold change
  cases c with
  | lineWidth width =>
    simp only [setLineWidth]
    split <;> exact (ElementBody.adjust_adjustable _).symm
  | lineStyle style =>
    simp only [setLineStyle]
    split <;> exact (ElementBody.adjust_adjustable _).symm
  | lineColor color =>
    simp only [setLineColor]
    split <;> exact (ElementBody.adjust_adjustable _).symm
  | _ => cases e.body <;> rfl

/-- What a sequence of changes leaves of an element. -/
structure Follows (e e' : Element) : Prop where
  objUuid : e'.objUuid = e.objUuid
  body : e'.body = e.body.adjust e'.body.adjustable
  matrix : (e.body.isText || e.body.isImage) = false → e'.matrix = e.matrix

/-- Changes leave the class of the body. -/
lemma Follows.getType {e e' : Element} (h : e.Follows e') : e'.getType = e.getType := by
  unfold Element.getType
  rw [h.body]
  cases e.body <;> rfl

/-- An element follows itself. -/
lemma Follows.refl (e : Element) : e.Follows e :=
  ⟨rfl, (ElementBody.adjust_adjustable _).symm, fun _ => rfl⟩

/-- What follows a follower follows. -/
lemma Follows.trans {e e' e'' : Element} (h : e.Follows e') (h' : e'.Follows e'') :
    e.Follows e'' := by
  have hclass : ∀ (a : Adjustable) (body : ElementBody),
      ((body.adjust a).isText || (body.adjust a).isImage) = (body.isText || body.isImage) := by
    intro a body
    cases body <;> rfl
  refine ⟨h'.objUuid.trans h.objUuid, ?_, fun hout => ?_⟩
  · calc e''.body
        _ = e'.body.adjust e''.body.adjustable := h'.body
        _ = (e.body.adjust e'.body.adjustable).adjust e''.body.adjustable := by rw [← h.body]
        _ = e.body.adjust e''.body.adjustable := ElementBody.adjust_adjust _ _ _
  · refine (h'.matrix ?_).trans (h.matrix hout)
    rw [h.body, hclass, hout]

/-- One change. -/
lemma follows_change (k : ElementToolkit) (e : Element) (c : AttributeChange) :
    e.Follows (e.change k c) := by
  refine ⟨?_, body_change k e c, fun hout => ?_⟩
  · cases c <;> unfold change <;>
      first | rfl | (simp only [setLineWidth, setLineStyle, setLineColor]; split <;> rfl)
  · cases c <;> unfold change <;>
      first
        | rfl
        | exact if_neg (by simp [hout])
        | (simp only [setLineWidth, setLineStyle, setLineColor]; split <;> rfl)

/-- A sequence of changes. -/
lemma follows_changes (k : ElementToolkit) (e : Element) (changes : List AttributeChange) :
    e.Follows (changes.foldl (change k) e) := by
  induction changes generalizing e with
  | nil => exact .refl e
  | cons c changes ih => exact (follows_change k e c).trans (ih _)

end Element

/-- The classes whose states keep a size. -/
lemma Element.Follows.isImage_or_isBan {e e' : Element} (h : e.Follows e') :
    (e'.body.isImage || e'.body.isBan) = (e.body.isImage || e.body.isBan) := by
  rw [h.body]
  cases e.body <;> rfl

/-! ## Records -/

namespace Element

/-- Elements of one class have the same record when they have the same attributes of the class. -/
lemma toObj_eq_iff {e e' : Element} (h : e'.getType = e.getType) :
    e'.toObj = e.toObj ↔ e'.recorded = e.recorded := by
  constructor
  · intro heq
    have hconvert := convert_toObj ⟨0, false⟩ [] e'
    rw [heq, h, convert_toObj] at hconvert
    exact (Option.some.inj hconvert).symm
  · intro heq
    rw [← toObj_recorded e', heq, toObj_recorded]

end Element

/-! ## Putting a state on an element -/

/-- The new size is taken unless it is `-1`. -/
lemma resized_eq_iff {old new : Int32} : resized old new = new ↔ (new = -1 → old = -1) := by
  unfold resized
  split_ifs with h
  · simp [h]
  · have h : new = -1 := not_not.mp h
    simp [h]

/-- A size of -1 keeps the old one. -/
@[simp] lemma resized_keep (old : Int32) : resized old (-1) = old := rfl

/-- After a borrowed size the old one is put back unless it is `-1`. -/
lemma resized_resized_eq_iff {old new : Int32} :
    resized (resized old new) old = old ↔ (old = -1 → new = -1) := by
  rw [resized_eq_iff]
  refine forall_congr' fun h => ?_
  subst h
  unfold resized
  split_ifs with h
  · exact Iff.rfl
  · exact iff_of_true rfl (not_not.mp h)

/-- Laying out the text that a `QString` makes of a text. -/
lemma ElementToolkit.textSize_recode_iff (k : ElementToolkit) (t : Bytes) (fontSize w h : Int32) :
    (k.textSize (k.recode t) fontSize).1 = w ∧ (k.textSize (k.recode t) fontSize).2 = h ∧
        k.recode t = t ↔
      k.recode t = t ∧ k.textSize t fontSize = (w, h) := by
  rw [Prod.ext_iff]
  constructor
  · rintro ⟨hw, hh, ht⟩
    rw [ht] at hw hh
    exact ⟨ht, hw, hh⟩
  · rintro ⟨ht, hw, hh⟩
    rw [ht]
    exact ⟨hw, hh, rfl⟩

namespace BanMembers

/-- Whether the zooms are the quotients of the sizes. -/
def Normal (k : ElementToolkit) (b : BanMembers) : Prop :=
  b.xZoom = k.quotient b.zoomWidth b.width ∧ b.yZoom = k.quotient b.zoomHeight b.height

/-- Putting members in another size and back. -/
lemma updateSize_updateSize_iff (k : ElementToolkit) (b : BanMembers) (leftTop : SPoint)
    (width height : Int32) :
    (b.updateSize k.toDoubleArithmetic leftTop width height).updateSize k.toDoubleArithmetic
        b.leftTop b.zoomWidth b.zoomHeight = b ↔
      b.Normal k ∧ (b.zoomWidth = -1 → width = -1) ∧ (b.zoomHeight = -1 → height = -1) := by
  rw [← resized_resized_eq_iff, ← resized_resized_eq_iff]
  obtain ⟨lt, ltInSc, w, h, xZoom, yZoom, zoomWidth, zoomHeight, data⟩ := b
  simp only [updateSize, Normal, mk.injEq, true_and, and_true]
  constructor
  · rintro ⟨hx, hy, hw, hh⟩
    rw [hw] at hx
    rw [hh] at hy
    exact ⟨⟨hx.symm, hy.symm⟩, hw, hh⟩
  · rintro ⟨⟨hx, hy⟩, hw, hh⟩
    rw [hw, hh]
    exact ⟨hx.symm, hy.symm, rfl, rfl⟩

end BanMembers

namespace Element

/-- Whether what an element works out when a state is put on it is what it has: the zooms of a
`BanElement` are the quotients of its sizes, and an `HtmlTextElement` has a text that a `QString` can
hold and the size it is laid out with. -/
def Normal (k : ElementToolkit) (e : Element) : Prop :=
  match e.body with
  | .htmlText _ width height fontSize _ text =>
    k.recode text = text ∧ k.textSize text fontSize = (width, height)
  | .ban b | .banWithLabel b _ | .testBan b | .testBanWithLabel b _ => b.Normal k
  | _ => True

/-- The size of the second element is `-1` where that of the first one is, if the state of their class
keeps the size. -/
def Sized (e e' : Element) : Prop :=
  (e.body.isImage || e.body.isBan) →
    (e.body.size.1 = -1 → e'.body.size.1 = -1) ∧ (e.body.size.2 = -1 → e'.body.size.2 = -1)

/-- What the state of the class does not keep is the same: the size and the matrix of a text, the
colour of a labelled `BanElement`, and all of a state element. -/
def RestKept (e e' : Element) : Prop :=
  match e.body with
  | .text .. => e'.body.size = e.body.size ∧ e'.matrix = e.matrix
  | .htmlText .. => e'.matrix = e.matrix
  | .banWithLabel .. | .testBanWithLabel .. => e'.lineColor = e.lineColor
  | .banState .. | .imageState .. => e'.body = e.body
  | _ => True

/-- The state of an image or of a `BanElement` is its place, its size and its matrix. -/
lemma state_of_placed (k : ElementToolkit) {e : Element} (h : e.body.isImage || e.body.isBan) :
    e.state k =
      .placed e.body.adjustable.leftTop e.body.size.1 e.body.size.2 e.matrix := by
  unfold state
  cases hclass : e.body <;> rw [hclass] at h <;> first | rfl | cases h

/-- Putting an image or a `BanElement` in another place and size and back. -/
lemma setState_placed_iff (k : ElementToolkit) {e : Element} (h : e.body.isImage || e.body.isBan)
    (leftTop : SPoint) (width height : Int32) (matrix : SMatrix) :
    (e.setState k (.placed leftTop width height matrix)).setState k (e.state k) = e ↔
      e.Normal k ∧ (e.body.size.1 = -1 → width = -1) ∧ (e.body.size.2 = -1 → height = -1) := by
  obtain ⟨uuid, lineWidth, lineStyle, lineColor, m, body, _, _, _, _, _⟩ := e
  cases body with
  | image lt w h i =>
    simp [state, setState, ElementBody.updateSize, Normal, ElementBody.size,
      resized_resized_eq_iff]
  | compressedImage lt w h i =>
    simp [state, setState, ElementBody.updateSize, Normal, ElementBody.size,
      resized_resized_eq_iff]
  | ban b | banWithLabel b label | testBan b | testBanWithLabel b label =>
    simp [state, setState, ElementBody.updateSize, Normal, ElementBody.size,
      BanMembers.updateSize_updateSize_iff]
  | _ => cases h

/-- What is left of an element when its init state is put on it and taken off. -/
lemma setState_state_iff (k : ElementToolkit) {e e' : Element} (h : e.Follows e') :
    (e'.setState k (e.state k)).setState k (e'.state k) = e' ↔ e'.Normal k ∧ e'.Sized e := by
  by_cases hclass : (e.body.isImage || e.body.isBan) = true
  · have hclass' : (e'.body.isImage || e'.body.isBan) = true := by
      rw [h.isImage_or_isBan, hclass]
    rw [state_of_placed k hclass, setState_placed_iff k hclass']
    unfold Sized
    rw [forall_prop_of_true hclass']
  · have hsized : e'.Sized e := by
      intro hclass'
      rw [h.isImage_or_isBan] at hclass'
      exact absurd hclass' hclass
    rw [and_iff_left hsized]
    have hbody := h.body
    generalize e'.body.adjustable = a at hbody
    obtain ⟨uuid, lineWidth, lineStyle, lineColor, m, body, _, _, _, _, _⟩ := e'
    obtain rfl : body = e.body.adjust a := hbody
    cases hcase : e.body with
    | image lt w h i | compressedImage lt w h i => rw [hcase] at hclass; cases hclass rfl
    | ban b | testBan b => rw [hcase] at hclass; cases hclass rfl
    | banWithLabel b label | testBanWithLabel b label => rw [hcase] at hclass; cases hclass rfl
    | htmlText lt w h fs fw t =>
      simp only [state, setState, setLineColor, hcase, ElementBody.adjust, ElementBody.updateSize,
        ElementBody.setText, Normal, mk.injEq, ElementBody.htmlText.injEq, true_and, and_true]
      exact k.textSize_recode_iff a.text a.fontSize a.width a.height
    | _ =>
      simp [state, setState, setLineColor, setLineWidth, setLineStyle, hcase, ElementBody.adjust,
        ElementBody.isBan, ElementBody.updateSize, ElementBody.setText, Normal]

/-- Putting the state of a `BanElement` on later members of it. -/
lemma updateSize_adjust_iff (k : ElementToolkit) (b : BanMembers) (a : Adjustable) :
    (b.adjust a).updateSize k.toDoubleArithmetic b.leftTop b.zoomWidth b.zoomHeight = b ↔
      b.Normal k ∧ (b.zoomWidth = -1 → a.width = -1) ∧ (b.zoomHeight = -1 → a.height = -1) := by
  rw [← resized_eq_iff, ← resized_eq_iff]
  obtain ⟨lt, ltInSc, w, h, xZoom, yZoom, zoomWidth, zoomHeight, data⟩ := b
  simp only [BanMembers.updateSize, BanMembers.adjust, BanMembers.Normal, BanMembers.mk.injEq,
    true_and, and_true]
  constructor
  · rintro ⟨hx, hy, hw, hh⟩
    rw [hw] at hx
    rw [hh] at hy
    exact ⟨⟨hx.symm, hy.symm⟩, hw, hh⟩
  · rintro ⟨⟨hx, hy⟩, hw, hh⟩
    rw [hw, hh]
    exact ⟨hx.symm, hy.symm, rfl, rfl⟩

/-- The state of an element leaves the class of what the element has become. -/
lemma getType_setState_state (k : ElementToolkit) {e e' : Element} (h : e.Follows e') :
    (e'.setState k (e.state k)).getType = e.getType := by
  have hbody := h.body
  generalize e'.body.adjustable = a at hbody
  unfold getType
  cases hcase : e.body <;>
    simp [state, setState, setLineColor, setLineWidth, setLineStyle, hcase, hbody,
      ElementBody.adjust, ElementBody.isBan, ElementBody.updateSize, ElementBody.setText,
      ElementBody.getType]

/-- What the init state of an element gives back after changes. -/
lemma toObj_setState_state_iff (k : ElementToolkit) {e e' : Element} (h : e.Follows e') :
    (e'.setState k (e.state k)).toObj = e.toObj ↔
      e.Normal k ∧ e.Sized e' ∧ e.RestKept e' := by
  have hbody := h.body
  have hmatrix := h.matrix
  have hUuid := h.objUuid
  generalize e'.body.adjustable = a at hbody
  rw [toObj_eq_iff (getType_setState_state k h)]
  cases hcase : e.body with
  | text lt w h fs fw t =>
    simp [recorded, new, state, setState, setLineColor, hcase, hbody, hUuid, ElementBody.adjust,
      ElementBody.isBan, ElementBody.isPath, ElementBody.isImage, ElementBody.packsColor,
      ElementBody.updateSize, ElementBody.setText, Normal, Sized, RestKept, ElementBody.size,
      and_comm]
  | htmlText lt w h fs fw t =>
    simp [recorded, new, state, setState, setLineColor, hcase, hbody, hUuid, ElementBody.adjust,
      ElementBody.isBan, ElementBody.isPath, ElementBody.isImage, ElementBody.packsColor,
      ElementBody.updateSize, ElementBody.setText, Normal, Sized, RestKept, ← k.textSize_recode_iff]
    tauto
  | image lt w h i | compressedImage lt w h i =>
    simp [recorded, new, state, setState, hcase, hbody, hUuid, ElementBody.adjust,
      ElementBody.isPath, ElementBody.isImage, ElementBody.packsColor, ElementBody.updateSize,
      Normal, Sized, RestKept, ElementBody.size, resized_eq_iff]
  | ban b | testBan b =>
    simp [recorded, new, state, setState, hcase, hbody, hUuid, ElementBody.adjust,
      ElementBody.isPath, ElementBody.isBan, ElementBody.packsColor, ElementBody.updateSize,
      Normal, Sized, RestKept, ElementBody.size, updateSize_adjust_iff]
  | banWithLabel b label | testBanWithLabel b label =>
    simp [recorded, new, state, setState, hcase, hbody, hUuid, ElementBody.adjust,
      ElementBody.isPath, ElementBody.isBan, ElementBody.packsColor, ElementBody.updateSize,
      Normal, Sized, RestKept, ElementBody.size, updateSize_adjust_iff]
    tauto
  | _ =>
    have hm : e'.matrix = e.matrix := hmatrix (by rw [hcase]; rfl)
    simp [recorded, new, state, setState, setLineColor, setLineWidth, setLineStyle, hcase, hbody,
      hUuid, hm, ElementBody.adjust, ElementBody.isBan, ElementBody.isPath, ElementBody.isImage,
      ElementBody.packsColor, Normal, Sized, RestKept]

end Element

end Liangshi

import Liangshi.Transition.System
import Liangshi.Wire.BigEndian
import Mathlib.Data.List.Basic
import Mathlib.Data.List.Nodup
import Mathlib.Tactic.SplitIfs

/-!
# Dialogs shared by documents

The page chooser `KePages`, the material browser `BanBrowserDialog` and the dialog `AddCorrectDialog`
for the answers of tests exist once in a process.  A recorder or a live board connects the chooser to
itself when it is made, and its title bar the browser; a board with drawing tools connects the browser, and the
title bar of a test the answer dialog, once more at every opening.  No connection is ever undone.

An accepted choice runs every slot that is connected.  So it changes the document that opened the
dialog, and only that, exactly when no other one is connected, and for the answers when the dialog
has been opened only once (`dialogs_answer_iff`).
-/

namespace Liangshi

open Wire Transition

/-! ## Documents -/

/-- The documents that use the dialogs: `KeWidget`, `LiveWidget`, `BanBaseWidget`, `TestBaseWidget`. -/
inductive DocumentKind where
  | recorder
  | live
  | board
  | test
deriving DecidableEq

namespace DocumentKind

/-- Whether the document is connected to the page chooser. -/
def choosesPages : DocumentKind → Bool
  | recorder | live => true
  | board | test => false

/-- Whether the title bar of the document passes on what is chosen in the browser. -/
def insertsBoards : DocumentKind → Bool
  | recorder | live | board => true
  | test => false

end DocumentKind

/-- A document, as far as the dialogs change it.  A page is given by the files of the boards that
have been inserted. -/
structure OpenDocument where
  kind : DocumentKind
  allPages : List (List Bytes)
  currentPageIndex : Nat
  answerLabels : List Bytes
  correctLabels : List Bytes
deriving DecidableEq

/-- What is accepted in a dialog. -/
inductive Choice where
  | page (number : Nat)
  | file (path : Bytes)
  | correct (labels : List Bytes)

/-- The slot of a document for a choice: `OnSelectPageTriggered`, `OnInsertBanTriggered` of the
current page and `OnGetCorrectTriggered`; `none` where the list of pages is indexed outside its range. -/
def OpenDocument.slot (d : OpenDocument) : Choice → Option OpenDocument
  | .page number =>
    if number < d.allPages.length then some { d with currentPageIndex := number } else none
  | .file path => some { d with allPages := d.allPages.modify d.currentPageIndex (· ++ [path]) }
  | .correct labels => some { d with correctLabels := labels }

/-! ## The process -/

/-- A dialog that is shown, with the document that opened it and what it lists. -/
inductive ShownDialog where
  | pages (opener : Nat) (items : Nat)
  | browser (opener : Nat)
  | correct (opener : Nat) (items : List Bytes)

/-- The document that opened a dialog. -/
def ShownDialog.opener : ShownDialog → Nat
  | pages opener _ | browser opener | correct opener _ => opener

/-- The documents of a process, the documents whose slots are connected to the dialogs, the dialog
that is shown, whether a list of pages has been indexed outside its range, and the documents whose slots
have run for the last choice. -/
structure DialogProcess where
  docs : List OpenDocument
  pagesSlots : List Nat
  browserSlots : List Nat
  correctSlots : List Nat
  shown : Option ShownDialog
  outOfRange : Bool
  changed : List Nat

/-- What happens: a document is made, one of the dialogs is opened by a document, a choice is
accepted, or the dialog is closed without one. -/
inductive DialogEvent where
  | create (d : OpenDocument)
  | openPages (i : Nat)
  | openBrowser (i : Nat)
  | openCorrect (i : Nat)
  | accept (choice : Choice)
  | cancel

namespace DialogProcess

/-- No documents. -/
def empty : DialogProcess := ⟨[], [], [], [], none, false, []⟩

/-- The constructor of a document and of its title bar. -/
def create (s : DialogProcess) (d : OpenDocument) : DialogProcess :=
  let i := s.docs.length
  { s with
    docs := s.docs ++ [d]
    pagesSlots := if d.kind.choosesPages then s.pagesSlots ++ [i] else s.pagesSlots
    browserSlots := if d.kind.insertsBoards then s.browserSlots ++ [i] else s.browserSlots }

/-- The slot of one document is run, on the documents and those that have been changed so far. -/
def runSlot (choice : Choice) (s : List OpenDocument × List Nat) (i : Nat) :
    Option (List OpenDocument × List Nat) :=
  (s.1[i]?.bind (·.slot choice)).map fun d => (s.1.set i d, s.2 ++ [i])

/-- A signal runs the slots in the order in which they were connected. -/
def emit (s : DialogProcess) (slots : List Nat) (choice : Choice) : DialogProcess :=
  match slots.foldlM (runSlot choice) (s.docs, []) with
  | some (docs, changed) => { s with docs, shown := none, changed }
  | none => { s with outOfRange := true, shown := none }

/-- The slots that are connected to a dialog. -/
def slots (s : DialogProcess) : ShownDialog → List Nat
  | .pages _ _ => s.pagesSlots
  | .browser _ => s.browserSlots
  | .correct _ _ => s.correctSlots

/-- A choice that can be made in a dialog: an item of the list, any file, some of the labels. -/
def offers : ShownDialog → Choice → Bool
  | .pages _ items, .page number => number < items
  | .browser _, .file _ => true
  | .correct _ items, .correct labels => labels.all items.contains
  | _, _ => false

/-- A dialog is opened; it is modal, so that no other one is open. -/
def openDialog (s : DialogProcess) (dialog : ShownDialog) : Option DialogProcess :=
  if s.shown.isNone then some { s with shown := some dialog } else none

/-- One step. -/
def next (s : DialogProcess) (e : DialogEvent) : Option DialogProcess :=
  if s.outOfRange then none
  else match e with
    | .create d => some (s.create d)
    | .openPages i =>
      match s.docs[i]? with
      | some d => if d.kind.choosesPages then s.openDialog (.pages i d.allPages.length) else none
      | none => none
    | .openBrowser i =>
      match s.docs[i]? with
      | some d => if d.kind.insertsBoards then s.openDialog (.browser i) else none
      | none => none
    | .openCorrect i =>
      match s.docs[i]? with
      | some d =>
        if d.kind = .test then
          { s with correctSlots := s.correctSlots ++ [i] }.openDialog (.correct i d.answerLabels)
        else none
      | none => none
    | .accept choice =>
      match s.shown with
      | some dialog =>
        if offers dialog choice then some (s.emit (s.slots dialog) choice) else none
      | none => none
    | .cancel => if s.shown.isSome then some { s with shown := none } else none

/-- The runs of a process. -/
def system : System DialogProcess DialogEvent where
  init s := s = empty
  step s e t := s.next e = some t

/-! ## Answering the opener -/

/-- A choice changes the document that opened the dialog, once, and no other one, and no list of
pages is indexed outside its range. -/
structure Answered (choice : Choice) (opener : Nat) (s t : DialogProcess) : Prop where
  inRange : t.outOfRange = false
  changed : t.changed = [opener]
  docs : ∃ d d', s.docs[opener]? = some d ∧ d.slot choice = some d' ∧ t.docs = s.docs.set opener d'

/-- A step that accepts a choice answers the opener of the dialog. -/
def Answers (s : DialogProcess) (e : DialogEvent) : Prop :=
  ∀ choice dialog t, e = .accept choice → s.shown = some dialog → s.next e = some t →
    Answered choice dialog.opener s t

/-- The document that opened a dialog is the only one of its sort, or is the first one that has opened
the dialog for the answers, and has done so once. -/
def OpenerAlone (s : DialogProcess) : ShownDialog → Prop
  | .pages opener _ => ∀ i d, s.docs[i]? = some d → d.kind.choosesPages → i = opener
  | .browser opener => ∀ i d, s.docs[i]? = some d → d.kind.insertsBoards → i = opener
  | .correct _ _ => s.correctSlots.length = 1

/-- Where a choice is accepted, the document that opened the dialog is alone. -/
def Alone (s : DialogProcess) (e : DialogEvent) : Prop :=
  ∀ choice dialog, e = .accept choice → s.shown = some dialog → s.OpenerAlone dialog

/-! ## What slots keep -/

/-- What the slots of a document leave as it is. -/
def face (d : OpenDocument) : DocumentKind × Nat := (d.kind, d.allPages.length)

/-- Whether a document is of some kinds. -/
def isOfKind (docs : List OpenDocument) (kinds : DocumentKind → Bool) (i : Nat) : Prop :=
  ∃ d, docs[i]? = some d ∧ kinds d.kind

variable {s t : DialogProcess} {docs docs' : List OpenDocument} {choice : Choice}

/-- A slot leaves the kind of a document and the number of its pages. -/
lemma face_slot {d d' : OpenDocument} (h : d.slot choice = some d') : face d' = face d := by
  cases choice with
  | page number =>
    obtain ⟨-, heq⟩ := Option.ite_none_right_eq_some.mp h
    obtain rfl := Option.some.inj heq
    rfl
  | file path =>
    obtain rfl := Option.some.inj h
    simp [face]
  | correct labels =>
    obtain rfl := Option.some.inj h
    rfl

/-- A signal changes no kind and no number of pages, and runs its slots in order. -/
lemma foldlM_runSlot {slots log log' : List Nat}
    (h : slots.foldlM (runSlot choice) (docs, log) = some (docs', log')) :
    docs'.map face = docs.map face ∧ log' = log ++ slots := by
  induction slots generalizing docs log with
  | nil =>
    obtain ⟨rfl, rfl⟩ := Prod.mk.inj (Option.some.inj h)
    exact ⟨rfl, (List.append_nil _).symm⟩
  | cons i slots ih =>
    rw [List.foldlM_cons, Option.bind_eq_bind, Option.bind_eq_some_iff] at h
    obtain ⟨mid, hrun, hothers⟩ := h
    obtain ⟨d', hd', rfl⟩ := Option.map_eq_some_iff.mp hrun
    obtain ⟨d, hd, hslot⟩ := Option.bind_eq_some_iff.mp hd'
    obtain ⟨hface, hlog⟩ := ih hothers
    refine ⟨?_, by rw [hlog, List.append_assoc, List.singleton_append]⟩
    obtain ⟨hi, rfl⟩ := List.getElem?_eq_some_iff.mp hd
    rw [hface, List.map_set, face_slot hslot, ← List.getElem_map (f := face) (h := by simpa using hi),
      List.set_getElem_self]

/-- Documents with the same faces are of the same kinds. -/
lemma isOfKind_congr (h : docs'.map face = docs.map face) (kinds : DocumentKind → Bool) (i : Nat) :
    isOfKind docs' kinds i ↔ isOfKind docs kinds i := by
  have hface : docs'[i]?.map face = docs[i]?.map face := by
    rw [← List.getElem?_map, ← List.getElem?_map, h]
  unfold isOfKind
  cases hd : docs[i]? with
  | none =>
    rw [hd, Option.map_none, Option.map_eq_none_iff] at hface
    simp [hface]
  | some d =>
    rw [hd, Option.map_some, Option.map_eq_some_iff] at hface
    obtain ⟨d', hd', heq⟩ := hface
    simp [hd', (Prod.mk.inj heq).1]

/-! ## Connections -/

/-- A dialog that has been opened by a document that may do so. -/
def Opened (s : DialogProcess) : ShownDialog → Prop
  | .pages opener items =>
    isOfKind s.docs DocumentKind.choosesPages opener ∧
      (s.docs.map face)[opener]?.map Prod.snd = some items
  | .browser opener => isOfKind s.docs DocumentKind.insertsBoards opener
  | .correct opener _ => opener ∈ s.correctSlots ∧ opener < s.docs.length

/-- The connections of a process: each of the documents of some kinds once to the chooser and to the
browser, and to the answer dialog whoever has opened it. -/
structure Connected (s : DialogProcess) : Prop where
  pagesNodup : s.pagesSlots.Nodup
  pages : ∀ i, i ∈ s.pagesSlots ↔ isOfKind s.docs DocumentKind.choosesPages i
  browserNodup : s.browserSlots.Nodup
  browser : ∀ i, i ∈ s.browserSlots ↔ isOfKind s.docs DocumentKind.insertsBoards i
  shown : ∀ dialog, s.shown = some dialog → s.Opened dialog

/-- Without dialogs everything is connected. -/
lemma connected_empty : empty.Connected where
  pagesNodup := List.nodup_nil
  pages i := by simp [empty, isOfKind]
  browserNodup := List.nodup_nil
  browser i := by simp [empty, isOfKind]
  shown dialog h := by cases h

/-- Slots that a new document may be added to. -/
lemma connected_slots {slots : List Nat} {kinds : DocumentKind → Bool} (hnodup : slots.Nodup)
    (hslots : ∀ i, i ∈ slots ↔ isOfKind docs kinds i) (d : OpenDocument) :
    (if kinds d.kind then slots ++ [docs.length] else slots).Nodup ∧
      ∀ i, i ∈ (if kinds d.kind then slots ++ [docs.length] else slots) ↔
        isOfKind (docs ++ [d]) kinds i := by
  have hlt : ∀ i ∈ slots, i < docs.length := by
    intro i hi
    obtain ⟨e, he, -⟩ := (hslots i).mp hi
    exact (List.getElem?_eq_some_iff.mp he).1
  have hkinds : ∀ i, isOfKind (docs ++ [d]) kinds i ↔
      isOfKind docs kinds i ∨ (i = docs.length ∧ kinds d.kind) := by
    intro i
    unfold isOfKind
    rcases Nat.lt_trichotomy i docs.length with hi | rfl | hi
    · rw [List.getElem?_append_left hi]
      simp [hi.ne]
    · rw [List.getElem?_concat_length]
      simp
    · rw [List.getElem?_eq_none (by simp; omega), List.getElem?_eq_none hi.le]
      simp [hi.ne']
  split_ifs with hkind
  · refine ⟨List.nodup_append.mpr ⟨hnodup, List.nodup_singleton _, fun i hi j hj => ?_⟩, fun i => ?_⟩
    · obtain rfl := List.mem_singleton.mp hj
      exact (hlt i hi).ne
    · rw [List.mem_append, List.mem_singleton, hkinds, hslots]
      simp [hkind]
  · refine ⟨hnodup, fun i => ?_⟩
    rw [hkinds, hslots]
    simp [hkind]

/-- What a dialog was opened with stays when documents keep their faces or others come. -/
lemma Opened.mono {dialog : ShownDialog} (h : s.Opened dialog)
    (hdocs : s.docs.map face <+: t.docs.map face) (hcorrect : s.correctSlots = t.correctSlots) :
    t.Opened dialog := by
  have hlength : s.docs.length ≤ t.docs.length := by simpa using hdocs.length_le
  have hface : ∀ i, i < s.docs.length → (t.docs.map face)[i]? = (s.docs.map face)[i]? := by
    intro i hi
    obtain ⟨others, hothers⟩ := hdocs
    rw [← hothers, List.getElem?_append_left (by simpa using hi)]
  have hkind : ∀ kinds i, isOfKind s.docs kinds i → isOfKind t.docs kinds i := by
    rintro kinds i ⟨d, hd, hkinds⟩
    have hi := (List.getElem?_eq_some_iff.mp hd).1
    have hmap := hface i hi
    rw [List.getElem?_map, List.getElem?_map, hd, Option.map_some, Option.map_eq_some_iff] at hmap
    obtain ⟨d', hd', heq⟩ := hmap
    exact ⟨d', hd', (Prod.mk.inj heq).1 ▸ hkinds⟩
  cases dialog with
  | pages opener items =>
    obtain ⟨d, hd, -⟩ := h.1
    refine ⟨hkind _ _ h.1, ?_⟩
    rw [hface opener (List.getElem?_eq_some_iff.mp hd).1]
    exact h.2
  | browser opener => exact hkind _ _ h
  | correct opener items => exact ⟨hcorrect ▸ h.1, h.2.trans_le hlength⟩

/-- A process that opens a dialog. -/
lemma connected_openDialog {dialog : ShownDialog} (h : s.Connected)
    (hopened : s.Opened dialog) (hopen : s.openDialog dialog = some t) : t.Connected := by
  obtain ⟨-, heq⟩ := Option.ite_none_right_eq_some.mp hopen
  obtain rfl := Option.some.inj heq
  refine { h with shown := fun dialog' hshown => ?_ }
  obtain rfl := Option.some.inj hshown
  cases dialog <;> exact hopened

/-- A process whose dialog is closed, and whose documents have been changed by slots. -/
lemma connected_closed {changed : List Nat} {outOfRange : Bool} (h : s.Connected)
    (hdocs : docs.map face = s.docs.map face) :
    ({ s with docs, outOfRange, shown := none, changed } : DialogProcess).Connected where
  pagesNodup := h.pagesNodup
  pages i := (h.pages i).trans (isOfKind_congr hdocs _ i).symm
  browserNodup := h.browserNodup
  browser i := (h.browser i).trans (isOfKind_congr hdocs _ i).symm
  shown dialog hshown := by cases hshown

/-- Every step keeps the connections. -/
lemma connected_next {e : DialogEvent} (h : s.Connected) (hstep : s.next e = some t) :
    t.Connected := by
  unfold next at hstep
  by_cases hfault : s.outOfRange = true
  · rw [if_pos hfault] at hstep
    cases hstep
  rw [if_neg hfault] at hstep
  cases e with
  | create d =>
    obtain rfl := Option.some.inj hstep
    obtain ⟨hpagesNodup, hpages⟩ := connected_slots h.pagesNodup h.pages d
    obtain ⟨hbrowserNodup, hbrowser⟩ := connected_slots h.browserNodup h.browser d
    exact ⟨hpagesNodup, hpages, hbrowserNodup, hbrowser, fun dialog hshown =>
      (h.shown dialog hshown).mono (by simp [create]) rfl⟩
  | openPages i =>
    dsimp only at hstep
    split at hstep
    · rename_i d hd
      obtain ⟨hkind, hopen⟩ := Option.ite_none_right_eq_some.mp hstep
      have hopened : s.Opened (.pages i d.allPages.length) :=
        ⟨⟨d, hd, hkind⟩, by simp [hd, face]⟩
      exact connected_openDialog h hopened hopen
    · cases hstep
  | openBrowser i =>
    dsimp only at hstep
    split at hstep
    · rename_i d hd
      obtain ⟨hkind, hopen⟩ := Option.ite_none_right_eq_some.mp hstep
      have hopened : s.Opened (.browser i) := ⟨d, hd, hkind⟩
      exact connected_openDialog h hopened hopen
    · cases hstep
  | openCorrect i =>
    dsimp only at hstep
    split at hstep
    · rename_i d hd
      obtain ⟨-, hopen⟩ := Option.ite_none_right_eq_some.mp hstep
      obtain ⟨hnone, -⟩ := Option.ite_none_right_eq_some.mp hopen
      let connected : DialogProcess := { s with correctSlots := s.correctSlots ++ [i] }
      have hconnected : connected.Connected :=
        ⟨h.pagesNodup, h.pages, h.browserNodup, h.browser, fun dialog hshown => by
          rw [Option.isNone_iff_eq_none.mp hnone] at hshown
          cases hshown⟩
      have hopened : connected.Opened (.correct i d.answerLabels) :=
        ⟨by simp [connected], (List.getElem?_eq_some_iff.mp hd).1⟩
      exact connected_openDialog hconnected hopened hopen
    · cases hstep
  | accept choice =>
    dsimp only at hstep
    split at hstep
    · obtain ⟨-, heq⟩ := Option.ite_none_right_eq_some.mp hstep
      obtain rfl := Option.some.inj heq
      unfold emit
      split
      · rename_i hrun
        exact connected_closed h (foldlM_runSlot hrun).1
      · exact connected_closed h rfl
    · cases hstep
  | cancel =>
    obtain ⟨-, heq⟩ := Option.ite_none_right_eq_some.mp hstep
    obtain rfl := Option.some.inj heq
    exact connected_closed h rfl

/-! ## The opener -/

/-- A list without duplicates that has an item is that item when it has no other one. -/
lemma eq_singleton_iff {l : List Nat} {i : Nat} (hnodup : l.Nodup) (hi : i ∈ l) :
    l = [i] ↔ ∀ j ∈ l, j = i := by
  constructor
  · rintro rfl j hj
    exact List.mem_singleton.mp hj
  · intro h
    exact List.perm_singleton.mp
      ((List.perm_ext_iff_of_nodup hnodup (List.nodup_singleton i)).mpr fun j =>
        ⟨fun hj => List.mem_singleton.mpr (h j hj), fun hj => List.mem_singleton.mp hj ▸ hi⟩)

/-- The slot of the document that opened a dialog takes what the dialog offers. -/
lemma exists_slot {dialog : ShownDialog} (h : s.Opened dialog) (hoffers : offers dialog choice) :
    ∃ d d', s.docs[dialog.opener]? = some d ∧ d.slot choice = some d' := by
  cases dialog with
  | pages opener items =>
    obtain ⟨⟨d, hd, -⟩, hitems⟩ := h
    cases choice with
    | page number =>
      have hlength : d.allPages.length = items := by simpa [hd, face] using hitems
      have hlt : number < items := by simpa [offers] using hoffers
      exact ⟨d, _, hd, if_pos (hlength ▸ hlt)⟩
    | file path => cases hoffers
    | correct labels => cases hoffers
  | browser opener =>
    obtain ⟨d, hd, -⟩ := h
    cases choice with
    | page number => cases hoffers
    | file path => exact ⟨d, _, hd, rfl⟩
    | correct labels => cases hoffers
  | correct opener items =>
    cases choice with
    | page number => cases hoffers
    | file path => cases hoffers
    | correct labels => exact ⟨_, _, List.getElem?_eq_getElem h.2, rfl⟩

/-- A choice answers the opener exactly when the slot of the opener is the only one that is
connected, once. -/
lemma answered_emit_iff {dialog : ShownDialog} (h : s.Opened dialog) (hoffers : offers dialog choice)
    (hrange : s.outOfRange = false) :
    Answered choice dialog.opener s (s.emit (s.slots dialog) choice) ↔
      s.slots dialog = [dialog.opener] := by
  obtain ⟨d, d', hd, hslot⟩ := exists_slot h hoffers
  constructor
  · rintro ⟨hinRange, hchanged, -⟩
    unfold emit at hinRange hchanged
    split at hinRange
    · rename_i docs changed hrun
      simp only [hrun] at hchanged
      rw [← hchanged, (foldlM_runSlot hrun).2, List.nil_append]
    · cases hinRange
  · intro hslots
    have hrun : [dialog.opener].foldlM (runSlot choice) (s.docs, []) =
        some (s.docs.set dialog.opener d', [dialog.opener]) := by
      simp [runSlot, hd, hslot]
    rw [hslots, emit, hrun]
    exact ⟨hrange, rfl, d, d', hd, hslot, rfl⟩

/-- The slot of the opener is the only one exactly when the opener is alone. -/
lemma slots_eq_iff {dialog : ShownDialog} (h : s.Connected) (hshown : s.shown = some dialog) :
    s.slots dialog = [dialog.opener] ↔ s.OpenerAlone dialog := by
  have hopened := h.shown dialog hshown
  cases dialog with
  | pages opener items =>
    refine (eq_singleton_iff h.pagesNodup ((h.pages opener).mpr hopened.1)).trans ?_
    simp only [h.pages, isOfKind]
    exact ⟨fun hall i d hd hkind => hall i ⟨d, hd, hkind⟩, fun hall i ⟨d, hd, hkind⟩ =>
      hall i d hd hkind⟩
  | browser opener =>
    refine (eq_singleton_iff h.browserNodup ((h.browser opener).mpr hopened)).trans ?_
    simp only [h.browser, isOfKind]
    exact ⟨fun hall i d hd hkind => hall i ⟨d, hd, hkind⟩, fun hall i ⟨d, hd, hkind⟩ =>
      hall i d hd hkind⟩
  | correct opener items =>
    show s.correctSlots = [opener] ↔ s.correctSlots.length = 1
    constructor
    · intro hslots
      rw [hslots, List.length_singleton]
    · intro hlength
      obtain ⟨i, hslots⟩ := List.length_eq_one_iff.mp hlength
      have hmem : opener ∈ s.correctSlots := hopened.1
      rw [hslots] at hmem ⊢
      rw [List.mem_singleton.mp hmem]

/-- What it takes to accept a choice. -/
lemma of_next_accept {dialog : ShownDialog} (hshown : s.shown = some dialog)
    (hstep : s.next (.accept choice) = some t) : s.outOfRange = false ∧
      offers dialog choice = true ∧ t = s.emit (s.slots dialog) choice := by
  unfold next at hstep
  by_cases hfault : s.outOfRange = true
  · rw [if_pos hfault] at hstep
    cases hstep
  · rw [if_neg hfault] at hstep
    simp only [hshown] at hstep
    obtain ⟨hoffers, heq⟩ := Option.ite_none_right_eq_some.mp hstep
    exact ⟨Bool.not_eq_true _ ▸ hfault, hoffers, (Option.some.inj heq).symm⟩

/-- In a run of a process every accepted choice answers the document that opened the dialog exactly
when at every accepted choice the document is alone with the dialog. -/
theorem dialogs_answer_iff (es : List DialogEvent) :
    system.EveryStep Answers empty es ↔ system.EveryStep Alone empty es := by
  refine System.everyStep_congr_of_invariant connected_empty
    (fun s e t h hstep => connected_next h hstep) (fun s e t h hstep => ?_) es
  have hchoice : ∀ choice dialog, e = .accept choice → s.shown = some dialog →
      (Answered choice dialog.opener s t ↔ s.slots dialog = [dialog.opener]) := by
    rintro choice dialog rfl hshown
    obtain ⟨hrange, hoffers, rfl⟩ := of_next_accept hshown hstep
    exact answered_emit_iff (h.shown dialog hshown) hoffers hrange
  constructor
  · intro hanswers choice dialog he hshown
    have hanswered := hanswers choice dialog t he hshown hstep
    exact (slots_eq_iff h hshown).mp ((hchoice choice dialog he hshown).mp hanswered)
  · intro halone choice dialog t' he hshown hstep'
    obtain rfl := Option.some.inj (hstep.symm.trans hstep')
    exact (hchoice choice dialog he hshown).mpr
      ((slots_eq_iff h hshown).mpr (halone choice dialog he hshown))

/-- Two recorders, one with a single page and one with three. -/
def twoRecorders : List DialogEvent :=
  [.create ⟨.recorder, [[]], 0, [], []⟩, .create ⟨.recorder, [[], [], []], 0, [], []⟩, .openPages 1]

/-- The third page of the second recorder is chosen: the first one has no such page. -/
theorem not_dialogs_answer_twoRecorders :
    ¬ system.EveryStep Answers empty (twoRecorders ++ [.accept (.page 2)]) := by
  intro h
  have hrun : system.Run empty twoRecorders
      ⟨[⟨.recorder, [[]], 0, [], []⟩, ⟨.recorder, [[], [], []], 0, [], []⟩], [0, 1], [0, 1], [],
        some (.pages 1 3), false, []⟩ := .foldlM (fun _ _ _ hnext => hnext) rfl
  have hanswers := h twoRecorders (.accept (.page 2)) [] _ _ rfl hrun rfl
  have hanswered := hanswers (.page 2) (.pages 1 3) _ rfl rfl rfl
  exact absurd hanswered.inRange (by decide)

end DialogProcess

end Liangshi

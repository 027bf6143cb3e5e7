import Liangshi.Board.BanFile
import Liangshi.Board.PageLoading
import Liangshi.Transition.Outcome
import Mathlib.Data.List.Basic
import Mathlib.Tactic.SplitIfs

/-!
# The sections of a board file

What the two readers of a board file make of its sections.  A section is read with the type in force:
its own type, or the one of the sections before it where its own type is negative, since both
readers see only integers that are not negative.  With the type zero it is skipped.  Of the other
types that are not known `LoadScElements` makes an element all the same, as its test for the type of
tests is an assignment.

So both readers make of a file what its sections of known types hold, and only that, exactly when the
other sections are skipped (`readersAgree_iff`).
-/

namespace Liangshi

open Wire MessagePack Transition

namespace ScType

/-- The number of a type tells the type. -/
@[simp] lemma ofInt?_toInt (type : ScType) : ofInt? type.toInt = some type := by
  cases type <;> decide

/-- The value of a known type is the value of that type. -/
lemma toInt_of_ofInt? {n : Int32} {type : ScType} (h : ofInt? n = some type) : n = type.toInt := by
  unfold ofInt? at h
  split_ifs at h with hbasic hscript htest
  · exact Option.some.inj h ▸ hbasic
  · exact Option.some.inj h ▸ hscript
  · exact Option.some.inj h ▸ htest

/-- The value of a known type is positive. -/
lemma toInt_pos (type : ScType) : ¬ type.toInt < 0 ∧ type.toInt ≠ 0 := by cases type <;> decide

end ScType

namespace BanFile

variable {σ : Type} {env : FileSurroundings} {needTitle direct : Bool} {deps : Option Bytes}
  {tempFolder header filler bytes : Bytes} {version : Int32} {sections : List Entry}

/-! ## What the sections hold -/

/-- The sections of known types. -/
def knownSections (sections : List Entry) : List (ScType × Bytes) :=
  sections.filterMap fun s => (ScType.ofInt? s.1).map (·, s.2)

/-- The element of a section of a known type that comes after `n` others. -/
def sectionElement (env : FileSurroundings) (needTitle : Bool) (n : Nat) (s : ScType × Bytes) :
    Except LoadFault Element :=
  match s.1 with
  | .basic | .script => banElement env needTitle n s.2
  | .test => testBanElement env needTitle n s.2

/-- The elements of the sections of known types, one of each. -/
def sectionElements (env : FileSurroundings) (needTitle : Bool) (sections : List Entry) :
    Except LoadFault (List Element) :=
  (knownSections sections).zipIdx.mapM fun s => sectionElement env needTitle s.2 s.1

/-- The document of a section of a known type that comes after `n` others. -/
def sectionDocument (env : FileSurroundings) (deps : Option Bytes) (n : Nat) (s : ScType × Bytes) :
    Except LoadFault BanDocument :=
  (BanDocument.new (env.documentUuid n) deps s.1).setMsgPackData (env.page n) s.2

/-- The document of the last section of a known type. -/
def lastDocument (env : FileSurroundings) (deps : Option Bytes) (sections : List Entry) :
    Except LoadFault (Option BanDocument) :=
  match (knownSections sections).zipIdx.getLast? with
  | none => .ok none
  | some s => (sectionDocument env deps s.2 s.1).map some

/-- Every payload of a known type is data of a document of the type. -/
def PayloadsDecode (env : FileSurroundings) (sections : List Entry) : Prop :=
  ∀ s ∈ (knownSections sections).zipIdx, ∃ d, sectionDocument env none s.2 s.1 = .ok d

/-- The readers make of a file what the sections of known types hold. -/
def ReadersAgree (env : FileSurroundings) (needTitle direct : Bool) (tempFolder : Bytes)
    (sections : List Entry) (bytes : Bytes) : Prop :=
  (∃ elements, sectionElements env needTitle sections = .ok elements ∧
    loadScElements env needTitle bytes = .ok (true, elements)) ∧
  ∃ document,
    lastDocument env (if direct then some (tempFolder ++ scriptDeps) else none) sections =
      .ok document ∧
    loadScDocument env tempFolder direct bytes = .ok (document.map (·.updateDataFromMsgPack))

/-- The type in force after a section, given the one before it. -/
def typeAfter (type : Int32) (s : Entry) : Int32 := if s.1 < 0 then type else s.1

/-- The type in force after sections. -/
def typeInForce (sections : List Entry) : Int32 := sections.foldl typeAfter 0

/-- No section that is not of a known type has a type other than zero in force. -/
def UnknownSkipped (sections : List Entry) : Prop :=
  ∀ before s, before ++ [s] <+: sections → ScType.ofInt? s.1 = none →
    typeInForce (before ++ [s]) = 0

/-! ## Section by section -/

/-- A file that is short enough is unpacked to its objects. -/
lemma unpackAll_thisObjects
    (h : (packAll (thisObjects header version filler sections)).length < 2 ^ 32) :
    unpackAll (packAll (thisObjects header version filler sections)) =
      (thisObjects header version filler sections, .finished) := by
  have hshallow : AllShallow embedStackSize (thisObjects header version filler sections) :=
    ⟨trivial, shallow_ofInt (Int32.le_toInt version) (Int32.toInt_lt version), trivial,
      allShallow_objects sections⟩
  exact unpackAll_packAll (hshallow.packable h)

/-- What the loop does over a section. -/
def readSection (read : PayloadReader σ) (s : Int32 × σ) (entry : Entry) :
    Except LoadFault (Int32 × σ) :=
  if typeAfter s.1 entry = 0 then .ok (0, s.2) else read (typeAfter s.1 entry) s.2 entry.2

/-- An integer is read as a type when it is not negative. -/
lemma nextObject_type (read : PayloadReader σ) {s : ThisLoad σ} (hversion : s.getVersion = true)
    (entry : Entry) : nextObject read s (Codec.int32.toObj entry.1) =
      .ok { s with type := typeAfter s.type entry } := by
  by_cases hneg : entry.1 < 0
  · have hobj : Codec.int32.toObj entry.1 = .negInt entry.1.toInt :=
      if_neg (by simpa using Int32.lt_iff_toInt_lt.mp hneg)
    rw [hobj, typeAfter, if_pos hneg]
    rfl
  · have hnonneg : 0 ≤ entry.1.toInt := by
      simpa using fun h => hneg (Int32.lt_iff_toInt_lt.mpr h)
    have hobj : Codec.int32.toObj entry.1 = .posInt entry.1.toInt.toNat := if_pos hnonneg
    have hconvert := Codec.int32.convert_toObj entry.1
    rw [hobj] at hconvert ⊢
    simp only [nextObject, hconvert, hversion, if_true, typeAfter, if_neg hneg]

/-- A payload is read with the type in force, and skipped when it is zero. -/
lemma nextObject_payload (read : PayloadReader σ) (type : Int32) (loaded : σ) (payload : Bytes) :
    nextObject read ⟨true, true, true, type, loaded⟩ (.raw payload) =
      if type = 0 then .ok ⟨true, true, true, 0, loaded⟩
      else match read type loaded payload with
        | .error fault => .error (.fault fault)
        | .ok s => .ok ⟨true, true, true, s.1, s.2⟩ := by
  by_cases hzero : type = 0
  · simp [nextObject, hzero]
  · cases hread : read type loaded payload <;> simp [nextObject, hzero, hread]

/-- The loop over the objects of a section, behind the head of the file. -/
lemma foldlM_objects (read : PayloadReader σ) (type : Int32) (loaded : σ) (entry : Entry) :
    entry.objects.foldlM (nextObject read) ⟨true, true, true, type, loaded⟩ =
      match readSection read (type, loaded) entry with
      | .error fault => .error (.fault fault)
      | .ok s => .ok ⟨true, true, true, s.1, s.2⟩ := by
  rw [Entry.objects, List.foldlM_cons, nextObject_type read rfl]
  show List.foldlM _ _ _ = _
  rw [List.foldlM_cons, nextObject_payload]
  simp only [readSection]
  by_cases hzero : typeAfter type entry = 0
  · rw [if_pos hzero, if_pos hzero]
    rfl
  · rw [if_neg hzero, if_neg hzero]
    cases read (typeAfter type entry) loaded entry.2 <;> rfl

/-- The loop over the objects of sections, behind the head of the file. -/
lemma foldlM_flatMap_objects (read : PayloadReader σ) (type : Int32) (loaded : σ)
    (sections : List Entry) :
    (sections.flatMap Entry.objects).foldlM (nextObject read) ⟨true, true, true, type, loaded⟩ =
      match sections.foldlM (readSection read) (type, loaded) with
      | .error fault => .error (.fault fault)
      | .ok s => .ok ⟨true, true, true, s.1, s.2⟩ := by
  induction sections generalizing type loaded with
  | nil => rfl
  | cons entry sections ih =>
    rw [List.flatMap_cons, List.foldlM_append, foldlM_objects, List.foldlM_cons]
    cases readSection read (type, loaded) entry with
    | error fault => rfl
    | ok s => exact ih s.1 s.2

/-- A file with an accepted version is read section by section. -/
lemma readThis_eq (read : PayloadReader σ) (loaded : σ)
    (hbytes : unpackAll bytes = (thisObjects header version filler sections, .finished))
    (hversion : 0 ≤ version ∧ version ≤ keFileMinVersion) :
    readThis read loaded bytes =
      match sections.foldlM (readSection read) (0, loaded) with
      | .error fault => .error (.fault fault)
      | .ok s => .ok ⟨true, true, true, s.1, s.2⟩ := by
  have hnonneg : 0 ≤ version.toInt := by simpa using Int32.le_iff_toInt_le.mp hversion.1
  have hobj : Codec.int32.toObj version = .posInt version.toInt.toNat := if_pos hnonneg
  have hconvert := Codec.int32.convert_toObj version
  rw [hobj] at hconvert
  have hhead : (thisObjects header version filler sections).foldlM (nextObject read)
      ⟨false, false, false, 0, loaded⟩ =
      (sections.flatMap Entry.objects).foldlM (nextObject read) ⟨true, true, true, 0, loaded⟩ := by
    rw [thisObjects, hobj, List.foldlM_cons]
    show List.foldlM _ _ _ = _
    rw [List.foldlM_cons]
    simp only [nextObject, hconvert]
    rw [if_neg (by simp), if_neg (Int32.not_lt.mpr hversion.2)]
    rfl
  rw [readThis, hbytes, hhead, foldlM_flatMap_objects]
  cases sections.foldlM (readSection read) (0, loaded) with
  | error fault => rfl
  | ok s => exact if_neg (by simp)

/-! ## Sections that are skipped -/

/-- `UnknownSkipped` with a type in force before the sections. -/
def SkippedFrom (type : Int32) : List Entry → Prop
  | [] => True
  | s :: sections =>
    (ScType.ofInt? s.1 = none → typeAfter type s = 0) ∧ SkippedFrom (typeAfter type s) sections

/-- Sections are skipped from a type on when none of an unknown type comes to a type that is not zero. -/
lemma skippedFrom_iff (type : Int32) (sections : List Entry) :
    SkippedFrom type sections ↔ ∀ before s, before ++ [s] <+: sections →
      ScType.ofInt? s.1 = none → (before ++ [s]).foldl typeAfter type = 0 := by
  induction sections generalizing type with
  | nil => simp [SkippedFrom]
  | cons entry sections ih =>
    rw [SkippedFrom, ih]
    constructor
    · rintro ⟨hhead, htail⟩ before s hbefore hunknown
      cases before with
      | nil =>
        obtain rfl : s = entry := by simpa using hbefore
        exact hhead hunknown
      | cons b before =>
        rw [List.cons_append, List.cons_prefix_cons] at hbefore
        obtain ⟨rfl, hbefore⟩ := hbefore
        exact htail before s hbefore hunknown
    · intro h
      exact ⟨h [] entry (by simp), fun before s hbefore => h (entry :: before) s (by simpa)⟩

/-- A section of a known type is read with that type. -/
lemma typeAfter_known {entry : Entry} {kind : ScType} (h : ScType.ofInt? entry.1 = some kind)
    (type : Int32) : typeAfter type entry = kind.toInt := by
  have hkind := ScType.toInt_of_ofInt? h
  rw [typeAfter, hkind, if_neg kind.toInt_pos.1]

/-- What a section of a known type is read as. -/
lemma readSection_known (read : PayloadReader σ) {entry : Entry} {kind : ScType}
    (h : ScType.ofInt? entry.1 = some kind) (s : Int32 × σ) :
    readSection read s entry = read kind.toInt s.2 entry.2 := by
  rw [readSection, typeAfter_known h, if_neg kind.toInt_pos.2]

/-- A section that is skipped. -/
lemma readSection_zero (read : PayloadReader σ) {entry : Entry} {s : Int32 × σ}
    (h : typeAfter s.1 entry = 0) : readSection read s entry = .ok (0, s.2) := if_pos h

/-- A section of a known type is one more. -/
lemma knownSections_cons_known {entry : Entry} {kind : ScType}
    (h : ScType.ofInt? entry.1 = some kind) (sections : List Entry) :
    knownSections (entry :: sections) = (kind, entry.2) :: knownSections sections := by
  simp [knownSections, h]

/-- A section of an unknown type is left out. -/
lemma knownSections_cons_unknown {entry : Entry} (h : ScType.ofInt? entry.1 = none)
    (sections : List Entry) : knownSections (entry :: sections) = knownSections sections := by
  simp [knownSections, h]

/-! ## Elements -/

/-- A payload of a known type is read as the element of its section. -/
lemma readElement_known (kind : ScType) (elements : List Element) (payload : Bytes) :
    readElement env needTitle kind.toInt elements payload =
      (sectionElement env needTitle elements.length (kind, payload)).map fun e =>
        (kind.toInt, elements ++ [e]) := by
  cases kind <;> rfl

/-- Every payload that is read as an element becomes one more. -/
lemma length_of_readElement {type : Int32} {elements : List Element} {payload : Bytes}
    {s : Int32 × List Element} (h : readElement env needTitle type elements payload = .ok s) :
    s.2.length = elements.length + 1 := by
  unfold readElement at h
  split_ifs at h
  all_goals
    obtain ⟨e, -, rfl⟩ := map_eq_ok.mp h
    simp

/-- When the other sections are skipped, the elements are those of the sections of known types. -/
lemma foldlM_readElement {type : Int32} (h : SkippedFrom type sections) (elements : List Element) :
    sections.foldlM (readSection (readElement env needTitle)) (type, elements) =
      (((knownSections sections).zipIdx elements.length).mapM fun s =>
        sectionElement env needTitle s.2 s.1).map fun others =>
          (sections.foldl typeAfter type, elements ++ others) := by
  induction sections generalizing type elements with
  | nil =>
    show Except.ok (type, elements) = Except.ok (type, elements ++ [])
    rw [List.append_nil]
  | cons entry sections ih =>
    obtain ⟨hhead, htail⟩ := h
    rw [List.foldlM_cons, List.foldl_cons]
    cases hkind : ScType.ofInt? entry.1 with
    | none =>
      have hzero := hhead hkind
      rw [readSection_zero _ hzero, knownSections_cons_unknown hkind, hzero]
      rw [hzero] at htail
      exact ih htail elements
    | some kind =>
      rw [typeAfter_known hkind] at htail
      rw [readSection_known _ hkind, readElement_known, knownSections_cons_known hkind,
        List.zipIdx_cons, List.mapM_cons, typeAfter_known hkind]
      cases sectionElement env needTitle elements.length (kind, entry.2) with
      | error fault => rfl
      | ok e =>
        refine (ih htail (elements ++ [e])).trans ?_
        rw [List.length_append, List.length_singleton]
        show Except.map _ (List.mapM _ _) = Except.map _ (do
          let others ← List.mapM _ _
          pure (e :: others))
        cases ((knownSections sections).zipIdx (elements.length + 1)).mapM fun s =>
          sectionElement env needTitle s.2 s.1 with
        | error fault => rfl
        | ok others =>
          show Except.ok (_, elements ++ [e] ++ others) = Except.ok (_, elements ++ e :: others)
          rw [List.append_assoc, List.singleton_append]

/-- There is an element for every section of a known type, and more when another one is not
skipped. -/
lemma length_of_foldlM {type : Int32} {elements : List Element} {s : Int32 × List Element}
    (h : sections.foldlM (readSection (readElement env needTitle)) (type, elements) = .ok s) :
    elements.length + (knownSections sections).length ≤ s.2.length ∧
      (¬ SkippedFrom type sections →
        elements.length + (knownSections sections).length < s.2.length) := by
  induction sections generalizing type elements with
  | nil =>
    cases h
    exact ⟨le_refl _, fun hskipped => absurd trivial hskipped⟩
  | cons entry sections ih =>
    rw [List.foldlM_cons] at h
    cases hread : readSection (readElement env needTitle) (type, elements) entry with
    | error fault => rw [hread] at h; cases h
    | ok mid =>
      rw [hread] at h
      obtain ⟨type', elements'⟩ := mid
      obtain ⟨hle, hlt⟩ := ih h
      cases hkind : ScType.ofInt? entry.1 with
      | some kind =>
        rw [readSection_known _ hkind, readElement_known] at hread
        obtain ⟨e, -, heq⟩ := map_eq_ok.mp hread
        obtain ⟨rfl, rfl⟩ := Prod.mk.inj heq
        rw [knownSections_cons_known hkind]
        simp only [List.length_append, List.length_cons, List.length_nil] at hle hlt ⊢
        refine ⟨by omega, fun hskipped => ?_⟩
        have hrest : ¬ SkippedFrom kind.toInt sections := fun hrest => hskipped
          ⟨fun hnone => (by rw [hkind] at hnone; cases hnone), by rwa [typeAfter_known hkind]⟩
        have hmore := hlt hrest
        omega
      | none =>
        rw [knownSections_cons_unknown hkind]
        by_cases hzero : typeAfter type entry = 0
        · rw [readSection_zero _ hzero] at hread
          cases hread
          refine ⟨hle, fun hskipped => hlt fun hrest => hskipped ⟨fun _ => hzero, ?_⟩⟩
          rwa [hzero]
        · rw [readSection, if_neg hzero] at hread
          have hmore : elements'.length = elements.length + 1 := length_of_readElement hread
          omega

/-! ## Documents -/

/-- A payload of a known type is read as the document of its section. -/
lemma readDocument_known (kind : ScType) (n : Nat) (d : Option BanDocument) (payload : Bytes) :
    readDocument env deps kind.toInt (n, d) payload =
      (sectionDocument env deps n (kind, payload)).map fun d => (kind.toInt, n + 1, some d) := by
  cases kind <;> rfl

/-- Where the dependencies of a script come from does not matter for its data. -/
lemma sectionDocument_ok (deps : Option Bytes) {n : Nat} {s : ScType × Bytes}
    (h : ∃ d, sectionDocument env none n s = .ok d) : ∃ d, sectionDocument env deps n s = .ok d := by
  obtain ⟨kind, payload⟩ := s
  obtain ⟨d, hd⟩ := h
  cases kind with
  | basic => exact ⟨d, hd⟩
  | test => exact ⟨d, hd⟩
  | script =>
    obtain ⟨page, hpage, -⟩ := map_eq_ok.mp hd
    exact ⟨_, map_eq_ok.mpr ⟨page, hpage, rfl⟩⟩

/-- Data of a document is data of an element. -/
lemma sectionElement_ok {n : Nat} {s : ScType × Bytes}
    (h : ∃ d, sectionDocument env none n s = .ok d) :
    ∃ e, sectionElement env needTitle n s = .ok e := by
  obtain ⟨kind, payload⟩ := s
  obtain ⟨d, hd⟩ := h
  cases kind with
  | basic | script | test =>
    obtain ⟨page, hpage, -⟩ := map_eq_ok.mp hd
    exact ⟨_, map_eq_ok.mpr ⟨page, hpage, rfl⟩⟩

/-- When the other sections are skipped, the document is that of the last section of a known type, or
the one there was. -/
lemma foldlM_readDocument (deps : Option Bytes) {type : Int32} {n : Nat}
    (h : SkippedFrom type sections)
    (hdecode : ∀ s ∈ (knownSections sections).zipIdx n, ∃ d, sectionDocument env none s.2 s.1 = .ok d)
    (d : Option BanDocument) :
    ∃ d', sections.foldlM (readSection (readDocument env deps)) (type, n, d) =
        .ok (sections.foldl typeAfter type, n + (knownSections sections).length, d') ∧
      match ((knownSections sections).zipIdx n).getLast? with
      | none => d' = d
      | some s => ∃ last, sectionDocument env deps s.2 s.1 = .ok last ∧ d' = some last := by
  induction sections generalizing type n d with
  | nil => exact ⟨d, rfl, rfl⟩
  | cons entry sections ih =>
    obtain ⟨hhead, htail⟩ := h
    rw [List.foldlM_cons, List.foldl_cons]
    cases hkind : ScType.ofInt? entry.1 with
    | none =>
      have hzero := hhead hkind
      rw [readSection_zero _ hzero, knownSections_cons_unknown hkind, hzero]
      rw [knownSections_cons_unknown hkind] at hdecode
      rw [hzero] at htail
      exact ih htail hdecode d
    | some kind =>
      rw [typeAfter_known hkind] at htail
      rw [knownSections_cons_known hkind, List.zipIdx_cons] at hdecode
      rw [readSection_known _ hkind, readDocument_known, knownSections_cons_known hkind,
        List.zipIdx_cons, typeAfter_known hkind]
      obtain ⟨hfirst, hothers⟩ := List.forall_mem_cons.mp hdecode
      obtain ⟨first, hdocument⟩ := sectionDocument_ok deps hfirst
      obtain ⟨d', hloop, hlast⟩ := ih htail hothers (some first)
      refine ⟨d', ?_, ?_⟩
      · rw [hdocument]
        refine hloop.trans ?_
        rw [List.length_cons, Nat.add_assoc, Nat.add_comm 1]
      · rw [List.getLast?_cons]
        cases hrest : ((knownSections sections).zipIdx (n + 1)).getLast? with
        | none =>
          rw [hrest] at hlast
          exact ⟨first, hdocument, hlast⟩
        | some s =>
          rw [hrest] at hlast
          exact hlast

/-! ## Both readers -/

/-- The elements of payloads that decode are one for every section of a known type. -/
lemma sectionElements_ok (needTitle : Bool) (h : PayloadsDecode env sections) :
    ∃ elements, sectionElements env needTitle sections = .ok elements ∧
      elements.length = (knownSections sections).length := by
  have hgives : Gives (sectionElements env needTitle sections) fun elements =>
      elements.length = (knownSections sections).zipIdx.length ∧ ∀ e ∈ elements, True :=
    .mapM fun s hs => (sectionElement_ok (h s hs)).imp fun _ he => ⟨he, trivial⟩
  obtain ⟨elements, helements, hlength, -⟩ := hgives
  exact ⟨elements, helements, hlength.trans List.length_zipIdx⟩

/-- The elements of a file are those of its sections of known types exactly when the other ones are
skipped. -/
lemma loadScElements_iff (needTitle : Bool)
    (hbytes : unpackAll bytes = (thisObjects header version filler sections, .finished))
    (hversion : 0 ≤ version ∧ version ≤ keFileMinVersion) (hdecode : PayloadsDecode env sections) :
    (∃ elements, sectionElements env needTitle sections = .ok elements ∧
      loadScElements env needTitle bytes = .ok (true, elements)) ↔ SkippedFrom 0 sections := by
  obtain ⟨elements, helements, hlength⟩ := sectionElements_ok needTitle hdecode
  have hread := readThis_eq (readElement env needTitle) [] hbytes hversion
  constructor
  · rintro ⟨elements', helements', hload⟩
    obtain rfl := Except.ok.inj (helements.symm.trans helements')
    by_contra hskipped
    rw [loadScElements, hread] at hload
    cases hloop : sections.foldlM (readSection (readElement env needTitle)) (0, []) with
    | error fault => rw [hloop] at hload; cases hload
    | ok s =>
      rw [hloop] at hload
      obtain ⟨-, rfl⟩ := Prod.mk.inj (Except.ok.inj hload)
      have hmore := (length_of_foldlM hloop).2 hskipped
      rw [hlength] at hmore
      simp at hmore
  · intro hskipped
    refine ⟨elements, helements, ?_⟩
    have hloop : sections.foldlM (readSection (readElement env needTitle)) (0, []) =
        (sectionElements env needTitle sections).map fun others =>
          (sections.foldl typeAfter 0, [] ++ others) := foldlM_readElement hskipped []
    rw [helements] at hloop
    rw [loadScElements, hread, hloop]
    rfl

/-- The document of a file is that of its last section of a known type when the other ones are
skipped. -/
lemma loadScDocument_of_skipped
    (hbytes : unpackAll bytes = (thisObjects header version filler sections, .finished))
    (hversion : 0 ≤ version ∧ version ≤ keFileMinVersion) (hdecode : PayloadsDecode env sections)
    (hskipped : SkippedFrom 0 sections) :
    ∃ document,
      lastDocument env (if direct then some (tempFolder ++ scriptDeps) else none) sections =
        .ok document ∧
      loadScDocument env tempFolder direct bytes =
        .ok (document.map (·.updateDataFromMsgPack)) := by
  obtain ⟨document, hloop, hlast⟩ := foldlM_readDocument
    (if direct then some (tempFolder ++ scriptDeps) else none) hskipped hdecode none
  refine ⟨document, ?_, ?_⟩
  · unfold lastDocument
    cases hsections : (knownSections sections).zipIdx.getLast? with
    | none =>
      rw [hsections] at hlast
      rw [hlast]
    | some s =>
      rw [hsections] at hlast
      obtain ⟨last, hdocument, rfl⟩ := hlast
      simp only [hdocument]
      rfl
  · have hread := readThis_eq (readDocument env
      (if direct then some (tempFolder ++ scriptDeps) else none)) (0, none) hbytes hversion
    rw [loadScDocument, hread, hloop]

/-- Both readers make of a file what its sections of known types hold exactly when the sections of
other types are skipped. -/
theorem readersAgree_iff
    (hbytes : unpackAll bytes = (thisObjects header version filler sections, .finished))
    (hversion : 0 ≤ version ∧ version ≤ keFileMinVersion) (hdecode : PayloadsDecode env sections) :
    ReadersAgree env needTitle direct tempFolder sections bytes ↔ UnknownSkipped sections := by
  have hskips : SkippedFrom 0 sections ↔ UnknownSkipped sections := skippedFrom_iff 0 sections
  rw [← hskips, ← loadScElements_iff needTitle hbytes hversion hdecode]
  constructor
  · exact fun h => h.1
  · intro h
    have hskipped := (loadScElements_iff needTitle hbytes hversion hdecode).mp h
    exact ⟨h, loadScDocument_of_skipped hbytes hversion hdecode hskipped⟩

/-- Surroundings in which nothing matters. -/
def plainFile : FileSurroundings where
  page _ :=
    { uninitialised := ⟨0, false⟩
      doubles := ⟨fun _ _ => 0, fun _ _ => 0⟩
      quuid := id
      unitedRect := fun _ => (⟨0, 0⟩, 1, 1)
      newUuid := fun _ => []
      address := fun place => place.length }
  documentUuid _ := []
  elementUuid _ := []
  cursor _ := ⟨0, 0⟩

/-- A test, a section of type zero and one of a negative type. -/
def skippedSections : List Entry := [(1026, []), (0, [7]), (-3, [9])]

/-- A file whose section of an unknown type is skipped. -/
theorem readersAgree_iff_skippedSections :
    ReadersAgree plainFile true false [] skippedSections
      (packAll (thisObjects BanFile.header 5 [1, 2] skippedSections)) := by
  have hversion : (0 : Int32) ≤ 5 ∧ (5 : Int32) ≤ keFileMinVersion := by decide
  have hskipped : SkippedFrom 0 skippedSections :=
    ⟨fun hnone => absurd hnone (by decide), fun _ => rfl, fun _ => rfl, trivial⟩
  refine (readersAgree_iff (unpackAll_thisObjects (by decide +kernel)) hversion ?_).mpr
    ((skippedFrom_iff 0 skippedSections).mp hskipped)
  intro s hs
  obtain rfl : s = ((.test, []), 0) := by
    simpa [knownSections, skippedSections, ScType.ofInt?] using hs
  exact ⟨_, rfl⟩

/-- A section of an unknown type is loaded as a test. -/
theorem not_readersAgree_unknownSection :
    ¬ ReadersAgree plainFile false false [] [(2000, [])]
      (packAll (thisObjects BanFile.header 5 [1, 2] [(2000, [])])) := by
  rintro ⟨⟨elements, helements, hload⟩, -⟩
  obtain rfl : [] = elements := Except.ok.inj helements
  have hlength : (loadScElements plainFile false
      (packAll (thisObjects BanFile.header 5 [1, 2] [(2000, [])]))).toOption.map (·.2.length) =
        some 1 := by decide +kernel
  rw [hload] at hlength
  cases hlength

end BanFile

end Liangshi

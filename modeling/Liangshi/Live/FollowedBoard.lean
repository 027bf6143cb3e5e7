import Liangshi.Live.BoardPosting

/-!
# A board that is followed

One participant holds the board and works on it.  The others take in what it sends, each at its own pace.

A participant that has taken in everything shows the page of the holder, with elements of the same uuids in
the same order (`FollowedBoard.shows_holder`).  That is so from the first page that is shown on, whatever the
participant showed before, and as long as the element that a `HideAction` finds by its uuid is the one that
is drawn: an element that is undone and redone is sent twice, and then a participant has two of them.

Who holds the board does not change here, and the others only listen.
-/

namespace Liangshi

open Wire MessagePack Ordered Transition

/-! ## The system -/

/-- The holder of a board, and what the others show and have not taken in yet. -/
structure FollowedBoard (P : Type) where
  holder : LivePages
  board : P → LiveBoard
  queue : P → List LokiBuffer

/-- What happens: the holder works on the pages, a helper of an element reports, and a participant takes in
board data. -/
inductive FollowedEvent (P : Type) where
  | work (e : LiveEvent)
  | report (p : Pointer) (kind : AnimationKind)
  | deliver (p : P) (env : Surroundings)

namespace FollowedBoard

variable {P : Type}

/-- What the holder sends at an event. -/
def sent (s : FollowedBoard P) : FollowedEvent P → List Posting
  | .work e => s.holder.board.sent e
  | .report p kind => s.holder.board.posts (s.holder.board.current.signal p kind) none
  | .deliver _ _ => []

/-- The action that a participant takes in next finds an element that is drawn, if it hides one. -/
def FindsHidden (s : FollowedBoard P) (p : P) (env : Surroundings) : Prop :=
  ∀ data ∈ (s.queue p).head?, ∀ a, LiveBoard.boardAction env.uninitialised data = some a →
    a.kind = .hide → (s.board p).current.FindsDrawn a.targetElementUuid

/-- What can happen. -/
def Enabled (machine : BoardMachine) (s : FollowedBoard P) : FollowedEvent P → Prop
  | .work e => s.holder.board.Admits machine e ∧ ∀ posting ∈ s.holder.board.sent e, posting.Fits machine
  | .report p kind => kind.IsReport ∧ ∀ posting ∈ s.sent (.report p kind), posting.Fits machine
  | .deliver p env => machine.Runs env ∧ (s.board p).current.element (env.address []) = none ∧
      s.FindsHidden p env

/-- The queues with what the holder has sent. -/
def queueAfter (machine : BoardMachine) (s : FollowedBoard P) (e : FollowedEvent P) : P → List LokiBuffer :=
  fun p => s.queue p ++ (s.sent e).map (·.boardData machine)

variable [DecidableEq P]

/-- What an event does; `none` after a fault. -/
def next (machine : BoardMachine) (s : FollowedBoard P) : FollowedEvent P → Option (FollowedBoard P)
  | .work e => (s.holder.next machine.unzip e).map fun holder =>
      ⟨holder, s.board, s.queueAfter machine (.work e)⟩
  | .report p kind => some { s with queue := s.queueAfter machine (.report p kind) }
  | .deliver p env =>
    match s.queue p with
    | [] => none
    | data :: rest =>
      ((s.board p).onBoardDataTriggered env machine.unzip data).toOption.map fun board =>
        { s with
          board := Function.update s.board p board
          queue := Function.update s.queue p rest }

/-- A holder of the board that works, with participants that listen. -/
def system (machine : BoardMachine) (s : FollowedBoard P) : System (FollowedBoard P) (FollowedEvent P) where
  init t := t = s
  step s e t := s.Enabled machine e ∧ s.next machine e = some t

end FollowedBoard

/-! ## Every run -/

namespace FollowedBoard

variable {machine : BoardMachine} {P : Type} {s t : FollowedBoard P} {p : P} {e : FollowedEvent P}

/-- What a participant has not taken in yet has been sent. -/
structure Awaits (machine : BoardMachine) (s : FollowedBoard P) (p : P) (postings : List Posting) : Prop where
  queue_eq : s.queue p = postings.map (·.boardData machine)
  fits : ∀ posting ∈ postings, posting.Fits machine
  proper : ∀ posting ∈ postings, posting.Proper machine

/-- The holder tends its pages, and the others are waiting for what it has sent. -/
structure Kept (machine : BoardMachine) (s : FollowedBoard P) : Prop where
  holder : s.holder.board.Tended machine
  awaits : ∀ p, ∃ postings, s.Awaits machine p postings

/-- A participant comes to what the holder shows when it takes in what it is waiting for. -/
def InStep (machine : BoardMachine) (s : FollowedBoard P) (p : P) : Prop :=
  ∃ postings, s.Awaits machine p postings ∧ Leads drawnPages (s.board p).current.Presents
    (postings.map Posting.update) s.holder.board.current.drawnPage

/-- A participant is waiting for what has been sent as well. -/
lemma Awaits.sent {postings : List Posting} (h : s.Awaits machine p postings)
    (hqueue : t.queue = s.queueAfter machine e) (hfits : ∀ posting ∈ s.sent e, posting.Fits machine)
    (hproper : ∀ posting ∈ s.sent e, posting.Proper machine) :
    t.Awaits machine p (postings ++ s.sent e) where
  queue_eq := by
    rw [hqueue, queueAfter, h.queue_eq, List.map_append]
  fits := List.forall_mem_append.mpr ⟨h.fits, hfits⟩
  proper := List.forall_mem_append.mpr ⟨h.proper, hproper⟩

variable [DecidableEq P]

/-- What the holder does at an event of its own. -/
lemma of_sent (h : s.Kept machine) (henabled : s.Enabled machine e) (hnext : s.next machine e = some t)
    (hown : ∀ p env, e ≠ .deliver p env) : t.board = s.board ∧ t.queue = s.queueAfter machine e ∧
      (∀ posting ∈ s.sent e, posting.Fits machine) ∧
        s.holder.board.Sends machine (s.sent e) t.holder.board := by
  cases e with
  | deliver p env => exact absurd rfl (hown p env)
  | work e =>
    obtain ⟨holder, hholder, rfl⟩ := Option.map_eq_some_iff.mp hnext
    exact ⟨rfl, rfl, henabled.2, h.holder.sends henabled.1 hholder⟩
  | report p kind =>
    obtain rfl := Option.some.inj hnext
    obtain ⟨hreport, hfits⟩ := henabled
    have hkind : kind.IsLocal ∧ kind ≠ .show ∧ kind.getType ≠ .switchPage ∧ ∀ uuid sc time played,
        AnimationAction.rearrangement? ⟨sc, uuid, time, kind, played⟩ = none := by
      cases kind <;> first
        | exact hreport.elim
        | exact ⟨trivial, by simp, by simp [AnimationKind.getType], fun _ _ _ _ => rfl⟩
    obtain ⟨hlocal, hshow, htype, hnone⟩ := hkind
    have hsendable : LiveBoard.Sendable (s.holder.board.current.signal p kind) none := by
      refine LiveBoard.sendable_of_forall fun a ha => ?_
      rw [(Page.of_mem_signal ha).1]
      exact ⟨hlocal, hshow⟩
    have htells : Page.Tells s.holder.board.current (s.holder.board.current.signal p kind)
        s.holder.board.current := .of_similar (.refl _) rfl
      (fun a ha => Page.isOn_of_mem_signal ha htype) fun a ha => Page.rearrangement?_of_mem_signal ha hnone
    exact ⟨rfl, rfl, hfits, h.holder, (LiveBoard.posts_spec machine h.holder.controls hsendable).1,
      LiveBoard.carries_posts machine h.holder.controls hsendable htells⟩

/-- What a participant that takes something in comes to. -/
lemma of_deliver {q : P} {env : Surroundings} (hnext : s.next machine (.deliver q env) = some t) :
    ∃ data rest board, s.queue q = data :: rest ∧
      (s.board q).onBoardDataTriggered env machine.unzip data = .ok board ∧ t = { s with
        board := Function.update s.board q board
        queue := Function.update s.queue q rest } := by
  unfold next at hnext
  dsimp only at hnext
  split at hnext
  · cases hnext
  · rename_i data rest hqueue
    obtain ⟨board, hboard, rfl⟩ := Option.map_eq_some_iff.mp hnext
    exact ⟨data, rest, board, hqueue, toOption_eq_some.mp hboard, rfl⟩

/-- What a participant is waiting for begins with what it takes in. -/
lemma Awaits.take {q : P} {env : Surroundings} {postings : List Posting} (h : s.Awaits machine q postings)
    (hnext : s.next machine (.deliver q env) = some t) : ∃ posting others, postings = posting :: others ∧
      (s.queue q).head? = some (posting.boardData machine) ∧ t.Awaits machine q others ∧
        (s.board q).onBoardDataTriggered env machine.unzip (posting.boardData machine) =
          .ok (t.board q) := by
  obtain ⟨data, rest, board, hqueue, hdata, rfl⟩ := of_deliver hnext
  have hmap := h.queue_eq
  rw [hqueue] at hmap
  obtain ⟨posting, others, rfl, rfl, rfl⟩ := List.map_eq_cons_iff.mp hmap.symm
  refine ⟨posting, others, rfl, by rw [hqueue]; rfl, ⟨Function.update_self _ _ _,
    fun other hother => h.fits other (List.mem_cons_of_mem _ hother),
    fun other hother => h.proper other (List.mem_cons_of_mem _ hother)⟩, ?_⟩
  dsimp only
  rw [hdata, Function.update_self]

/-- Every event keeps that the others are waiting for what the holder has sent. -/
lemma Kept.next (h : s.Kept machine) (henabled : s.Enabled machine e) (hnext : s.next machine e = some t) :
    t.Kept machine := by
  have hsent : (∀ p env, e ≠ .deliver p env) → t.Kept machine := by
    intro hown
    obtain ⟨-, hqueue, hfits, hsends⟩ := of_sent h henabled hnext hown
    refine ⟨hsends.tended, fun p => ?_⟩
    obtain ⟨postings, hawaits⟩ := h.awaits p
    exact ⟨_, hawaits.sent hqueue hfits hsends.proper⟩
  cases e with
  | work | report => exact hsent (by simp)
  | deliver q env =>
    obtain ⟨postings, hawaits⟩ := h.awaits q
    obtain ⟨posting, others, -, -, hothers, -⟩ := hawaits.take hnext
    obtain ⟨data, rest, board, -, -, rfl⟩ := of_deliver hnext
    refine ⟨h.holder, fun p => ?_⟩
    by_cases hpq : p = q
    · subst hpq
      exact ⟨others, hothers⟩
    · obtain ⟨postings, hawaits⟩ := h.awaits p
      refine ⟨postings, ?_, hawaits.fits, hawaits.proper⟩
      rw [← hawaits.queue_eq]
      exact Function.update_of_ne hpq _ _

/-- Every event keeps a participant in step with the holder. -/
lemma InStep.next (hs : s.Kept machine) (h : s.InStep machine p) (henabled : s.Enabled machine e)
    (hnext : s.next machine e = some t) : t.InStep machine p := by
  obtain ⟨postings, hawaits, hleads⟩ := h
  have hsent : (∀ p env, e ≠ .deliver p env) → t.InStep machine p := by
    intro hown
    obtain ⟨hboard, hqueue, hfits, hsends⟩ := of_sent hs henabled hnext hown
    refine ⟨_, hawaits.sent hqueue hfits hsends.proper, ?_⟩
    rw [hboard, List.map_append]
    exact hsends.carries _ _ hleads
  cases e with
  | work | report => exact hsent (by simp)
  | deliver q env =>
    by_cases hpq : p = q
    · subst hpq
      obtain ⟨henv, hfree, hfinds⟩ := henabled
      obtain ⟨posting, others, rfl, hhead, hothers, hdata⟩ := hawaits.take hnext
      obtain ⟨hchange, hsnapshot⟩ := LiveBoard.takes henv (hawaits.fits posting List.mem_cons_self)
        (hawaits.proper posting List.mem_cons_self) hfree (hfinds _ hhead) hdata
      have hholder : t.holder = s.holder := by
        obtain ⟨_, _, _, -, -, rfl⟩ := of_deliver hnext
        rfl
      rw [List.map_cons] at hleads
      exact ⟨others, hothers, by rw [hholder]; exact hleads.take hchange hsnapshot⟩
    · obtain ⟨data, rest, board, -, -, rfl⟩ := of_deliver hnext
      refine ⟨postings, ⟨?_, hawaits.fits, hawaits.proper⟩, ?_⟩
      · rw [← hawaits.queue_eq]
        exact Function.update_of_ne hpq _ _
      · dsimp only
        rw [Function.update_of_ne hpq]
        exact hleads

/-- A page that is shown brings everybody in step. -/
lemma Kept.inStep (h : s.Kept machine) {e : LiveEvent} (hshows : e.ShowsPage)
    (henabled : s.Enabled machine (.work e)) (hnext : s.next machine (.work e) = some t) (p : P) :
    t.InStep machine p := by
  obtain ⟨hboard, hqueue, hfits, hsends⟩ := of_sent h henabled hnext (by simp)
  obtain ⟨postings, hawaits⟩ := h.awaits p
  refine ⟨_, hawaits.sent hqueue hfits hsends.proper, ?_⟩
  obtain ⟨holder, hholder, rfl⟩ := Option.map_eq_some_iff.mp hnext
  rw [List.map_append]
  exact h.holder.brings hshows henabled.1 hholder _ _

/-- A participant is in step at the end of a run when it was at the start, or when a page has been
shown. -/
lemma Kept.run {S : FollowedBoard P} {es : List (FollowedEvent P)} (h : s.Kept machine)
    (hrun : (system machine S).Run s es t) : t.Kept machine ∧
      (s.InStep machine p ∨ (∃ e : LiveEvent, .work e ∈ es ∧ e.ShowsPage) → t.InStep machine p) := by
  induction hrun with
  | nil => exact ⟨h, fun hor => hor.resolve_right fun ⟨_, hmem, _⟩ => List.not_mem_nil hmem⟩
  | snoc _ hstep ih =>
    obtain ⟨hkept, hinStep⟩ := ih
    refine ⟨hkept.next hstep.1 hstep.2, ?_⟩
    rintro (hstart | ⟨e, hmem, hshows⟩)
    · exact (hinStep (.inl hstart)).next hkept hstep.1 hstep.2
    · rcases List.mem_append.mp hmem with hmem | hmem
      · exact (hinStep (.inr ⟨e, hmem, hshows⟩)).next hkept hstep.1 hstep.2
      · obtain rfl := List.mem_singleton.mp hmem
        exact hkept.inStep hshows hstep.1 hstep.2 p

/-- A participant that has taken in everything shows the page that the holder shows, with elements of the
same uuids in the same order: in every run in which it showed that at the start, or in which a page has been
shown since. -/
theorem shows_holder {es : List (FollowedEvent P)} (hholder : s.holder.board.Tended machine)
    (hqueue : ∀ p, s.queue p = []) (hrun : (system machine s).Run s es t) (p : P)
    (hp : (s.board p).current.Presents s.holder.board.current.drawnPage ∨
      ∃ e : LiveEvent, .work e ∈ es ∧ e.ShowsPage) (hempty : t.queue p = []) :
    (t.board p).current.drawnPage = t.holder.board.current.drawnPage := by
  have hnothing : ∀ p, s.Awaits machine p [] :=
    fun p => ⟨hqueue p, List.forall_mem_nil _, List.forall_mem_nil _⟩
  have hkept : s.Kept machine := ⟨hholder, fun p => ⟨[], hnothing p⟩⟩
  obtain ⟨-, hinStep⟩ := hkept.run hrun (p := p)
  obtain ⟨postings, hawaits, hleads⟩ := hinStep (hp.imp_left fun hp => ⟨[], hnothing p, .has hp⟩)
  have hnone : postings = [] := List.map_eq_nil_iff.mp (hawaits.queue_eq.symm.trans hempty)
  rw [hnone] at hleads
  exact hleads.of_nil.drawnPage_eq

/-- Machines with an archive that stores what is put in it behind its mark. -/
def archiving : BoardMachine where
  uninitialised := ⟨0, false⟩
  quuid := id
  zip bytes := [0x50, 0x4b] ++ bytes
  unzip bytes := bytes.drop 2
  unzip_zip _ := rfl

/-- Surroundings in which a page that is made has a uuid, and elements are made from an address on. -/
def newPages (uuid : Bytes) (first : Nat) : Surroundings :=
  { emptyViewers fun place => Encodable.encode place + first with newUuid := fun _ => uuid }

/-- The machine runs in them. -/
lemma runs_newPages (uuid : Bytes) (first : Nat) : archiving.Runs (newPages uuid first) where
  uninitialised := rfl
  quuid := rfl
  regular := ⟨fun _ => rfl, fun _ _ _ => rfl, fun _ _ h => Encodable.encode_injective (Nat.add_right_cancel h)⟩

/-- A holder and two participants that show pages of their own. -/
def threeBoards : FollowedBoard Bool where
  holder := ⟨.new, (LiveBoard.new (newPages [1] 0)).setEnableCurrentPage true⟩
  board p := LiveBoard.new (newPages [if p then 2 else 3] 0)
  queue _ := []

/-- The holder makes a page and draws a line and a rectangle on it, which it undoes; the participants take
that in, each at its own pace. -/
def strokeUndone : List (FollowedEvent Bool) :=
  [.work (.newPage (newPages [4] 0)),
    .work (.edit (.addNew 1 (.new [5] (.line ⟨0, 0⟩ ⟨10, 10⟩)) true false) trivial),
    .deliver false (newPages [7] 0),
    .work (.edit (.addNew 2 (.new [6] (.rect ⟨0, 0⟩ ⟨5, 5⟩)) true false) trivial),
    .deliver false (newPages [7] 0), .deliver true (newPages [7] 0),
    .work (.edit .undo trivial),
    .deliver false (newPages [7] 1), .deliver false (newPages [7] 2),
    .deliver true (newPages [7] 0), .deliver true (newPages [7] 1), .deliver true (newPages [7] 2)]

/-- Where in the list a participant takes something in, and the first address then. -/
def takings : List (Nat × Bool × Nat) :=
  [(2, false, 0), (4, false, 0), (5, true, 0), (7, false, 1), (8, false, 2), (9, true, 0), (10, true, 1),
    (11, true, 2)]

/-- What comes of the first events. -/
def threeBoardsAfter (n : Nat) : FollowedBoard Bool :=
  ((strokeUndone.take n).foldlM (next archiving) threeBoards).getD threeBoards

instance (page : Page) (uuid : Bytes) : Decidable (page.FindsDrawn uuid) :=
  inferInstanceAs (Decidable (∀ p ∈ page.drawingElements, _ → _))

instance (s : FollowedBoard Bool) (p : Bool) (env : Surroundings) : Decidable (s.FindsHidden p env) :=
  inferInstanceAs (Decidable (∀ data ∈ (s.queue p).head?,
    ∀ a ∈ LiveBoard.boardAction env.uninitialised data, a.kind = .hide →
      (s.board p).current.FindsDrawn a.targetElementUuid))

/-- One more event of the list. -/
lemma next_threeBoardsAfter {n : Nat} {e : FollowedEvent Bool} (he : strokeUndone[n]? = some e)
    (hsome : ((strokeUndone.take (n + 1)).foldlM (next archiving) threeBoards).isSome) :
    next archiving (threeBoardsAfter n) e = some (threeBoardsAfter (n + 1)) := by
  unfold threeBoardsAfter
  rw [List.take_add_one, he] at hsome ⊢
  simp only [Option.toList_some, List.foldlM_append, List.foldlM_cons, List.foldlM_nil, bind_pure] at hsome ⊢
  cases hs : (strokeUndone.take n).foldlM (next archiving) threeBoards with
  | none =>
    rw [hs] at hsome
    cases hsome
  | some s =>
    rw [hs] at hsome
    obtain ⟨t, ht⟩ := Option.isSome_iff_exists.mp hsome
    have hnext : next archiving s e = some t := ht
    simp only [Option.getD_some, Option.bind_eq_bind, Option.bind_some, hnext]

/-- Both participants show the page of the holder, with the line alone. -/
theorem shows_holder_strokeUndone :
    ((threeBoardsAfter 12).board false).current.drawnPage =
        (threeBoardsAfter 12).holder.board.current.drawnPage ∧
      ((threeBoardsAfter 12).board true).current.drawnPage =
        (threeBoardsAfter 12).holder.board.current.drawnPage := by
  have hsome : ∀ n < 12, ((strokeUndone.take (n + 1)).foldlM (next archiving) threeBoards).isSome := by
    decide +kernel
  have hnext : ∀ n < 12, ∀ e, strokeUndone[n]? = some e →
      next archiving (threeBoardsAfter n) e = some (threeBoardsAfter (n + 1)) :=
    fun n hn e he => next_threeBoardsAfter he (hsome n hn)
  have hlengths : ∀ n ∈ [0, 1, 3, 6], ∀ e ∈ strokeUndone[n]?, ∀ posting ∈ (threeBoardsAfter n).sent e,
      posting.record.length < 2 ^ 32 ∧ (posting.animation archiving).getMsgPackData.length < 2 ^ 32 := by
    decide +kernel
  have hfits : ∀ n ∈ [0, 1, 3, 6], ∀ e ∈ strokeUndone[n]?, ∀ posting ∈ (threeBoardsAfter n).sent e,
      posting.Fits archiving := fun n hn e he posting hposting =>
    ⟨(hlengths n hn e he posting hposting).1, (hlengths n hn e he posting hposting).2⟩
  -- the holder draws elements that are new
  have hnew : ∀ x ∈ [(1, 5), (3, 6)],
      ∀ p ∈ (threeBoardsAfter x.1).holder.board.current.allElements.elems,
        (threeBoardsAfter x.1).holder.board.current.uuidOf p ≠ some [x.2] := by
    decide +kernel
  have hfree : (threeBoardsAfter 1).holder.board.current.element 1 = none ∧
      (threeBoardsAfter 3).holder.board.current.element 2 = none := by
    decide +kernel
  -- the participants have room for what they take in, and find what they hide
  have htakes : ∀ x ∈ takings, ((threeBoardsAfter x.1).board x.2.1).current.element ((newPages [7] x.2.2).address []) = none ∧
        (threeBoardsAfter x.1).FindsHidden x.2.1 (newPages [7] x.2.2) := by
    decide +kernel
  have hdeliver : ∀ n p first, (n, p, first) ∈ takings →
      strokeUndone[n]? = some (.deliver p (newPages [7] first)) →
      (system archiving threeBoards).step (threeBoardsAfter n) (.deliver p (newPages [7] first))
        (threeBoardsAfter (n + 1)) := by
    intro n p first hmem he
    obtain ⟨hroom, hhidden⟩ := htakes _ hmem
    exact ⟨⟨runs_newPages _ _, hroom, hhidden⟩, hnext n (List.getElem?_eq_some_iff.mp he).1 _ he⟩
  have hundo : (system archiving threeBoards).step (threeBoardsAfter 6) (.work (.edit .undo trivial))
      (threeBoardsAfter 7) :=
    ⟨⟨⟨trivial, trivial, trivial, trivial⟩, hfits 6 (by decide) (.work (.edit .undo trivial)) rfl⟩,
      hnext 6 (by decide) _ rfl⟩
  have hrun : (system archiving threeBoards).Run threeBoards strokeUndone (threeBoardsAfter 12) :=
    .cons ⟨⟨rfl, hfits 0 (by decide) _ rfl⟩, hnext 0 (by decide) _ rfl⟩ <|
    .cons ⟨⟨⟨trivial, trivial, hfree.1, hnew (1, 5) (by decide)⟩, hfits 1 (by decide) _ rfl⟩,
      hnext 1 (by decide) _ rfl⟩ <|
    .cons (hdeliver 2 false 0 (by decide) rfl) <|
    .cons ⟨⟨⟨trivial, trivial, hfree.2, hnew (3, 6) (by decide)⟩, hfits 3 (by decide) _ rfl⟩,
      hnext 3 (by decide) _ rfl⟩ <|
    .cons (hdeliver 4 false 0 (by decide) rfl) <| .cons (hdeliver 5 true 0 (by decide) rfl) <|
    .cons hundo <|
    .cons (hdeliver 7 false 1 (by decide) rfl) <| .cons (hdeliver 8 false 2 (by decide) rfl) <|
    .cons (hdeliver 9 true 0 (by decide) rfl) <| .cons (hdeliver 10 true 1 (by decide) rfl) <|
    .cons (hdeliver 11 true 2 (by decide) rfl) <| .nil _
  have hholder : threeBoards.holder.board.Tended archiving := by
    refine ⟨rfl, fun page hpage => ?_⟩
    rw [List.mem_singleton.mp hpage]
    exact ⟨Page.settled_of_empty rfl rfl rfl rfl, rfl, rfl⟩
  have hempty : ∀ p, (threeBoardsAfter 12).queue p = [] := by decide +kernel
  have hshown : ∃ e : LiveEvent, .work e ∈ strokeUndone ∧ e.ShowsPage :=
    ⟨.newPage (newPages [4] 0), List.mem_cons_self, trivial⟩
  exact ⟨shows_holder hholder (fun _ => rfl) hrun false (.inr hshown) (hempty false),
    shows_holder hholder (fun _ => rfl) hrun true (.inr hshown) (hempty true)⟩

end FollowedBoard

end Liangshi

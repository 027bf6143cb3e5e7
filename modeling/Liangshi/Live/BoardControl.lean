import Liangshi.Live.Classroom

/-!
# What commands do to the control of the board

`effect` is what a command makes of the flag `_controlingBoard` of the participant that receives
it.  A widget that has logged in (`KnownAs`) does exactly that (`receive_known`), and the first
command a new widget receives is the reply to its login (`receive_new`).

A command sets the flag of one student at most and then clears the others'
(`studentEffect_eq_false_of_grants`); every other command can only clear flags.
-/

namespace Liangshi

open Wire MessagePack

/-! ## Kinds of commands -/

namespace LokiCommand

/-- The reply to an accepted board login. -/
def isReply : LokiCommand → Bool
  | .boradLogin c => c.result && !c.peer
  | _ => false

/-- The notice of another participant's login. -/
def isNotice : LokiCommand → Bool
  | .boradLogin c => c.result && c.peer
  | _ => false

/-- A board login. -/
def isLogin : LokiCommand → Bool
  | .boradLogin _ => true
  | _ => false

/-- The student a command grants the board to. -/
def granted : LokiCommand → Option Bytes
  | .applyBoard apply => if apply.fromTeacher && apply.agree then some apply.studentId else none
  | _ => none

end LokiCommand

/-- Board data that switches the page. -/
def LokiBuffer.switchesPage (u : Uninitialised) (data : LokiBuffer) : Bool :=
  match BoardData.fromLokiBuffer u data with
  | some board => decide (board.type = AnimationType.networkSwitchPage.toInt)
  | none => false

/-- Packed board data convert back, whatever a member without a value holds. -/
lemma BoardData.fromLokiBuffer_getMsgPackData (u u' : Uninitialised) {board : BoardData}
    (h : board.data.buffer.length < 2 ^ 32) :
    BoardData.fromLokiBuffer u' (board.getMsgPackData u) = some board := by
  have hbytes : ((Codec.vector Codec.int8).toObj board.data.buffer).Packable (embedStackSize - 2) := by
    refine ⟨by decide, by rwa [List.length_map], allPackable_iff.mpr fun item hitem => ?_⟩
    obtain ⟨byte, -, rfl⟩ := List.mem_map.mp hitem
    have hlo := Int8.le_toInt byte
    have hhi := Int8.toInt_lt byte
    exact packable_ofInt (by omega) (by omega)
  have htype : (Codec.int32.toObj board.type).Packable (embedStackSize - 1) :=
    packable_ofInt (Int32.le_toInt board.type) (Int32.toInt_lt _)
  have htwo : 2 < 2 ^ 32 := by decide
  have hone : 1 < 2 ^ 32 := by decide
  have hpackable : ((BoardData.codec u').toObj board).Packable embedStackSize :=
    ⟨by decide, htwo, htype, ⟨by decide, hone, hbytes, trivial⟩, trivial⟩
  have hunpack : unpackOne (board.getMsgPackData u).data = some ((BoardData.codec u').toObj board) := by
    have hpacked := unpackOne_pack hpackable []
    rw [List.append_nil] at hpacked
    rw [BoardData.getMsgPackData, LokiBuffer.data_ofData]
    exact hpacked
  rw [BoardData.fromLokiBuffer, hunpack, Option.bind_some, Codec.convert_toObj]

/-- A packed page switches the page. -/
lemma switchesPage_getMsgPackData (u : Uninitialised) {page : LokiBuffer}
    (h : page.buffer.length < 2 ^ 32) :
    ((BoardData.mk AnimationType.networkSwitchPage.toInt page).getMsgPackData u).switchesPage u =
      true := by
  have hconvert : BoardData.fromLokiBuffer u
      ((BoardData.mk AnimationType.networkSwitchPage.toInt page).getMsgPackData u) = some
        ⟨AnimationType.networkSwitchPage.toInt, page⟩ := BoardData.fromLokiBuffer_getMsgPackData u u h
  simp only [LokiBuffer.switchesPage, hconvert, decide_true]

/-! ## Effects -/

/-- What a command makes of a student's flag. -/
def studentEffect (u : Uninitialised) (userId : Bytes) (flag : Bool) : LokiCommand → Bool
  | .applyBoard apply =>
    if apply.fromTeacher then
      if apply.studentId = userId then apply.agree else if apply.agree then false else flag
    else flag
  | .takeBoard _ => false
  | .boardData board => if board.data.switchesPage u then false else flag
  | _ => flag

/-- What a command makes of the teacher's flag. -/
def teacherEffect (u : Uninitialised) (flag : Bool) : LokiCommand → Bool
  | .boradLogin login => if login.result && !login.peer then true else flag
  | .takeBoard _ => false
  | .boardData board => if board.data.switchesPage u then false else flag
  | _ => flag

variable {u : Uninitialised} {userId : Bytes} {flag : Bool} {c : LokiCommand}

/-- Only a grant sets a student's flag. -/
lemma studentEffect_le (h : studentEffect u userId flag c = true) :
    flag = true ∨ c.granted = some userId := by
  cases c with
  | applyBoard apply =>
    simp only [studentEffect] at h
    split_ifs at h with hteacher hid
    · exact Or.inr (by simp [LokiCommand.granted, hteacher, h, hid])
    · exact Or.inl h
    · exact Or.inl h
  | boardData board =>
    simp only [studentEffect] at h
    split_ifs at h
    exact Or.inl h
  | takeBoard take => cases h
  | _ => exact Or.inl h

/-- A grant clears the flags of the other students. -/
lemma studentEffect_eq_false_of_grants {other : Bytes} (h : c.granted = some other)
    (hne : other ≠ userId) : studentEffect u userId flag c = false := by
  cases c with
  | applyBoard apply =>
    simp only [LokiCommand.granted] at h
    split_ifs at h with hgrant
    obtain ⟨hteacher, hagree⟩ := Bool.and_eq_true_iff.mp hgrant
    rw [Option.some.injEq] at h
    simp [studentEffect, hteacher, h, hne, hagree]
  | _ => cases h

/-- Effects are monotone. -/
lemma studentEffect_mono (h : studentEffect u userId false c = true) :
    studentEffect u userId flag c = true := by
  cases flag with
  | false => exact h
  | true =>
    cases c with
    | applyBoard apply =>
      simp only [studentEffect] at h ⊢
      split_ifs at h ⊢
      exact h
    | boardData board =>
      simp only [studentEffect] at h
      split_ifs at h
    | takeBoard take => cases h
    | _ => rfl

/-- Only a reply sets the teacher's flag. -/
lemma teacherEffect_le (h : teacherEffect u flag c = true) (hreply : c.isReply = false) :
    flag = true := by
  cases c with
  | boradLogin login =>
    simp only [LokiCommand.isReply] at hreply
    simpa [teacherEffect, hreply] using h
  | boardData board =>
    simp only [teacherEffect] at h
    split_ifs at h
    exact h
  | takeBoard take => cases h
  | _ => exact h

/-- Several commands in order, from a flag that is set or not: the first is no worse. -/
lemma foldl_studentEffect_mono {commands : List LokiCommand} {flag' : Bool}
    (hle : flag = true → flag' = true)
    (h : commands.foldl (studentEffect u userId) flag = true) :
    commands.foldl (studentEffect u userId) flag' = true := by
  induction commands generalizing flag flag' with
  | nil => exact hle h
  | cons c commands ih =>
    refine ih (fun hset => ?_) h
    cases flag with
    | true => rwa [hle rfl]
    | false => exact studentEffect_mono hset

/-- Without a reply, commands do not set the teacher's flag. -/
lemma foldl_teacherEffect_le {commands : List LokiCommand}
    (hreply : ∀ c ∈ commands, c.isReply = false)
    (h : commands.foldl (teacherEffect u) flag = true) : flag = true := by
  induction commands generalizing flag with
  | nil => exact h
  | cons c commands ih =>
    obtain ⟨hfirst, hothers⟩ := List.forall_mem_cons.mp hreply
    exact teacherEffect_le (ih hothers h) hfirst

/-! ## Widgets -/

namespace Lecture

variable {P : Type} (room : Lecture P)

/-- What the client of a participant remembers of its login. -/
def client (p : P) : LokiClient :=
  ⟨(room.identity p).userId, (room.identity p).nickname, (room.identity p).classId,
    (room.identity p).isTeacher, (room.identity p).allTeachers⟩

/-- A widget that has logged in as a participant. -/
structure KnownAs [DecidableEq P] (p : P) (widget : LiveWidget) : Prop where
  lokiClient : widget.lokiClient = room.client p
  button : widget.button = some (if p = room.teacher then .take else .apply)
  applications : widget.applications ≠ [] → p = room.teacher

/-- The commands the server sends to a participant: its own replies, and applications to the
teacher only. -/
def Addressed (p : P) : LokiCommand → Prop
  | .boradLogin login => login.result = true ∧ (login.peer = false →
      (LokiClient.new.boardLoginTriggered login) = room.client p)
  | .applyBoard apply => apply.fromTeacher = false → p = room.teacher
  | _ => True

/-- The commands a participant sends: its own login, and commands for its class; only the teacher
agrees to applications and takes the board. -/
def Proper (p : P) : LokiCommand → Prop
  | .boradLogin login => login.sessionId = room.session p
  | .applyBoard apply => apply.classId = room.classId ∧ (apply.fromTeacher = true → p = room.teacher)
  | .takeBoard take => take.classId = room.classId ∧ p = room.teacher
  | .boardData board => board.classId = room.classId
  | .hadesData _ => True
  | _ => False

variable [DecidableEq P]

/-- What a command makes of a participant's flag. -/
def effect (u : Uninitialised) (p : P) : Bool → LokiCommand → Bool :=
  if p = room.teacher then teacherEffect u else studentEffect u (room.identity p).userId

/-- The effect of a command on the teacher. -/
lemma effect_teacher : room.effect u room.teacher = teacherEffect u := if_pos rfl

/-- The effect of a command on a student. -/
lemma effect_student {p : P} (h : p ≠ room.teacher) :
    room.effect u p = studentEffect u (room.identity p).userId := if_neg h

variable {room} {p : P} {widget : LiveWidget} {page : LokiBuffer}

omit [DecidableEq P] in
/-- What a client has remembered of a reply does not depend on what it remembered before. -/
lemma boardLoginTriggered_eq (client : LokiClient) {login : BoardLoginCommand}
    (hreply : (login.result && !login.peer) = true) (haddressed : room.Addressed p (.boradLogin login)) :
    client.boardLoginTriggered login = room.client p := by
  obtain ⟨hresult, hpeer⟩ := Bool.and_eq_true_iff.mp hreply
  rw [← haddressed.2 (by simpa using hpeer)]
  simp only [LokiClient.boardLoginTriggered, hreply, if_true]

/-- A reply tells who the teacher is. -/
lemma isTeacher_of_reply {login : BoardLoginCommand}
    (hreply : (login.result && !login.peer) = true) (haddressed : room.Addressed p (.boradLogin login)) :
    login.isTeacher = decide (p = room.teacher) ∧ login.allTeachers = false := by
  have hclient := boardLoginTriggered_eq LokiClient.new hreply haddressed
  simp only [LokiClient.boardLoginTriggered, hreply, if_true, client, LokiClient.mk.injEq]
    at hclient
  obtain ⟨-, -, -, hteacher, hall⟩ := hclient
  refine ⟨?_, hall.trans (room.allTeachers_eq p)⟩
  rw [hteacher, Bool.eq_iff_iff, room.isTeacher_iff p, decide_eq_true_iff]

/-- What board data does to the flag. -/
lemma controlingBoard_onBoardDataTriggered (data : LokiBuffer) :
    (widget.onBoardDataTriggered u data).controlingBoard =
      if data.switchesPage u then false else widget.controlingBoard := by
  unfold LiveWidget.onBoardDataTriggered LokiBuffer.switchesPage
  cases BoardData.fromLokiBuffer u data with
  | some board =>
    by_cases hswitch : board.type = AnimationType.networkSwitchPage.toInt <;>
      simp [hswitch, LiveWidget.setEnableCurrentPage]
  | none => rfl

/-- A button once shown stays. -/
@[simp] lemma onLiveCanApplyAndTake_of_some {button : TitleButton}
    (h : widget.button = some button) (student : Bool) :
    widget.onLiveCanApplyAndTake student = widget := by
  simp only [LiveWidget.onLiveCanApplyAndTake, h]

/-- What may be asked for leaves the control of the board. -/
@[simp] lemma controlingBoard_onLiveCanApplyAndTake (student : Bool) :
    (widget.onLiveCanApplyAndTake student).controlingBoard = widget.controlingBoard := by
  unfold LiveWidget.onLiveCanApplyAndTake
  split <;> rfl

/-- Who may draw controls the board. -/
@[simp] lemma setEnable_controlingBoard (enable : Bool) :
    (widget.setEnableCurrentPage enable).controlingBoard = enable := rfl

/-- Setting the flag keeps what a widget knows. -/
lemma KnownAs.setEnable (h : room.KnownAs p widget) (enable : Bool) :
    room.KnownAs p (widget.setEnableCurrentPage enable) :=
  ⟨h.lokiClient, h.button, h.applications⟩

/-- A known widget takes in a command: it stays known, its flag changes as it should, and only a
teacher who controls the board answers, to a notice, with its page. -/
structure TakesIn (room : Lecture P) (u : Uninitialised) (p : P) (widget : LiveWidget)
    (page : LokiBuffer) (c : LokiCommand) : Prop where
  known : room.KnownAs p (widget.receive u page c).1
  flag : (widget.receive u page c).1.controlingBoard = room.effect u p widget.controlingBoard c
  sent : (widget.receive u page c).2 =
    if p = room.teacher ∧ c.isNotice = true ∧ widget.controlingBoard = true then
      widget.sendSwitchPageAnimation u page
    else []

/-- A command that a known widget answers with no command and that keeps it known. -/
lemma takesIn_of_eq (widget' : LiveWidget) (hreceive : widget.receive u page c = (widget', []))
    (hknown : room.KnownAs p widget')
    (hflag : widget'.controlingBoard = room.effect u p widget.controlingBoard c)
    (hnotice : c.isNotice = false) : room.TakesIn u p widget page c := by
  refine ⟨?_, ?_, ?_⟩
  · rwa [hreceive]
  · rwa [hreceive]
  · rw [hreceive, hnotice]
    simp

/-- A reply makes a widget known. -/
lemma takesIn_reply {login : BoardLoginCommand}
    (happlications : widget.applications ≠ [] → p = room.teacher)
    (hbutton : widget.button = none ∨
      widget.button = some (if p = room.teacher then .take else .apply))
    (hreply : (login.result && !login.peer) = true)
    (haddressed : room.Addressed p (.boradLogin login)) :
    room.TakesIn u p widget page (.boradLogin login) := by
  obtain ⟨hteacher, hall⟩ := isTeacher_of_reply hreply haddressed
  obtain ⟨hresult, hpeer⟩ := Bool.and_eq_true_iff.mp hreply
  rw [Bool.not_eq_true'] at hpeer
  have hclient := boardLoginTriggered_eq widget.lokiClient hreply haddressed
  have hnotice : (LokiCommand.boradLogin login).isNotice = false := by
    simp [LokiCommand.isNotice, hpeer]
  let remembering : LiveWidget := { widget with lokiClient := room.client p }
  have hshown : (remembering.onLiveCanApplyAndTake (decide (p ≠ room.teacher))).button =
      some (if p = room.teacher then .take else .apply) := by
    rcases hbutton with hnone | hsome
    · by_cases hp : p = room.teacher <;>
        simp [remembering, LiveWidget.onLiveCanApplyAndTake, hnone, hp]
    · have hsame : remembering.button = _ := hsome
      rw [onLiveCanApplyAndTake_of_some hsame]
      exact hsome
  have hknown : room.KnownAs p
      (remembering.onLiveCanApplyAndTake (decide (p ≠ room.teacher))) := by
    refine ⟨?_, hshown, ?_⟩
    · unfold LiveWidget.onLiveCanApplyAndTake
      split <;> rfl
    · unfold LiveWidget.onLiveCanApplyAndTake
      split <;> exact happlications
  by_cases hp : p = room.teacher
  · refine takesIn_of_eq ((remembering.onLiveCanApplyAndTake
      (decide (p ≠ room.teacher))).setEnableCurrentPage true) ?_ (hknown.setEnable true) ?_ hnotice
    · simp [remembering, LiveWidget.receive, LokiClient.onCommandTriggered, LiveWidget.onSignal,
        LiveWidget.onBoardLoginTriggered, hclient, hresult, hpeer, hteacher, hall, hp]
    · rw [setEnable_controlingBoard, hp, effect_teacher]
      simp only [teacherEffect, hreply, if_true]
  · refine takesIn_of_eq (remembering.onLiveCanApplyAndTake
      (decide (p ≠ room.teacher))) ?_ hknown ?_ hnotice
    · simp [remembering, LiveWidget.receive, LokiClient.onCommandTriggered, LiveWidget.onSignal,
        LiveWidget.onBoardLoginTriggered, hclient, hresult, hpeer, hteacher, hall, hp]
    · rw [controlingBoard_onLiveCanApplyAndTake, effect_student room hp]
      rfl

/-- A notice is answered by a teacher who controls the board. -/
lemma takesIn_notice (h : room.KnownAs p widget) {login : BoardLoginCommand}
    (hresult : login.result = true) (hpeer : login.peer = true) :
    room.TakesIn u p widget page (.boradLogin login) := by
  have hclient : widget.lokiClient.boardLoginTriggered login = widget.lokiClient := by
    simp [LokiClient.boardLoginTriggered, hpeer]
  have hteacher : (widget.lokiClient.isTeacher && !widget.lokiClient.allTeachers) =
      decide (p = room.teacher) := by
    rw [h.lokiClient, Bool.eq_iff_iff]
    simp [client, room.allTeachers_eq, room.isTeacher_iff]
  have hreceive : widget.receive u page (.boradLogin login) =
      (widget, if p = room.teacher then widget.sendSwitchPageAnimation u page else []) := by
    by_cases hp : p = room.teacher <;>
      simp [LiveWidget.receive, LokiClient.onCommandTriggered, LiveWidget.onSignal,
        LiveWidget.onBoardLoginTriggered, hclient, hresult, hpeer, hteacher, hp]
  refine ⟨?_, ?_, ?_⟩
  · rw [hreceive]
    exact h
  · rw [hreceive]
    by_cases hp : p = room.teacher
    · rw [hp, effect_teacher]
      simp [teacherEffect, hpeer]
    · rw [effect_student room hp]
      rfl
  · rw [hreceive]
    have hnotice : (LokiCommand.boradLogin login).isNotice = true := by
      simp [LokiCommand.isNotice, hresult, hpeer]
    by_cases hp : p = room.teacher
    · cases hflag : widget.controlingBoard <;>
        simp [hp, hnotice, LiveWidget.sendSwitchPageAnimation, LiveWidget.addActionTriggered, hflag]
    · simp [hp]

/-- An agreement is for students. -/
lemma takesIn_agreement (h : room.KnownAs p widget) {apply : ApplyBoardCommand}
    (hteacher : apply.fromTeacher = true) : room.TakesIn u p widget page (.applyBoard apply) := by
  by_cases hp : p = room.teacher
  · have hsignal : widget.lokiClient.applyBoardTriggered apply = none := by
      have hself : widget.lokiClient.isTeacher = true := by
        rw [h.lokiClient]
        exact (room.isTeacher_iff p).mpr hp
      simp [LokiClient.applyBoardTriggered, hteacher, hself]
    have hreceive : widget.receive u page (.applyBoard apply) = (widget, []) := by
      simp only [LiveWidget.receive, LokiClient.onCommandTriggered, hsignal]
    refine takesIn_of_eq _ hreceive h ?_ rfl
    rw [hp, effect_teacher]
    rfl
  · have hsignal : widget.lokiClient.applyBoardTriggered apply = some (.onTeacherAgreeBoard
        (decide (apply.studentId ≠ (room.identity p).userId)) apply.agree) := by
      have hself : widget.lokiClient.isTeacher = false := by
        rw [h.lokiClient, ← Bool.not_eq_true]
        exact fun hteaches => hp ((room.isTeacher_iff p).mp hteaches)
      have hid : widget.lokiClient.userId = (room.identity p).userId := by
        rw [h.lokiClient]
        rfl
      simp [LokiClient.applyBoardTriggered, hteacher, hself, hid]
    have hreceive : widget.receive u page (.applyBoard apply) =
        (widget.onTeacherAgreeBoardTriggered
          (decide (apply.studentId ≠ (room.identity p).userId)) apply.agree, []) := by
      simp only [LiveWidget.receive, LokiClient.onCommandTriggered, hsignal, LiveWidget.onSignal]
    refine takesIn_of_eq _ hreceive ?_ ?_ rfl
    · unfold LiveWidget.onTeacherAgreeBoardTriggered
      rw [onLiveCanApplyAndTake_of_some h.button]
      split_ifs
      · exact h.setEnable false
      · exact h
      · exact h.setEnable true
      · exact h.setEnable false
    · unfold LiveWidget.onTeacherAgreeBoardTriggered
      rw [onLiveCanApplyAndTake_of_some h.button, effect_student room hp]
      by_cases hid : apply.studentId = (room.identity p).userId <;> cases hagree : apply.agree <;>
        simp [studentEffect, hteacher, hid, hagree]

/-- An application waits for the teacher's answer. -/
lemma takesIn_application (h : room.KnownAs p widget) {apply : ApplyBoardCommand}
    (hstudent : apply.fromTeacher = false) (hp : p = room.teacher) :
    room.TakesIn u p widget page (.applyBoard apply) := by
  refine takesIn_of_eq (widget.onStudentApplyBoardTriggered apply.studentId) ?_
    ⟨h.lokiClient, h.button, fun _ => hp⟩ ?_ rfl
  · simp [LiveWidget.receive, LokiClient.onCommandTriggered, LokiClient.applyBoardTriggered,
      hstudent, LiveWidget.onSignal]
  · rw [hp, effect_teacher]
    rfl

/-- Taking control away. -/
lemma KnownAs.onTeacherTakeBoardTriggered (h : room.KnownAs p widget) :
    widget.onTeacherTakeBoardTriggered = widget.setEnableCurrentPage false := by
  have hkept := (h.setEnable false).button
  unfold LiveWidget.onTeacherTakeBoardTriggered
  rw [onLiveCanApplyAndTake_of_some hkept, onLiveCanApplyAndTake_of_some hkept]
  split_ifs with hflag
  · rfl
  · rfl
  · obtain ⟨client, flag, button, applications⟩ := widget
    rw [Bool.not_eq_true] at hflag
    subst hflag
    rfl

/-- What a known widget makes of a command from the server. -/
theorem receive_known (h : room.KnownAs p widget) (haddressed : room.Addressed p c) :
    room.TakesIn u p widget page c := by
  have hignored : ∀ {c : LokiCommand}, widget.receive u page c = (widget, []) →
      room.effect u p widget.controlingBoard c = widget.controlingBoard → c.isNotice = false →
        room.TakesIn u p widget page c := fun hreceive hflag hnotice =>
    takesIn_of_eq _ hreceive h hflag.symm hnotice
  cases c with
  | boradLogin login =>
    by_cases hpeer : login.peer = true
    · exact takesIn_notice h haddressed.1 hpeer
    · rw [Bool.not_eq_true] at hpeer
      refine takesIn_reply h.applications (Or.inr h.button) ?_ haddressed
      rw [haddressed.1, hpeer]
      rfl
  | applyBoard apply =>
    cases hteacher : apply.fromTeacher with
    | true => exact takesIn_agreement h hteacher
    | false => exact takesIn_application h hteacher (haddressed hteacher)
  | boardData board =>
    refine takesIn_of_eq _ rfl ?_ ?_ rfl
    · show room.KnownAs p (widget.onBoardDataTriggered u board.data)
      unfold LiveWidget.onBoardDataTriggered
      split
      · split_ifs
        · exact h.setEnable false
        · exact h
      · exact h
    · show (widget.onBoardDataTriggered u board.data).controlingBoard = _
      rw [controlingBoard_onBoardDataTriggered]
      by_cases hp : p = room.teacher
      · rw [hp, effect_teacher]
        rfl
      · rw [effect_student room hp]
        rfl
  | takeBoard take =>
    refine takesIn_of_eq widget.onTeacherTakeBoardTriggered rfl ?_ ?_ rfl
    · rw [h.onTeacherTakeBoardTriggered]
      exact h.setEnable false
    · rw [h.onTeacherTakeBoardTriggered, setEnable_controlingBoard]
      by_cases hp : p = room.teacher
      · rw [hp, effect_teacher]
        rfl
      · rw [effect_student room hp]
        rfl
  | hadesData hades => exact hignored rfl (by unfold effect; split_ifs <;> rfl) rfl
  | login c => exact hignored rfl (by unfold effect; split_ifs <;> rfl) rfl
  | chat c => exact hignored rfl (by unfold effect; split_ifs <;> rfl) rfl
  | getFriendList c => exact hignored rfl (by unfold effect; split_ifs <;> rfl) rfl
  | serverNotifyRelogin c => exact hignored rfl (by unfold effect; split_ifs <;> rfl) rfl
  | serverNotifyLostConnection c => exact hignored rfl (by unfold effect; split_ifs <;> rfl) rfl

/-- A new widget makes of the reply to its login a known one. -/
theorem receive_new (hreply : c.isReply = true) (haddressed : room.Addressed p c) :
    room.TakesIn u p LiveWidget.new page c := by
  cases c with
  | boradLogin login => exact takesIn_reply (fun hne => absurd rfl hne) (Or.inl rfl) hreply haddressed
  | _ => cases hreply

/-! ## What participants do -/

/-- What a participant does: its widget stays known or new, it sends proper commands, and it keeps
its flag and grants nothing, or is the teacher who gives control away or takes it. -/
structure Acts (room : Lecture P) (p : P) (widget : LiveWidget)
    (result : LiveWidget × List LokiCommand) : Prop where
  known : room.KnownAs p result.1 ∨ result.1 = LiveWidget.new ∧ widget = LiveWidget.new
  proper : ∀ c ∈ result.2, room.Proper p c
  control : (result.1.controlingBoard = widget.controlingBoard ∧ ∀ c ∈ result.2, c.granted = none) ∨
    p = room.teacher ∧ (result.1.controlingBoard = false ∨ ∃ take, result.2 = [.takeBoard take])

/-- The class a known client is in. -/
lemma KnownAs.classId (h : room.KnownAs p widget) : widget.lokiClient.classId = room.classId := by
  rw [h.lokiClient]
  exact room.classId_eq p

/-- A widget that knows nothing is new. -/
lemma knownAs_of_ne (h : widget = LiveWidget.new ∨ room.KnownAs p widget)
    (hne : widget ≠ LiveWidget.new) : room.KnownAs p widget :=
  h.resolve_left hne

/-- The button to apply. -/
lemma acts_apply (h : widget = LiveWidget.new ∨ room.KnownAs p widget)
    (hbutton : widget.button = some .apply) :
    room.Acts p widget (widget, widget.onApplyBoardTriggered) := by
  have hknown := knownAs_of_ne h (by rintro rfl; cases hbutton)
  refine ⟨Or.inl hknown, ?_, Or.inl ⟨rfl, ?_⟩⟩
  · rintro c hc
    obtain rfl := List.mem_singleton.mp hc
    refine ⟨hknown.classId, fun hteacher => (room.isTeacher_iff p).mp ?_⟩
    have hself : widget.lokiClient.isTeacher = true := hteacher
    rw [hknown.lokiClient] at hself
    exact hself
  · rintro c hc
    obtain rfl := List.mem_singleton.mp hc
    simp [LokiClient.applyBoard, LokiCommand.granted]

/-- The button to take the board is the teacher's. -/
lemma acts_take (h : widget = LiveWidget.new ∨ room.KnownAs p widget)
    (hbutton : widget.button = some .take) : room.Acts p widget widget.onTakeBoardTriggered := by
  have hknown := knownAs_of_ne h (by rintro rfl; cases hbutton)
  have hp : p = room.teacher := by
    by_contra hne
    have hshown := hknown.button
    rw [hbutton, if_neg hne] at hshown
    cases hshown
  refine ⟨Or.inl ?_, ?_, Or.inr ⟨hp, Or.inr ⟨_, rfl⟩⟩⟩
  · unfold LiveWidget.onTakeBoardTriggered
    rw [onLiveCanApplyAndTake_of_some hknown.button]
    exact hknown.setEnable true
  · intro c hc
    obtain rfl := List.mem_singleton.mp hc
    exact ⟨hknown.classId, hp⟩

/-- Applications wait for the teacher's answer. -/
lemma acts_answer (h : widget = LiveWidget.new ∨ room.KnownAs p widget) {position : Nat}
    (hposition : position < widget.applications.length) (yes : Bool) :
    room.Acts p widget (widget.answerApplication position yes) := by
  have hknown := knownAs_of_ne h (by rintro rfl; cases hposition)
  have hp := hknown.applications (List.ne_nil_of_length_pos (by omega))
  let answered : LiveWidget := { widget with applications := widget.applications.eraseIdx position }
  have hstill : room.KnownAs p answered := ⟨hknown.lokiClient, hknown.button, fun _ => hp⟩
  have hproper : ∀ studentId, room.Proper p (widget.lokiClient.agreeBoard studentId yes) :=
    fun _ => ⟨hknown.classId, fun _ => hp⟩
  unfold LiveWidget.answerApplication
  rw [List.getElem?_eq_getElem hposition]
  cases yes with
  | true =>
    refine ⟨Or.inl ?_, ?_, Or.inr ⟨hp, Or.inl rfl⟩⟩
    · show room.KnownAs p ((answered.onLiveCanApplyAndTake false).setEnableCurrentPage false)
      rw [onLiveCanApplyAndTake_of_some hstill.button]
      exact hstill.setEnable false
    · intro c hc
      obtain rfl := List.mem_singleton.mp hc
      exact hproper _
  | false =>
    refine ⟨Or.inl hstill, ?_, Or.inl ⟨rfl, ?_⟩⟩
    · intro c hc
      obtain rfl := List.mem_singleton.mp hc
      exact hproper _
    · intro c hc
      obtain rfl := List.mem_singleton.mp hc
      rfl

/-- Whoever controls the board may draw. -/
lemma acts_draw (h : widget = LiveWidget.new ∨ room.KnownAs p widget) (u : Uninitialised)
    (board : BoardData) : room.Acts p widget (widget, widget.addActionTriggered u board) := by
  have hsends : ∀ c ∈ widget.addActionTriggered u board, widget.controlingBoard = true ∧
      c = widget.lokiClient.boardData (board.getMsgPackData u) := by
    intro c hc
    cases hflag : widget.controlingBoard with
    | true =>
      simp only [LiveWidget.addActionTriggered, hflag, Bool.not_true, Bool.false_eq_true, if_false]
        at hc
      exact ⟨rfl, List.mem_singleton.mp hc⟩
    | false =>
      simp only [LiveWidget.addActionTriggered, hflag, Bool.not_false, if_true] at hc
      cases hc
  refine ⟨h.symm.imp id fun hnew => ⟨hnew, hnew⟩, ?_, Or.inl ⟨rfl, ?_⟩⟩
  · intro c hc
    obtain ⟨hflag, rfl⟩ := hsends c hc
    exact (knownAs_of_ne h (by rintro rfl; cases hflag)).classId
  · intro c hc
    obtain ⟨-, rfl⟩ := hsends c hc
    rfl

/-- Peer data has nothing to do with the board. -/
lemma acts_hades (h : widget = LiveWidget.new ∨ room.KnownAs p widget) (peerId : Bytes)
    (data : LokiBuffer) : room.Acts p widget (widget, [widget.lokiClient.hadesData peerId data]) := by
  refine ⟨h.symm.imp id fun hnew => ⟨hnew, hnew⟩, ?_, Or.inl ⟨rfl, ?_⟩⟩
  · intro c hc
    obtain rfl := List.mem_singleton.mp hc
    trivial
  · intro c hc
    obtain rfl := List.mem_singleton.mp hc
    rfl

/-- What a widget sends for a command it takes in is proper and grants nothing. -/
lemma TakesIn.proper (h : room.TakesIn u p widget page c) (hknown : widget = LiveWidget.new ∨
    room.KnownAs p widget) : ∀ x ∈ (widget.receive u page c).2, room.Proper p x ∧ x.granted = none := by
  intro x hx
  rw [h.sent] at hx
  split_ifs at hx with hsends
  · have hdraw := acts_draw hknown u ⟨AnimationType.networkSwitchPage.toInt, page⟩
    refine ⟨hdraw.proper x hx, ?_⟩
    rcases hdraw.control with ⟨-, hnone⟩ | ⟨-, hflag | ⟨take, hsent⟩⟩
    · exact hnone x hx
    · have hcontrols : widget.controlingBoard = false := hflag
      rw [hsends.2.2] at hcontrols
      cases hcontrols
    · simp [LiveWidget.addActionTriggered, hsends.2.2, LokiClient.boardData] at hsent
  · cases hx

end Lecture

end Liangshi

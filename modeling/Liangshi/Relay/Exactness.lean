import Liangshi.Relay.Relay

/-!
# The relay is exact

In every reachable state of the relay, what a client has sent is what the server has handled of
it followed by what is on its way, and what a connection is to receive (`Roster.received`, for the
commands in the order they were handled) is what has been delivered to it followed by what is on
its way (`Relay.Exact`).  So deliveries are never lost, doubled, reordered or changed, and when no
byte is in flight everything has arrived (`relay_exact`).
-/

namespace Liangshi

open Wire Ordered Transition LokiCommand

/-- The replies to a board login can be sent when the login could. -/
def Database.RepliesSendable (db : Database) : Prop :=
  ∀ login, (boradLogin login).Sendable →
    (boradLogin (NetCommandHandler.rejected login)).Sendable ∧
    ∀ identity, db.identify login.sessionId = some identity →
      (boradLogin (NetCommandHandler.accepted login identity)).Sendable ∧
        (boradLogin (NetCommandHandler.peerNotice login identity)).Sendable

/-- What is intended for a connection can be sent when the command could. -/
lemma Roster.sendable_of_mem_intended {db : Database} (hdb : db.RepliesSendable)
    {roster : Roster} {sender receiver : Address} {c x : LokiCommand} (hc : c.Sendable)
    (hx : x ∈ roster.intended db sender receiver c) : x.Sendable := by
  cases c with
  | boradLogin login =>
    obtain ⟨hrejected, haccepted⟩ := hdb login hc
    simp only [Roster.intended] at hx
    cases hidentity : db.identify login.sessionId with
    | none =>
      simp only [hidentity] at hx
      split_ifs at hx
      · rw [List.mem_singleton.mp hx]
        exact hrejected
      · cases hx
    | some identity =>
      simp only [hidentity] at hx
      obtain ⟨hreply, hnotice⟩ := haccepted identity hidentity
      split_ifs at hx
      · rw [List.mem_singleton.mp hx]
        exact hreply
      · rw [List.mem_singleton.mp hx]
        exact hnotice
      · cases hx
  | hadesData hades =>
    simp only [Roster.intended] at hx
    split_ifs at hx
    · rwa [List.mem_singleton.mp hx]
    · cases hx
  | boardData data =>
    simp only [Roster.intended] at hx
    split_ifs at hx
    · rwa [List.mem_singleton.mp hx]
    · cases hx
  | applyBoard apply =>
    simp only [Roster.intended] at hx
    split_ifs at hx
    · rwa [List.mem_singleton.mp hx]
    · cases hx
    · rwa [List.mem_singleton.mp hx]
    · cases hx
  | takeBoard take =>
    simp only [Roster.intended] at hx
    split_ifs at hx
    · rwa [List.mem_singleton.mp hx]
    · cases hx
  | login c => cases hx
  | chat c => cases hx
  | getFriendList c => cases hx
  | serverNotifyRelogin c => cases hx
  | serverNotifyLostConnection c => cases hx

/-- All a connection is to receive for commands that could be sent can be sent. -/
lemma Roster.sendable_of_mem_received {db : Database} (hdb : db.RepliesSendable)
    {receiver : Address} {handled : List Handled} (h : ∀ p ∈ handled, p.2.Sendable)
    {roster : Roster} {x : LokiCommand} (hx : x ∈ roster.received db receiver handled) :
    x.Sendable := by
  induction handled generalizing roster with
  | nil => cases hx
  | cons first handled ih =>
    obtain ⟨hfirst, hothers⟩ := List.forall_mem_cons.mp h
    rcases List.mem_append.mp hx with hnow | hlater
    · exact Roster.sendable_of_mem_intended hdb hfirst hnow
    · exact ih hothers hlater

/-! ## Commands handled one after the other -/

namespace Server

variable {s t : Server}

/-- Storing a parser keeps the state consistent. -/
lemma Consistent.setParser (h : s.Consistent) (user : Address) (parser : User) :
    (s.setParser user parser).Consistent := by
  unfold Server.setParser
  cases hfind : s.heap.find user with
  | none => exact h
  | some o =>
    refine ⟨h.self, fun other => ?_, h.held⟩
    have hlive := h.live other
    simp only [OrderedMap.find_insert]
    split_ifs with heq
    · subst heq
      rw [hfind] at hlive
      simpa [Holds] using hlive
    · exact hlive

/-- What has been read of a frame leaves all users open. -/
lemma AllOpen.setParser (h : s.AllOpen) (user : Address) (parser : User) :
    (s.setParser user parser).AllOpen := by
  intro other o ho
  unfold Server.setParser at ho
  cases hfind : s.heap.find user with
  | none =>
    simp only [hfind] at ho
    exact h other o ho
  | some o' =>
    simp only [hfind, OrderedMap.find_insert] at ho
    split_ifs at ho
    · rw [← Option.some.inj ho]
      exact h user o' hfind
    · exact h other o ho

/-- What has been read of a frame leaves the roster. -/
lemma Represents.setParser {roster : Roster} (h : s.Represents roster) (user : Address)
    (parser : User) : (s.setParser user parser).Represents roster := by
  unfold Server.setParser
  cases hfind : s.heap.find user with
  | none => exact h
  | some o =>
    refine ⟨h.members, h.teacher, fun other => ?_⟩
    have hother := h.userId other
    simp only [userIdOf, OrderedMap.find_insert] at hother ⊢
    split_ifs with heq
    · subst heq
      rw [hfind] at hother
      exact hother
    · exact hother

/-- The parser of a user; a user that is not connected has an empty one. -/
def parserOf (s : Server) (user : Address) : User :=
  ((s.heap.find user).map UserObject.parser).getD User.new

/-- The parser that is stored is the one that is found. -/
lemma parserOf_setParser {user : Address} (hlive : (s.heap.find user).isSome) (parser : User) (other : Address) :
    (s.setParser user parser).parserOf other =
      if user = other then parser else s.parserOf other := by
  obtain ⟨o, ho⟩ := Option.isSome_iff_exists.mp hlive
  simp only [setParser, ho, parserOf, OrderedMap.find_insert]
  split_ifs <;> rfl

/-- The same has been read of the frames of a user. -/
lemma SameParsers.parserOf_eq (h : SameParsers s t) (user : Address) :
    t.parserOf user = s.parserOf user := by
  rw [parserOf, h user, parserOf]

/-- A connection gets an empty parser. -/
lemma parserOf_onConnection {user : Address} (hfresh : s.heap.find user = none)
    (other : Address) : (s.onConnection user).parserOf other = s.parserOf other := by
  simp only [parserOf, onConnection, OrderedMap.find_insert]
  split_ifs with heq
  · rw [← heq, hfresh]
    rfl
  · rfl

/-- A connection is open. -/
lemma AllOpen.onConnection (h : s.AllOpen) (user : Address) : (s.onConnection user).AllOpen := by
  intro other o ho
  simp only [Server.onConnection, OrderedMap.find_insert] at ho
  split_ifs at ho
  · rw [← Option.some.inj ho]
  · exact h other o ho

/-- A connection changes nothing in the roster. -/
lemma Represents.onConnection {roster : Roster} (h : s.Represents roster) {user : Address}
    (hfresh : s.heap.find user = none) : (s.onConnection user).Represents roster := by
  refine ⟨h.members, h.teacher, fun other => ?_⟩
  have hother := h.userId other
  simp only [userIdOf, Server.onConnection, OrderedMap.find_insert] at hother ⊢
  split_ifs with heq
  · subst heq
    rw [hfresh] at hother
    exact hother
  · exact hother

/-- Same users in the heap, same users held. -/
lemma SameParsers.holds (h : SameParsers s t) (hs : s.Consistent) (ht : t.Consistent)
    {user : Address} (hholds : s.Holds user) : t.Holds user := by
  rw [ht.live]
  have hlive := (hs.live user).mp hholds
  rw [← Option.isSome_map, ← h user, Option.isSome_map] at hlive
  exact hlive

/-- Commands handled one after the other: every connection is sent what the roster intends for it,
command after command. -/
theorem handleAll_intended (db : Database) {roster : Roster} {user : Address}
    (hs : s.Consistent) (hopen : s.AllOpen) (hr : s.Represents roster) (hholds : s.Holds user)
    (commands : List LokiCommand) :
    ∃ t sent, s.handleAll db user commands = .ok (t, sent) ∧ t.Consistent ∧ t.AllOpen ∧
      t.Represents (roster.after db (commands.map fun c => (user, c))) ∧ SameParsers s t ∧
        ∀ receiver, sentTo receiver sent =
          roster.received db receiver (commands.map fun c => (user, c)) := by
  induction commands generalizing s roster with
  | nil => exact ⟨s, [], rfl, hs, hopen, hr, fun _ => rfl, fun _ => rfl⟩
  | cons c commands ih =>
    obtain ⟨t₁, sent₁, h₁⟩ := handlThread_intended db hs hr hholds c
    obtain ⟨t, sent, hhandled, hconsistent, hallOpen, hrepresents, hparsers, hsent⟩ :=
      ih h₁.consistent (h₁.allOpen hopen) h₁.represents
        (h₁.sameParsers.holds hs h₁.consistent hholds)
    refine ⟨t, sent₁ ++ sent, ?_, hconsistent, hallOpen, hrepresents, fun other => ?_,
      fun receiver => ?_⟩
    · simp only [handleAll, h₁.handled, hhandled, Except.map]
    · exact (hparsers other).trans (h₁.sameParsers other)
    · rw [sentTo_append, h₁.sentTo_of_allOpen hopen hs hr hholds, hsent]
      rfl

end Server

/-! ## Reading -/

section

variable {u : Uninitialised} {pipe chunk rest : Bytes} {waiting : List LokiCommand}

/-- A call of `OnData` hands over the first commands on their way to the server. -/
lemma User.onData_onTheirWay {user : User} (h : OnTheirWay (User.frameParser u) user pipe waiting)
    (hpipe : pipe = chunk ++ rest)
    (hroom : user.received.queue.length + chunk.length < 2 ^ 31) :
    ∃ user' done others, waiting = done ++ others ∧
      user.onData u chunk = some (.returned user' done) ∧
        OnTheirWay (User.frameParser u) user' rest others := by
  refine h.receive hpipe (User.pending_insertData user chunk) ?_ (Nat.lt_succ_self _)
  simpa [User.frameParser, LokiReceiveBuffer.insertData] using hroom

/-- A call of `OnDataReadTriggered` hands over the first commands on their way to a client. -/
lemma LokiSocket.onDataReadTriggered_onTheirWay {socket : LokiSocket}
    (h : OnTheirWay (LokiSocket.frameParser u) socket pipe waiting) (hpipe : pipe = chunk ++ rest)
    (hroom : socket.buffer.length + chunk.length < 2 ^ 31) :
    ∃ socket' done others, waiting = done ++ others ∧
      socket.onDataReadTriggered u chunk = some (.returned socket' done) ∧
        OnTheirWay (LokiSocket.frameParser u) socket' rest others := by
  refine h.receive hpipe (LokiSocket.pending_arrived socket chunk) ?_ (Nat.lt_succ_self _)
  simpa [LokiSocket.frameParser] using hroom

end

/-! ## The invariant -/

namespace Relay

variable {db : Database} {u : Uninitialised} {s : Relay}

/-- What holds of the relay in every reachable state. -/
structure Exact (db : Database) (u : Uninitialised) (s : Relay) : Prop where
  consistent : s.server.Consistent
  allOpen : s.server.AllOpen
  represents : s.server.Represents (Roster.empty.after db s.handled)
  up : ∀ user, ∃ waiting,
    OnTheirWay (User.frameParser u) (s.server.parserOf user) (s.links user).up waiting ∧
      (s.links user).sent = s.handledFrom user ++ waiting
  down : ∀ user, ∃ waiting,
    OnTheirWay (LokiSocket.frameParser u) (s.links user).socket (s.links user).down waiting ∧
      s.expected db user = (s.links user).delivered ++ waiting

/-- A new relay has passed on nothing. -/
lemma exact_new : new.Exact db u where
  consistent := Server.consistent_new
  allOpen user o ho := by cases ho
  represents := by
    refine ⟨fun classId user => ?_, fun _ => rfl, fun _ => rfl⟩
    simp [new, Server.new, Roster.after, Roster.empty]
  up _ := ⟨[], ⟨by simp, rfl, rfl, by simp⟩, rfl⟩
  down _ := ⟨[], ⟨by simp, rfl, rfl, by simp⟩, rfl⟩

/-- Opening a connection changes no traffic. -/
lemma Exact.connect (h : s.Exact db u) {user : Address}
    (hfresh : s.server.heap.find user = none) :
    Exact db u { s with server := s.server.onConnection user } where
  consistent := h.consistent.onConnection hfresh
  allOpen := h.allOpen.onConnection user
  represents := h.represents.onConnection hfresh
  up other := by
    obtain ⟨waiting, hway, hsent⟩ := h.up other
    rw [← Server.parserOf_onConnection hfresh] at hway
    exact ⟨waiting, hway, hsent⟩
  down := h.down

/-- What a client sends is on its way to the server. -/
lemma Exact.send (h : s.Exact db u) (user : Address) {c : LokiCommand} (hc : c.Sendable) :
    (s.afterSend user c).Exact db u := by
  refine ⟨h.consistent, h.allOpen, h.represents, fun other => ?_, fun other => ?_⟩
  · obtain ⟨waiting, hway, hsent⟩ := h.up other
    rw [links_afterSend]
    by_cases heq : other = user
    · refine ⟨waiting ++ [c], ?_, ?_⟩
      · simp only [if_pos heq, LokiSocket.sendData_eq (hc.payload u).length_lt]
        exact hway.send hc
      · simp only [if_pos heq, hsent, List.append_assoc]
        rfl
    · simp only [if_neg heq, List.append_nil]
      exact ⟨waiting, hway, hsent⟩
  · rw [links_afterSend]
    exact h.down other

/-- What a client reads has been on its way to it. -/
lemma Exact.clientRead (h : s.Exact db u) {user : Address} {count : Nat}
    (henabled : s.Enabled (.clientRead user count)) :
    ∃ t, s.next db u (.clientRead user count) = some t ∧ t.Exact db u := by
  obtain ⟨-, hcount, hroom⟩ := henabled
  obtain ⟨waiting, hway, hdelivered⟩ := h.down user
  obtain ⟨socket, done, others, rfl, hread, hway'⟩ :=
    LokiSocket.onDataReadTriggered_onTheirWay hway (List.take_append_drop count _).symm
      (by rwa [List.length_take, min_eq_left hcount])
  refine ⟨s.afterClientRead user count done socket, by simp only [next, hread], h.consistent,
    h.allOpen, h.represents, fun other => ?_, fun other => ?_⟩
  · by_cases heq : other = user
    · subst heq
      rw [links_afterClientRead_self]
      exact h.up other
    · rw [links_afterClientRead_of_ne socket heq]
      exact h.up other
  · by_cases heq : other = user
    · subst heq
      rw [links_afterClientRead_self]
      exact ⟨others, hway', by rw [List.append_assoc]; exact hdelivered⟩
    · rw [links_afterClientRead_of_ne socket heq]
      exact h.down other

/-- The bytes written to a user are the frames of the commands sent to it. -/
lemma written_eq {sent : List Sent} {user : Address}
    (h : ∀ c ∈ Server.sentTo user sent, c.Sendable) :
    written sent user = (Server.sentTo user sent).flatMap fun c => frame c.payload :=
  List.flatMap_congr fun c hmem => NetCommandHandler.writeData_eq (h c hmem).length_lt

/-- Of commands that came from one user, those from a user are all or none. -/
lemma handledFrom_append (handled : List Handled) (user other : Address)
    (commands : List LokiCommand) :
    ((handled ++ commands.map fun c => (user, c)).filter fun h => decide (h.1 = other)).map
        Prod.snd =
      (handled.filter fun h => decide (h.1 = other)).map Prod.snd ++
        if other = user then commands else [] := by
  by_cases heq : other = user
  · subst heq
    simp [List.filter_map, Function.comp_def]
  · have hne : ¬ user = other := fun h => heq h.symm
    simp [List.filter_map, Function.comp_def, heq, hne]

/-- What the server reads has been on its way to it, and what it writes is on its way to those
it is intended for. -/
lemma Exact.serverRead (hdb : db.RepliesSendable) (h : s.Exact db u) {user : Address}
    {count : Nat} (henabled : s.Enabled (.serverRead user count)) :
    ∃ t, s.next db u (.serverRead user count) = some t ∧ t.Exact db u := by
  obtain ⟨o, ho, hcount, hroom⟩ := henabled
  have hlive : (s.server.heap.find user).isSome := by rw [ho]; rfl
  obtain ⟨waiting, hway, hsent⟩ := h.up user
  have hparser : s.server.parserOf user = o.parser := by simp only [Server.parserOf, ho]; rfl
  rw [hparser] at hway
  obtain ⟨parser, done, others, rfl, hread, hway'⟩ :=
    User.onData_onTheirWay hway (List.take_append_drop count _).symm
      (by rwa [List.length_take, min_eq_left hcount])
  have hdone := (List.forall_mem_append.mp hway.sendable).1
  have hstored := h.consistent.setParser user parser
  have hholds : (s.server.setParser user parser).Holds user := by
    rw [hstored.live]
    simp only [Server.setParser, ho, OrderedMap.find_insert, if_true]
    rfl
  obtain ⟨server, sent, hhandled, hconsistent, hallOpen, hrepresents, hparsers, hsentTo⟩ :=
    Server.handleAll_intended db hstored (h.allOpen.setParser user parser)
      (h.represents.setParser user parser) hholds done
  refine ⟨s.afterServerRead user count done server sent, next_serverRead ho hread hhandled,
    hconsistent, hallOpen, ?_, fun other => ?_, fun other => ?_⟩
  · show server.Represents (Roster.empty.after db (s.handled ++ done.map fun c => (user, c)))
    rw [Roster.after_append]
    exact hrepresents
  · show ∃ waiting, OnTheirWay _ (server.parserOf other) _ _ ∧ _
    rw [links_afterServerRead, hparsers.parserOf_eq, Server.parserOf_setParser hlive]
    simp only [handledFrom, afterServerRead, handledFrom_append]
    by_cases heq : other = user
    · subst heq
      simp only [if_true, List.append_assoc]
      exact ⟨others, hway', hsent⟩
    · simp only [if_neg heq, if_neg fun h => heq (Eq.symm h), List.drop_zero, List.append_nil]
      exact h.up other
  · obtain ⟨waiting, hdown, hdelivered⟩ := h.down other
    have hreceived : ∀ c ∈ Server.sentTo other sent, c.Sendable := by
      rw [hsentTo other]
      refine fun c hmem => Roster.sendable_of_mem_received hdb ?_ hmem
      simpa using hdone
    have hexpected : Roster.empty.received db other (s.handled ++ done.map fun c => (user, c)) =
        s.expected db other ++ Server.sentTo other sent := by
      rw [Roster.received_append, hsentTo]
      rfl
    rw [links_afterServerRead]
    refine ⟨waiting ++ Server.sentTo other sent, ?_, ?_⟩
    · rw [written_eq hreceived]
      exact hdown.sendAll hreceived
    · show Roster.empty.received db other (s.handled ++ done.map fun c => (user, c)) = _
      rw [hexpected, hdelivered, List.append_assoc]

/-- Every event that can happen has its effect, and the relay stays exact. -/
theorem Exact.next (hdb : db.RepliesSendable) (h : s.Exact db u) {e : RelayEvent}
    (henabled : s.Enabled e) : ∃ t, s.next db u e = some t ∧ t.Exact db u := by
  cases e with
  | connect user => exact ⟨_, rfl, h.connect henabled⟩
  | send user c => exact ⟨_, rfl, h.send user henabled.2⟩
  | serverRead user count => exact h.serverRead hdb henabled
  | clientRead user count => exact h.clientRead henabled

/-- Every reachable state of the relay is exact. -/
theorem exact_of_reachable (hdb : db.RepliesSendable) (h : (system db u).Reachable s) :
    s.Exact db u := by
  refine h.invariant (fun s hinit => ?_) fun s e t hs hstep => ?_
  · rw [show s = new from hinit]
    exact exact_new
  · obtain ⟨t', hnext, ht'⟩ := hs.next hdb hstep.1
    have hsame : some t' = some t := hnext.symm.trans hstep.2
    exact Option.some.inj hsame ▸ ht'

/-! ## Exactness -/

/-- In every reachable state, every event that can happen has its effect; what has been handled
of a client is, in order, the first part of what it has sent; what has been delivered to a client
is, in order, the first part of what is intended for it, and either is everything when no byte is
in flight.  A command for a class is intended for members of the class only, and with distinct
ids peer data for one of them at most. -/
theorem relay_exact (hdb : db.RepliesSendable) (h : (system db u).Reachable s) :
    (∀ e, s.Enabled e → (s.next db u e).isSome) ∧
    (∀ user, s.handledFrom user <+: (s.links user).sent ∧
      (s.links user).delivered <+: s.expected db user) ∧
    (∀ user, ((s.links user).up = [] → s.handledFrom user = (s.links user).sent) ∧
      ((s.links user).down = [] → (s.links user).delivered = s.expected db user)) ∧
    ∀ earlier sender c later, s.handled = earlier ++ (sender, c) :: later →
      let roster := Roster.empty.after db earlier
      (∀ receiver, roster.intended db sender receiver c ≠ [] →
        match Roster.classOf db c with
        | some classId => receiver ∈ (roster.next db sender c).members classId
        | none => receiver = sender) ∧
      ∀ hades, c = .hadesData hades → roster.DistinctIds hades.classId →
        ∀ receiver other, roster.intended db sender receiver c ≠ [] →
          roster.intended db sender other c ≠ [] → receiver = other := by
  have hexact := exact_of_reachable hdb h
  refine ⟨fun e henabled => ?_, fun user => ⟨?_, ?_⟩,
    fun user => ⟨fun hquiet => ?_, fun hquiet => ?_⟩, ?_⟩
  · obtain ⟨t, hnext, -⟩ := hexact.next hdb henabled
    rw [hnext]
    rfl
  · obtain ⟨waiting, -, hsent⟩ := hexact.up user
    exact ⟨waiting, hsent.symm⟩
  · obtain ⟨waiting, -, hdelivered⟩ := hexact.down user
    exact ⟨waiting, hdelivered.symm⟩
  · obtain ⟨waiting, hway, hsent⟩ := hexact.up user
    rw [hquiet] at hway
    rw [hsent, hway.eq_nil, List.append_nil]
  · obtain ⟨waiting, hway, hdelivered⟩ := hexact.down user
    rw [hquiet] at hway
    rw [hdelivered, hway.eq_nil, List.append_nil]
  · intro earlier sender c later _
    refine ⟨fun receiver hreceives => ?_, ?_⟩
    · exact Roster.recipient_mem (Roster.teachersBelong_empty.after db earlier) hreceives
    · rintro hades rfl hdistinct receiver other hreceiver hother
      exact Roster.hadesData_unique hdistinct hreceiver hother

/-! ## A lecture -/

/-- A rejection is as long as its login. -/
lemma sendable_rejected {login : BoardLoginCommand} (h : (boradLogin login).Sendable) :
    (boradLogin (NetCommandHandler.rejected login)).Sendable := by
  refine ⟨h.packable, ?_⟩
  have hrecord : (boradLogin (NetCommandHandler.rejected login)).getMsgPackData.length =
      (boradLogin login).getMsgPackData.length := by
    simp only [getMsgPackData, toObj, BoardLoginCommand.toObj, MessagePack.Obj.pack,
      MessagePack.packAll, List.length_append, NetCommandHandler.rejected, List.length_cons,
      MessagePack.Codec.bool]
  have hlength : (boradLogin (NetCommandHandler.rejected login)).payload.length =
      (boradLogin login).payload.length := by
    simp only [payload, MessagePack.packAll, MessagePack.Obj.pack, List.length_append, hrecord]
    rfl
  rw [hlength]
  exact h.length_lt

/-- A board login whose strings fit the format can be sent if its frame fits a queue. -/
lemma sendable_boradLogin {login : BoardLoginCommand}
    (hlength : (boradLogin login).payload.length + 4 < 2 ^ 31)
    (h : ∀ s ∈ [login.sessionId, login.userId, login.nickname, login.classId],
      s.length < 2 ^ 32) : (boradLogin login).Sendable := by
  simp only [List.forall_mem_cons] at h
  obtain ⟨hsession, huser, hnickname, hclass, -⟩ := h
  have hcount : 9 < 2 ^ 32 := by decide
  exact ⟨⟨by decide, hcount, hsession, trivial, trivial, huser, trivial, trivial, trivial,
    hnickname, hclass, trivial⟩, hlength⟩

/-- A database with a teacher and a student of one class. -/
def lectureDatabase : Database where
  isTeacher sessionId := if sessionId = [1] then some ⟨[7], [8], [], false⟩ else none
  isStudent sessionId := if sessionId = [2] then some ⟨[7], [9], [], false, false⟩ else none

/-- The login with a session id. -/
def loginOf (sessionId : Bytes) : BoardLoginCommand :=
  ⟨sessionId, false, false, [], false, false, false, [], []⟩

/-- What the teacher draws. -/
def drawnLine : LokiCommand := boardData ⟨[7], ⟨[1, 2, 3]⟩⟩

/-- The commands that are sent. -/
def lectureCommands : List LokiCommand :=
  [boradLogin (loginOf [1]), boradLogin (loginOf [2]), drawnLine]

/-- The commands of the lecture fit into frames. -/
lemma sendable_lecture {c : LokiCommand} (h : c ∈ lectureCommands) : c.Sendable := by
  obtain rfl | rfl | rfl := by simpa [lectureCommands] using h
  · exact sendable_boradLogin (by decide) (by decide)
  · exact sendable_boradLogin (by decide) (by decide)
  · refine ⟨?_, by decide⟩
    simp [drawnLine, toObj, BoardDataCommand.toObj, LokiBuffer.codec, MessagePack.Codec.vector,
      MessagePack.Codec.string, MessagePack.Codec.int8, MessagePack.Obj.Packable, MessagePack.AllPackable,
      MessagePack.embedStackSize, MessagePack.packable_ofInt]

/-- So do the answers of its database. -/
lemma repliesSendable_lecture : lectureDatabase.RepliesSendable := by
  intro login h
  refine ⟨sendable_rejected h, fun identity hidentity => ?_⟩
  obtain ⟨hsession, rfl⟩ | ⟨hsession, rfl⟩ :
      login.sessionId = [1] ∧ identity = ⟨[7], [8], [], false, true, false⟩ ∨
        login.sessionId = [2] ∧ identity = ⟨[7], [9], [], false, false, false⟩ := by
    unfold Database.identify lectureDatabase at hidentity
    by_cases hteacher : login.sessionId = [1]
    · simp only [hteacher, if_true, Option.some.injEq] at hidentity
      exact .inl ⟨hteacher, hidentity.symm⟩
    · by_cases hstudent : login.sessionId = [2]
      · simp [hstudent] at hidentity
        exact .inr ⟨hstudent, hidentity.symm⟩
      · simp [hteacher, hstudent] at hidentity
  · have haccepted : NetCommandHandler.accepted login ⟨[7], [8], [], false, true, false⟩ =
        NetCommandHandler.accepted (loginOf [1]) ⟨[7], [8], [], false, true, false⟩ := by
      simp only [NetCommandHandler.accepted, hsession, loginOf]
    rw [NetCommandHandler.peerNotice, haccepted]
    exact ⟨sendable_boradLogin (by decide) (by decide), sendable_boradLogin (by decide) (by decide)⟩
  · have haccepted : NetCommandHandler.accepted login ⟨[7], [9], [], false, false, false⟩ =
        NetCommandHandler.accepted (loginOf [2]) ⟨[7], [9], [], false, false, false⟩ := by
      simp only [NetCommandHandler.accepted, hsession, loginOf]
    rw [NetCommandHandler.peerNotice, haccepted]
    exact ⟨sendable_boradLogin (by decide) (by decide), sendable_boradLogin (by decide) (by decide)⟩

/-- An event that can happen, decided. -/
def permits (s : Relay) : RelayEvent → Bool
  | .connect user => (s.server.heap.find user).isNone
  | .send user c => (s.server.heap.find user).isSome && decide (c ∈ lectureCommands)
  | .serverRead user count => (s.server.heap.find user).any fun o =>
      decide (count ≤ (s.links user).up.length ∧ o.parser.received.queue.length + count < 2 ^ 31)
  | .clientRead user count => (s.server.heap.find user).isSome &&
      decide (count ≤ (s.links user).down.length ∧
        (s.links user).socket.buffer.length + count < 2 ^ 31)

/-- What is computed to be permitted may happen. -/
lemma enabled_of_permits {s : Relay} {e : RelayEvent} (h : s.permits e = true) : s.Enabled e := by
  cases e with
  | connect user => exact Option.isNone_iff_eq_none.mp h
  | send user c =>
    obtain ⟨huser, hc⟩ := Bool.and_eq_true_iff.mp h
    exact ⟨huser, sendable_lecture (of_decide_eq_true hc)⟩
  | serverRead user count =>
    rw [permits] at h
    rcases ho : s.server.heap.find user with _ | o
    · rw [ho] at h
      cases h
    · rw [ho] at h
      exact ⟨o, ho, of_decide_eq_true h⟩
  | clientRead user count =>
    obtain ⟨huser, hcount⟩ := Bool.and_eq_true_iff.mp h
    exact ⟨huser, of_decide_eq_true hcount⟩

/-- The teacher and the student log in, and the teacher draws; the chunks end anywhere. -/
def lecture : List RelayEvent :=
  [.connect 1, .connect 2, .send 1 (boradLogin (loginOf [1])), .send 2 (boradLogin (loginOf [2])),
    .serverRead 1 7, .serverRead 2 19, .serverRead 1 12, .clientRead 2 30, .send 1 drawnLine,
    .serverRead 1 9, .serverRead 1 7, .clientRead 2 10, .clientRead 2 18]

/-- The next state, if the event is permitted. -/
def tryNext (s : Relay) (e : RelayEvent) : Option Relay :=
  if s.permits e then s.next lectureDatabase ⟨0, false⟩ e else none

/-- All that the teacher has sent is handled, and the student is delivered its reply, the notice of the
teacher and what the teacher draws. -/
theorem relay_exact_lecture : ∃ s, (system lectureDatabase ⟨0, false⟩).Reachable s ∧
    s.handledFrom 1 = [boradLogin (loginOf [1]), drawnLine] ∧
    (s.links 2).delivered = s.expected lectureDatabase 2 ∧
    (s.expected lectureDatabase 2).length = 3 ∧ drawnLine ∈ (s.links 2).delivered := by
  have hrun : ((lecture.foldlM tryNext new).map fun s =>
      decide ((s.links 1).up = [] ∧ (s.links 2).down = [] ∧
        (s.links 1).sent = [boradLogin (loginOf [1]), drawnLine] ∧
        (s.expected lectureDatabase 2).length = 3 ∧ drawnLine ∈ s.expected lectureDatabase 2)) =
      some true := by
    decide +kernel
  obtain ⟨s, hs, hfinal⟩ := Option.map_eq_some_iff.mp hrun
  obtain ⟨hup, hdown, hsent, hlength, hmem⟩ := of_decide_eq_true hfinal
  have hreachable : (system lectureDatabase ⟨0, false⟩).Reachable s := by
    refine System.Reachable.foldlM (fun s e t h => ?_) rfl hs
    unfold tryNext at h
    split_ifs at h with hpermits
    exact ⟨enabled_of_permits hpermits, h⟩
  have hexact := (relay_exact repliesSendable_lecture hreachable).2.2.1
  have hdelivered := (hexact 2).2 hdown
  refine ⟨s, hreachable, ?_, hdelivered, hlength, hdelivered ▸ hmem⟩
  rw [(hexact 1).1 hup, hsent]

end Relay

end Liangshi
